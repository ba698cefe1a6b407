import CommandShell.Failure

/-!
# Command lines

A command line is cut into tokens at spaces.  Quote marks make everything up to
the next mark of the same kind literal, and an operator outside quotes is a
token of its own.  The scan below goes once over the characters and carries the
token begun so far together with the mark of the open region, if there is one.
-/

namespace CommandShell

namespace CommandLine

/-- Whether the character opens a quoted region. -/
def isQuoteMark (char : Char) : Bool :=
  char = '\'' || char = '"'

/-- Whether the character is a token of its own outside quotes. -/
def isOperator (char : Char) : Bool :=
  char = '>' || char = '|'

/-- Put the token begun so far, held back to front, before the tokens that
follow it.  A token without characters is none. -/
def emit (begun : List Char) (tokens : List String) : List String :=
  if begun = [] then tokens else String.ofList begun.reverse :: tokens

/-- The tokens of the remaining characters, or the mark of a quoted region that
never ends. -/
def scan : Option Char → List Char → List Char → Except Char (List String)
  | some mark, _, [] => .error mark
  | none, begun, [] => .ok (emit begun [])
  | some mark, begun, char :: rest =>
      if char = mark then scan none begun rest
      else scan (some mark) (char :: begun) rest
  | none, begun, char :: rest =>
      if isQuoteMark char then scan (some char) begun rest
      else if char = ' ' then (scan none [] rest).map (emit begun)
      else if isOperator char then
        (scan none [] rest).map fun tokens => emit begun (char.toString :: tokens)
      else scan none (char :: begun) rest

/-- The tokens of a command line.  The empty line consists of one empty token,
and no other line contains an empty one. -/
def tokens (line : String) : Except Failure (List String) :=
  if line = "" then .ok [""]
  else (scan none [] line.toList).mapError .unterminatedQuote

end CommandLine

end CommandShell
