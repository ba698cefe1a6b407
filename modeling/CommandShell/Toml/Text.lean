/-!
# The text of TOML documents

Blanks, comments, line ends, strings and keys.  A reader takes characters off
the front of a text and returns the rest, or nothing where the text does not
begin as it should.
-/

namespace CommandShell

namespace Toml

def isBlank (char : Char) : Bool :=
  char = ' ' || char = '\t'

/-- Whether the character may stand in a comment or a string. -/
def isTextual (char : Char) : Bool :=
  char = '\t' || (' ' ≤ char && char ≤ '~') || '\x80' ≤ char

def skipBlanks (text : List Char) : List Char :=
  text.dropWhile isBlank

def skipComment : List Char → List Char
  | '#' :: rest => rest.dropWhile isTextual
  | text => text

/-- Read a line end.  The end of the document ends its last line. -/
def lineEnd? : List Char → Option (List Char)
  | [] => some []
  | '\n' :: rest => some rest
  | '\r' :: '\n' :: rest => some rest
  | _ => none

/-- Read what may stand between a statement and the next line. -/
def restOfLine? (text : List Char) : Option (List Char) :=
  lineEnd? (skipComment (skipBlanks text))

/-- Skip blanks, line ends and comments.  The flag tells that a comment has
begun. -/
def skipLines : Bool → List Char → List Char
  | false, '\r' :: '\n' :: rest => skipLines false rest
  | false, char :: rest =>
      if isBlank char || char = '\n' then skipLines false rest
      else if char = '#' then skipLines true rest
      else char :: rest
  | true, '\r' :: '\n' :: rest => skipLines false rest
  | true, char :: rest =>
      if char = '\n' then skipLines false rest
      else if isTextual char then skipLines true rest
      else char :: rest
  | _, [] => []

/-- The value of a hexadecimal digit. -/
def hexDigit? (char : Char) : Option Nat :=
  if char.isDigit then some (char.toNat - '0'.toNat)
  else if 'a' ≤ char && char ≤ 'f' then some (char.toNat - 'a'.toNat + 10)
  else if 'A' ≤ char && char ≤ 'F' then some (char.toNat - 'A'.toNat + 10)
  else none

/-- The character with a code point, if there is one. -/
def scalar? (code : Nat) : Option Char :=
  if code.isValidChar then some (Char.ofNat code) else none

/-- The character that a letter behind a backslash stands for. -/
def escaped? : Char → Option Char
  | 'b' => some '\x08'
  | 't' => some '\t'
  | 'n' => some '\n'
  | 'f' => some '\x0c'
  | 'r' => some '\r'
  | '"' => some '"'
  | '\\' => some '\\'
  | _ => none

/-- Put a character in front of a string that has been read. -/
def push (char : Char) (read : List Char × List Char) : List Char × List Char :=
  (char :: read.1, read.2)

/-- Read the quote marks at the end of a string over several lines, where one
mark has been read already.  Three marks end the string, and up to two more in
front of them belong to it. -/
def closing? (mark : Char) (text : List Char) : Option (List Char × List Char) :=
  let marks := (text.takeWhile (· = mark)).length
  if marks < 2 then none
  else
    let taken := min marks 4
    some (List.replicate (taken - 2) mark, text.drop taken)

/-- Read a literal string behind its opening marks. -/
def literal? (multiline : Bool) : List Char → Option (List Char × List Char)
  | [] => none
  | char :: rest =>
      if char = '\'' then
        if multiline then
          match closing? '\'' rest with
          | some closed => some closed
          | none => (literal? multiline rest).map (push char)
        else some ([], rest)
      else if isTextual char then (literal? multiline rest).map (push char)
      else if multiline && char = '\n' then (literal? multiline rest).map (push char)
      else if multiline && char = '\r' && rest.head? = some '\n' then literal? multiline rest
      else none

/-- The place within a basic string. -/
inductive Place where
  /-- Between characters; behind an escaped line end, blanks and line ends do not
  count. -/
  | plain (afterLineEnd : Bool)
  /-- Behind a backslash. -/
  | escape
  /-- Behind a backslash and blanks, which only a line end may follow. -/
  | escapedBlank
  /-- Within a code point that lacks this many digits. -/
  | code (lacking value : Nat)
  deriving DecidableEq, Repr

/-- Read a basic string behind its opening marks. -/
def basic? (multiline : Bool) : Place → List Char → Option (List Char × List Char)
  | _, [] => none
  | .plain afterLineEnd, char :: rest =>
      if char = '\r' then
        if multiline && rest.head? = some '\n' then basic? multiline (.plain afterLineEnd) rest
        else none
      else if afterLineEnd && (isBlank char || char = '\n') then
        basic? multiline (.plain true) rest
      else if char = '"' then
        if multiline then
          match closing? '"' rest with
          | some closed => some closed
          | none => (basic? multiline (.plain false) rest).map (push char)
        else some ([], rest)
      else if char = '\\' then basic? multiline .escape rest
      else if isTextual char || (multiline && char = '\n') then
        (basic? multiline (.plain false) rest).map (push char)
      else none
  | .escape, char :: rest =>
      if char = 'u' then basic? multiline (.code 4 0) rest
      else if char = 'U' then basic? multiline (.code 8 0) rest
      else
        match escaped? char with
        | some meant => (basic? multiline (.plain false) rest).map (push meant)
        | none =>
            if !multiline then none
            else if char = '\n' then basic? multiline (.plain true) rest
            else if isBlank char || (char = '\r' && rest.head? = some '\n') then
              basic? multiline .escapedBlank rest
            else none
  | .escapedBlank, char :: rest =>
      if char = '\n' then basic? multiline (.plain true) rest
      else if isBlank char || (char = '\r' && rest.head? = some '\n') then
        basic? multiline .escapedBlank rest
      else none
  | .code lacking value, char :: rest =>
      match hexDigit? char with
      | none => none
      | some digit =>
          let value := value * 16 + digit
          if lacking ≤ 1 then
            match scalar? value with
            | some meant => (basic? multiline (.plain false) rest).map (push meant)
            | none => none
          else basic? multiline (.code (lacking - 1) value) rest

/-- A line end right behind the opening marks of a string over several lines
does not belong to it. -/
def skipFirstLineEnd : List Char → List Char
  | '\n' :: rest => rest
  | '\r' :: '\n' :: rest => rest
  | text => text

/-- A text that has been read, as a string. -/
def asString (read : List Char × List Char) : String × List Char :=
  (String.ofList read.1, read.2)

/-- Read a string within one line. -/
def lineString? : List Char → Option (String × List Char)
  | '"' :: rest => (basic? false (.plain false) rest).map asString
  | '\'' :: rest => (literal? false rest).map asString
  | _ => none

/-- Read a string. -/
def string? : List Char → Option (String × List Char)
  | '"' :: '"' :: '"' :: rest =>
      (basic? true (.plain false) (skipFirstLineEnd rest)).map asString
  | '\'' :: '\'' :: '\'' :: rest => (literal? true (skipFirstLineEnd rest)).map asString
  | text => lineString? text

/-- Whether the character may stand in a key without quotes. -/
def isBareKeyChar (char : Char) : Bool :=
  char.isAlphanum || char = '_' || char = '-'

/-- Read one part of a key. -/
def keyPart? (text : List Char) : Option (String × List Char) :=
  match text.takeWhile isBareKeyChar with
  | [] => lineString? text
  | bare => some (String.ofList bare, text.dropWhile isBareKeyChar)

/-- Read a dotted key of at most `limit` parts, and the blanks around it. -/
def key? : (limit : Nat) → List Char → Option (List String × List Char)
  | 0, _ => none
  | limit + 1, text => do
      let (part, rest) ← keyPart? (skipBlanks text)
      match skipBlanks rest with
      | '.' :: rest =>
          let (parts, rest) ← key? limit rest
          return (part :: parts, rest)
      | rest => return ([part], rest)

end Toml

end CommandShell
