/-!
# Failures of shell operations

A failure records its cause, never its wording.  `Failure.message` holds the
wording of every cause, and `Failure.isUserFacing` singles out the causes that
a session reports as one line of output before it returns to the prompt; the
others are handed to whoever drives the session.
-/

namespace CommandShell

/-- Why a shell operation did not do what was asked of it. -/
inductive Failure where
  /-- The path leads to no directory. -/
  | notADirectory (path : String)
  /-- The path leads to no file. -/
  | notAFile (path : String)
  /-- The path is already taken. -/
  | alreadyExists (path : String)
  /-- The handle is bound to no open file. -/
  | invalidHandle (handle : Nat)
  /-- The command needs an argument that it was not given. -/
  | missingArgument (argument : String)
  /-- No command is registered under the name. -/
  | commandNotFound (name : String)
  /-- The command line ends inside a region opened by the quote mark. -/
  | unterminatedQuote (mark : Char)
  /-- The configuration cannot be read or makes no sense. -/
  | config (detail : String)
  /-- The host system refused an input or output operation. -/
  | io (detail : String)
  /-- The configuration text is not a document of the expected shape. -/
  | malformedToml (detail : String)
  deriving DecidableEq, Repr

namespace Failure

/-- The wording of a failure, without a line end except for malformed
configuration text, whose detail forms a paragraph. -/
def message : Failure → String
  | notADirectory path => "not a directory: " ++ path
  | notAFile path => "not a file: " ++ path
  | alreadyExists path => "already exists: " ++ path
  | invalidHandle handle => "invalid handle: " ++ toString handle
  | missingArgument argument => "missing argument: " ++ argument
  | commandNotFound name => "command not found: " ++ name
  | unterminatedQuote mark => "unterminated quote: " ++ mark.toString
  | config detail => "config error: " ++ detail
  | io detail => "I/O error: " ++ detail
  | malformedToml detail => "TOML parse error: " ++ detail ++ "\n"

/-- Whether a failure is an expected outcome of normal use, to be shown as one
line of output. -/
def isUserFacing : Failure → Bool
  | notADirectory _ | notAFile _ | alreadyExists _ | missingArgument _ | commandNotFound _ => true
  | invalidHandle _ | unterminatedQuote _ | config _ | io _ | malformedToml _ => false

end Failure

end CommandShell
