import CommandShell.FileTree.Basic
import CommandShell.Handles

/-!
# Calls

A running command works on the session through calls, and every call has a
reply of its own type.  Commands that are played from a script also note down
what they learn; an answer is one such note.
-/

namespace CommandShell

/-- What is known about a command without running it. -/
structure CommandInfo where
  name : String
  description : String
  usage : String
  deriving DecidableEq, Repr

/-- A note about the outcome of one step of a script. -/
inductive Answer where
  | nothing
  | number (value : Nat)
  | numbers (values : List Nat)
  | flag (value : Bool)
  | text (value : String)
  | texts (values : List String)
  | entries (values : List Entry)
  | node (id : Option NodeId)
  | kind (kind : Option NodeKind)
  | commands (infos : List CommandInfo)
  | command (info : Option CommandInfo)
  deriving DecidableEq, Repr

/-- What a running command can ask of the session. -/
inductive Call where
  /-- Open a file, and create it if `create` asks for it. -/
  | openFile (path : String) (create : Bool)
  /-- Read the content of an open file. -/
  | read (handle : Handle)
  /-- Append to an open file. -/
  | write (handle : Handle) (text : String)
  /-- Drop the content of an open file. -/
  | truncate (handle : Handle)
  | close (handle : Handle)
  /-- The open handles of the running process in the order of opening. -/
  | openHandles
  | print (text : String)
  | printLine (text : String)
  | list (path : String)
  | makeDirectory (path : String)
  /-- Change the current directory, without any check of the path. -/
  | setCurrent (path : String)
  | current
  | tree
  /-- The number of the running process. -/
  | process
  /-- The commands submitted so far, the oldest first. -/
  | history
  /-- The registered commands in the order of their names. -/
  | commands
  /-- Note something down in the journal of the session. -/
  | note (outcome : Except Failure Answer)

/-- The type of the reply to a call. -/
@[reducible]
def Call.Reply : Call → Type
  | openFile _ _ => Except Failure Handle
  | read _ => Except Failure String
  | write _ _ => Except Failure Unit
  | truncate _ => Except Failure Unit
  | close _ => Unit
  | openHandles => List Handle
  | print _ => Unit
  | printLine _ => Unit
  | list _ => Except Failure (List Entry)
  | makeDirectory _ => Except Failure Unit
  | setCurrent _ => Unit
  | current => String
  | tree => FileTree
  | process => Nat
  | history => List String
  | commands => List CommandInfo
  | note _ => Unit

end CommandShell
