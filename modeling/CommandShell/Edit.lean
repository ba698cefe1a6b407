import CommandShell.Json

/-!
# Edits

An edit is one change of the input line or one request about it.  Keyboards
report keys by name; `Edit.ofKey` says which edit a key stands for.  In JSON an
edit is written as its name, and the insertion of a character as an object with
the character under its name.
-/

namespace CommandShell

/-- One action on the input line. -/
inductive Edit where
  | insert (char : Char)
  | backspace
  | submit
  | historyPrevious
  | historyNext
  | cursorLeft
  | cursorRight
  | lineStart
  | lineEnd
  deriving DecidableEq, Repr

namespace Edit

/-- Whether the character has the general category of control characters. -/
def isControl (char : Char) : Bool :=
  char.val < 0x20 || (0x7f ≤ char.val && char.val < 0xa0)

/-- The edit that a key stands for, if it stands for one.  With a modifier held
the horizontal arrows jump to the ends of the line. -/
def ofKey (key : String) (modifier : Bool) : Option Edit :=
  match key with
  | "Enter" => some submit
  | "Backspace" => some backspace
  | "ArrowUp" => some historyPrevious
  | "ArrowDown" => some historyNext
  | "ArrowLeft" => some (if modifier then lineStart else cursorLeft)
  | "ArrowRight" => some (if modifier then lineEnd else cursorRight)
  | _ =>
      match key.toList with
      | [char] => if isControl char then none else some (insert char)
      | _ => none

/-- The written name of an edit. -/
def name : Edit → String
  | insert _ => "Insert"
  | backspace => "Backspace"
  | submit => "Submit"
  | historyPrevious => "HistoryPrev"
  | historyNext => "HistoryNext"
  | cursorLeft => "CursorLeft"
  | cursorRight => "CursorRight"
  | lineStart => "LineStart"
  | lineEnd => "LineEnd"

/-- The edits whose name says everything about them. -/
def plain : List Edit :=
  [backspace, submit, historyPrevious, historyNext, cursorLeft, cursorRight, lineStart, lineEnd]

/-- The plain edit with a name. -/
def ofName (text : String) : Option Edit :=
  plain.find? fun edit => edit.name = text

/-- The edit that a JSON value writes down. -/
def ofJson : Json → Option Edit
  | .string text => ofName text
  | .object [(text, .null)] => ofName text
  | .object [("Insert", .string inserted)] =>
      match inserted.toList with
      | [char] => some (insert char)
      | _ => none
  | _ => none

end Edit

end CommandShell
