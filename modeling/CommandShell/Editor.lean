import CommandShell.Edit

/-!
# The line editor

The editor holds one line of characters.  The line begins with the prompt, which
is never edited: the cursor stays behind it, and no edit removes a character in
front of the cursor's leftmost place.  Submitted commands are kept as a history
that can be recalled into the line, the newest first.
-/

namespace CommandShell

/-- A line being edited, and the commands submitted before. -/
structure Editor where
  prompt : String
  /-- The whole line, the prompt included. -/
  buffer : List Char
  /-- The number of characters in front of the cursor. -/
  cursor : Nat
  /-- The submitted commands, the oldest first. -/
  history : List String
  /-- How far the recalled command lies back; zero stands for no recalled
  command. -/
  position : Nat
  /-- How many commands the history keeps; zero stands for all. -/
  limit : Nat
  deriving DecidableEq, Repr

/-- A submitted line, with the prompt and without it. -/
structure Submission where
  line : String
  command : String
  deriving DecidableEq, Repr

namespace Editor

/-- The number of characters of the prompt. -/
def promptLength (editor : Editor) : Nat :=
  editor.prompt.length

/-- The whole line, the prompt included. -/
def text (editor : Editor) : String :=
  String.ofList editor.buffer

/-- The line without the prompt. -/
def command (editor : Editor) : String :=
  String.ofList (editor.buffer.drop editor.promptLength)

/-- Begin a new line with a prompt of its own.  The history stays. -/
def reset (editor : Editor) (prompt : String) : Editor :=
  { editor with
    prompt := prompt
    buffer := prompt.toList
    cursor := prompt.length
    position := 0 }

/-- The editor that shows the prompt and has no history yet. -/
def new (prompt : String) (limit : Nat) : Editor :=
  reset { prompt := "", buffer := [], cursor := 0, history := [], position := 0, limit } prompt

/-- Add a command to the history, and drop the oldest ones beyond the limit.
The empty command is not kept. -/
def pushHistory (editor : Editor) (command : String) : Editor :=
  if command = "" then editor
  else
    let extended := editor.history ++ [command]
    let excess := if editor.limit = 0 then 0 else extended.length - editor.limit
    { editor with history := extended.drop excess }

/-- The command that lies `position` submissions back. -/
def recalled (editor : Editor) (position : Nat) : String :=
  if position = 0 then ""
  else editor.history.reverse[position - 1]?.getD ""

/-- Replace the command in the line by the one that lies `position` submissions
back. -/
def showRecalled (editor : Editor) (position : Nat) : Editor :=
  let buffer := editor.buffer.take editor.promptLength ++ (editor.recalled position).toList
  { editor with buffer, position, cursor := buffer.length }

/-- The cursor one place further left, but not in the prompt. -/
def leftOfCursor (editor : Editor) : Nat :=
  max (editor.cursor - 1) editor.promptLength

/-- The line after an edit.  A submission changes nothing by itself. -/
def apply (editor : Editor) : Edit → Editor
  | .insert char =>
      { editor with
        buffer := editor.buffer.insertIdx editor.cursor char
        cursor := editor.cursor + 1 }
  | .backspace =>
      { editor with
        buffer := editor.buffer.eraseIdx editor.leftOfCursor
        cursor := editor.leftOfCursor }
  | .submit => editor
  | .historyPrevious => editor.showRecalled (min (editor.position + 1) editor.history.length)
  | .historyNext => editor.showRecalled (editor.position - 1)
  | .cursorLeft => { editor with cursor := editor.leftOfCursor }
  | .cursorRight => { editor with cursor := min (editor.cursor + 1) editor.buffer.length }
  | .lineStart => { editor with cursor := editor.promptLength }
  | .lineEnd => { editor with cursor := editor.buffer.length }

/-- What the edit submits, if it is a submission. -/
def submission? (editor : Editor) : Edit → Option Submission
  | .submit => some { line := editor.text, command := editor.command }
  | _ => none

end Editor

end CommandShell
