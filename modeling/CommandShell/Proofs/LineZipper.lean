import CommandShell.Editor
import CommandShell.Lists

/-!
# The edited line as a zipper

The editor works with positions in one line that begins with the prompt.  What it shows is
a zipper: the prompt, the characters in front of the cursor and those behind it, and the
submitted commands with the recalled one.  Every edit, and every other operation on the
editor, does to the zipper what its name says.  No edit touches the prompt, and none of
the positions that the editor computes lies outside of the line or of the history.
-/

namespace CommandShell

namespace Editor

/-- What can be done to an editor from outside. -/
inductive Operation where
  | edit (edit : Edit)
  | pushHistory (command : String)
  | reset (prompt : String)
  deriving DecidableEq, Repr

def perform (editor : Editor) : Operation → Editor
  | .edit edit => editor.apply edit
  | .pushHistory command => editor.pushHistory command
  | .reset prompt => editor.reset prompt

def performAll (editor : Editor) (operations : List Operation) : Editor :=
  operations.foldl perform editor

section CheckedAccess

/-- The line without the prompt, which has to be no longer than the line. -/
def commandChecked (editor : Editor) : Option String :=
  if editor.promptLength ≤ editor.buffer.length then
    some (String.ofList (editor.buffer.drop editor.promptLength))
  else none

/-- The command that lies `position` submissions back, which has to be in the history. -/
def recalledChecked (editor : Editor) (position : Nat) : Option String :=
  if position = 0 then some ""
  else if position ≤ editor.history.length then
    editor.history[editor.history.length - position]?
  else none

def showRecalledChecked (editor : Editor) (position : Nat) : Option Editor :=
  (editor.recalledChecked position).map fun command =>
    let buffer := editor.buffer.take editor.promptLength ++ command.toList
    { editor with buffer, position, cursor := buffer.length }

/-- The line after an edit, with every access by position checked: it stops with `none`
where a character is inserted behind the end of the line, where one is removed that does
not exist, where a command is recalled that is not in the history, and where a line that is
submitted is shorter than its prompt. -/
def applyChecked (editor : Editor) : Edit → Option Editor
  | .insert char =>
      if editor.cursor ≤ editor.buffer.length then some (editor.apply (.insert char)) else none
  | .backspace =>
      let cursor := editor.leftOfCursor
      if cursor < editor.buffer.length then
        (editor.buffer[cursor]?).map fun _ =>
          { editor with cursor, buffer := editor.buffer.eraseIdx cursor }
      else some { editor with cursor }
  | .historyPrevious =>
      editor.showRecalledChecked (min (editor.position + 1) editor.history.length)
  | .historyNext => editor.showRecalledChecked (editor.position - 1)
  | .submit => editor.commandChecked.map fun _ => editor
  | edit => some (editor.apply edit)

theorem recalledChecked_eq {editor : Editor} {position : Nat}
    (known : position ≤ editor.history.length) :
    editor.recalledChecked position = some (editor.recalled position) := by
  rw [recalledChecked, recalled]
  by_cases fresh : position = 0
  · rw [if_pos fresh, if_pos fresh]
  · have mirrored : editor.history.length - 1 - (position - 1) =
        editor.history.length - position := by omega
    have inside : editor.history.length - position < editor.history.length := by omega
    rw [if_neg fresh, if_neg fresh, if_pos known, List.getElem?_reverse (by omega), mirrored,
      List.getElem?_eq_getElem inside, Option.getD_some]

theorem showRecalledChecked_eq {editor : Editor} {position : Nat}
    (known : position ≤ editor.history.length) :
    editor.showRecalledChecked position = some (editor.showRecalled position) := by
  rw [showRecalledChecked, recalledChecked_eq known]
  rfl

end CheckedAccess

end Editor

/-- A line with a cursor, and the submitted commands. -/
structure Zipper where
  prompt : String
  /-- The characters between the prompt and the cursor. -/
  left : List Char
  /-- The characters behind the cursor. -/
  right : List Char
  /-- The submitted commands, the newest first. -/
  past : List String
  /-- How far the recalled command lies back. -/
  position : Nat
  /-- How many commands are kept; zero stands for all. -/
  limit : Nat
  deriving DecidableEq, Repr

namespace Zipper

def new (prompt : String) (limit : Nat) : Zipper where
  prompt := prompt
  left := []
  right := []
  past := []
  position := 0
  limit := limit

/-- Put the command that lies `position` submissions back in the place of the line, or
nothing if the position is zero. -/
def fetch (zipper : Zipper) (position : Nat) : Zipper :=
  let selected :=
    match position with
    | 0 => []
    | earlier + 1 => (zipper.past[earlier]?.getD "").toList
  { zipper with position, left := selected, right := [] }

def apply (zipper : Zipper) : Edit → Zipper
  | .insert char => { zipper with left := zipper.left ++ [char] }
  | .backspace =>
      if zipper.left = [] then { zipper with right := zipper.right.tail }
      else { zipper with left := zipper.left.dropLast }
  | .submit => zipper
  | .historyPrevious => zipper.fetch (min (zipper.position + 1) zipper.past.length)
  | .historyNext => zipper.fetch (zipper.position - 1)
  | .cursorLeft =>
      match zipper.left.getLast? with
      | none => zipper
      | some char =>
          { zipper with left := zipper.left.dropLast, right := char :: zipper.right }
  | .cursorRight =>
      match zipper.right with
      | [] => zipper
      | char :: rest => { zipper with left := zipper.left ++ [char], right := rest }
  | .lineStart => { zipper with left := [], right := zipper.left ++ zipper.right }
  | .lineEnd => { zipper with left := zipper.left ++ zipper.right, right := [] }

def submission? (zipper : Zipper) : Edit → Option Submission
  | .submit =>
      let command := String.ofList (zipper.left ++ zipper.right)
      some { line := zipper.prompt ++ command, command }
  | _ => none

/-- Add a command in front of those before it, and keep as many as the limit allows. -/
def push (zipper : Zipper) (command : String) : Zipper :=
  if command = "" then zipper
  else
    let past := command :: zipper.past
    { zipper with past := if zipper.limit = 0 then past else past.take zipper.limit }

def perform (zipper : Zipper) : Editor.Operation → Zipper
  | .edit edit => zipper.apply edit
  | .pushHistory command => zipper.push command
  | .reset prompt => { zipper with prompt, left := [], right := [], position := 0 }

def performAll (zipper : Zipper) (operations : List Editor.Operation) : Zipper :=
  operations.foldl perform zipper

/-- Whether an editor shows what the zipper holds. -/
structure Shows (zipper : Zipper) (editor : Editor) : Prop where
  prompt : editor.prompt = zipper.prompt
  text : editor.text =
    zipper.prompt ++ String.ofList zipper.left ++ String.ofList zipper.right
  command : editor.command = String.ofList (zipper.left ++ zipper.right)
  cursor : editor.cursor = zipper.prompt.length + zipper.left.length
  history : editor.history = zipper.past.reverse
  position : editor.position = zipper.position

/-- Whether an editor stores what the zipper holds, and the recalled command is one that
has been kept. -/
structure Represents (zipper : Zipper) (editor : Editor) : Prop where
  prompt : editor.prompt = zipper.prompt
  buffer : editor.buffer = zipper.prompt.toList ++ zipper.left ++ zipper.right
  cursor : editor.cursor = zipper.prompt.length + zipper.left.length
  history : editor.history = zipper.past.reverse
  position : editor.position = zipper.position
  limit : editor.limit = zipper.limit
  position_le : zipper.position ≤ zipper.past.length
  length_le : zipper.limit ≠ 0 → zipper.past.length ≤ zipper.limit

namespace Represents

variable {zipper : Zipper} {editor : Editor}

theorem new (prompt : String) (limit : Nat) :
    (Zipper.new prompt limit).Represents (Editor.new prompt limit) where
  prompt := rfl
  buffer := by simp [Editor.new, Editor.reset, Zipper.new]
  cursor := rfl
  history := rfl
  position := rfl
  limit := rfl
  position_le := Nat.le_refl _
  length_le := fun _ => Nat.zero_le _

theorem promptLength_eq (represents : zipper.Represents editor) :
    editor.promptLength = zipper.prompt.toList.length := by
  rw [Editor.promptLength, represents.prompt, String.length_toList]

theorem length_buffer (represents : zipper.Represents editor) :
    editor.buffer.length =
      editor.promptLength + zipper.left.length + zipper.right.length := by
  simp [represents.buffer, represents.promptLength_eq, Nat.add_assoc]

theorem cursor_eq (represents : zipper.Represents editor) :
    editor.cursor = (zipper.prompt.toList ++ zipper.left).length := by
  rw [represents.cursor, List.length_append, String.length_toList]

theorem shows (represents : zipper.Represents editor) : zipper.Shows editor where
  prompt := represents.prompt
  text := by simp [Editor.text, represents.buffer, String.ofList_append, String.append_assoc]
  command := by
    rw [Editor.command, represents.promptLength_eq, represents.buffer, List.append_assoc,
      List.drop_append_length]
  cursor := represents.cursor
  history := represents.history
  position := represents.position

/-- The editor represents a zipper with another line as soon as its characters and its
cursor do. -/
theorem withLine (represents : zipper.Represents editor) {left right buffer : List Char}
    {cursor : Nat} (line : buffer = zipper.prompt.toList ++ left ++ right)
    (place : cursor = zipper.prompt.length + left.length) :
    { zipper with left, right }.Represents { editor with buffer, cursor } :=
  { represents with buffer := line, cursor := place }

/-- One place further left, but not in the prompt, is the place in front of the last
character before the cursor. -/
theorem leftOfCursor_eq (represents : zipper.Represents editor) :
    editor.leftOfCursor = (zipper.prompt.toList ++ zipper.left.dropLast).length := by
  simp only [Editor.leftOfCursor, Editor.promptLength, represents.prompt, represents.cursor,
    List.length_append, List.length_dropLast, String.length_toList]
  omega

theorem insert (represents : zipper.Represents editor) (char : Char) :
    (zipper.apply (.insert char)).Represents (editor.apply (.insert char)) := by
  apply represents.withLine
  · rw [represents.buffer, represents.cursor_eq, List.insertIdx_length_append]
    simp
  · rw [represents.cursor, List.length_append, List.length_singleton, Nat.add_assoc]

theorem length_prompt_append (zipper : Zipper) (before : List Char) :
    (zipper.prompt.toList ++ before).length = zipper.prompt.length + before.length := by
  rw [List.length_append, String.length_toList]

/-- The line, cut in front of the last character before the cursor. -/
theorem buffer_of_getLast? (represents : zipper.Represents editor) {char : Char}
    (last : zipper.left.getLast? = some char) :
    editor.buffer =
      (zipper.prompt.toList ++ zipper.left.dropLast) ++ (char :: zipper.right) := by
  obtain ⟨before, split⟩ := List.getLast?_eq_some_iff.mp last
  rw [represents.buffer, split, List.dropLast_concat]
  simp

theorem backspace (represents : zipper.Represents editor) :
    (zipper.apply .backspace).Represents (editor.apply .backspace) := by
  have place := represents.leftOfCursor_eq
  by_cases none : zipper.left = []
  · -- At the prompt the character behind the cursor goes.
    rw [none, List.dropLast_nil] at place
    rw [Zipper.apply, if_pos none]
    refine represents.withLine ?_ ?_
    · rw [place, represents.buffer, none, List.eraseIdx_length_append]
    · rw [place, length_prompt_append, none]
  · have line := represents.buffer_of_getLast? (List.getLast?_eq_some_getLast none)
    rw [Zipper.apply, if_neg none]
    refine represents.withLine ?_ ?_
    · rw [place, line, List.eraseIdx_length_append]
      rfl
    · rw [place, length_prompt_append]

theorem cursorLeft (represents : zipper.Represents editor) :
    (zipper.apply .cursorLeft).Represents (editor.apply .cursorLeft) := by
  have place := represents.leftOfCursor_eq
  rw [Zipper.apply]
  cases last : zipper.left.getLast? with
  | none =>
      rw [List.getLast?_eq_none_iff] at last
      refine represents.withLine represents.buffer ?_
      rw [place, length_prompt_append, last, List.dropLast_nil]
  | some char =>
      refine represents.withLine (represents.buffer_of_getLast? last) ?_
      rw [place, length_prompt_append]

theorem cursorRight (represents : zipper.Represents editor) :
    (zipper.apply .cursorRight).Represents (editor.apply .cursorRight) := by
  have size := represents.length_buffer
  have place := represents.cursor
  rw [Editor.promptLength, represents.prompt] at size
  rw [Zipper.apply]
  cases behind : zipper.right with
  | nil =>
      refine represents.withLine represents.buffer ?_
      rw [behind, List.length_nil] at size
      omega
  | cons char rest =>
      refine represents.withLine ?_ ?_
      · rw [represents.buffer, behind]
        simp
      · rw [behind, List.length_cons] at size
        rw [List.length_append, List.length_singleton]
        omega

theorem lineStart (represents : zipper.Represents editor) :
    (zipper.apply .lineStart).Represents (editor.apply .lineStart) := by
  refine represents.withLine ?_ ?_
  · rw [represents.buffer]
    simp
  · rw [represents.promptLength_eq, String.length_toList]
    rfl

theorem lineEnd (represents : zipper.Represents editor) :
    (zipper.apply .lineEnd).Represents (editor.apply .lineEnd) := by
  refine represents.withLine ?_ ?_
  · rw [represents.buffer]
    simp
  · rw [represents.buffer, List.append_assoc, length_prompt_append]

/-- The command that a position recalls is the one at that place among the newest. -/
theorem recalled_eq (represents : zipper.Represents editor) (position : Nat) :
    (editor.recalled position).toList = (zipper.fetch position).left := by
  rw [Editor.recalled, represents.history, List.reverse_reverse]
  cases position with
  | zero => rfl
  | succ earlier => rfl

theorem fetch (represents : zipper.Represents editor) {position : Nat}
    (known : position ≤ zipper.past.length) :
    (zipper.fetch position).Represents (editor.showRecalled position) := by
  have start : editor.buffer.take editor.promptLength = zipper.prompt.toList := by
    rw [represents.promptLength_eq, represents.buffer, List.append_assoc]
    exact List.take_left' rfl
  have line : (editor.showRecalled position).buffer =
      zipper.prompt.toList ++ (zipper.fetch position).left := by
    rw [← represents.recalled_eq, ← start]
    rfl
  exact
    { represents with
      buffer := line.trans (List.append_nil _).symm
      cursor := (congrArg List.length line).trans (length_prompt_append _ _)
      position := rfl
      position_le := known }

theorem apply (represents : zipper.Represents editor) (edit : Edit) :
    (zipper.apply edit).Represents (editor.apply edit) := by
  cases edit with
  | insert char => exact represents.insert char
  | backspace => exact represents.backspace
  | submit => exact represents
  | historyPrevious =>
      have size : editor.history.length = zipper.past.length := by
        rw [represents.history, List.length_reverse]
      rw [Editor.apply, represents.position, size]
      exact represents.fetch (Nat.min_le_right _ _)
  | historyNext =>
      have known := represents.position_le
      rw [Editor.apply, represents.position]
      exact represents.fetch (by omega)
  | cursorLeft => exact represents.cursorLeft
  | cursorRight => exact represents.cursorRight
  | lineStart => exact represents.lineStart
  | lineEnd => exact represents.lineEnd

/-- What is kept of the history is the same from its oldest end and from its newest. -/
theorem drop_history (represents : zipper.Represents editor) (command : String) :
    let extended := editor.history ++ [command]
    let excess := if editor.limit = 0 then 0 else extended.length - editor.limit
    let past := command :: zipper.past
    extended.drop excess =
      (if zipper.limit = 0 then past else past.take zipper.limit).reverse := by
  have extended : editor.history ++ [command] = (command :: zipper.past).reverse := by
    rw [represents.history, List.reverse_cons]
  dsimp only
  rw [extended, represents.limit, List.length_reverse]
  split
  · rw [List.drop_zero]
  · rw [List.reverse_take]

theorem push (represents : zipper.Represents editor) (command : String) :
    (zipper.push command).Represents (editor.pushHistory command) := by
  rw [Zipper.push, Editor.pushHistory]
  split
  · exact represents
  have known := represents.position_le
  have within := represents.length_le
  refine
    { represents with
      history := represents.drop_history command
      position_le := ?_
      length_le := fun limited => ?_ }
  · show zipper.position ≤ List.length (if zipper.limit = 0 then _ else _)
    split
    · exact Nat.le_succ_of_le known
    next limited =>
      have := within limited
      rw [List.length_take, List.length_cons]
      omega
  · show List.length (if zipper.limit = 0 then _ else _) ≤ zipper.limit
    rw [if_neg limited, List.length_take]
    exact Nat.min_le_left _ _

theorem reset (represents : zipper.Represents editor) (prompt : String) :
    (zipper.perform (.reset prompt)).Represents (editor.reset prompt) :=
  { represents with
    prompt := rfl
    buffer := by simp [Editor.reset, Zipper.perform]
    cursor := rfl
    position := rfl
    position_le := Nat.zero_le _ }

theorem perform (represents : zipper.Represents editor) (operation : Editor.Operation) :
    (zipper.perform operation).Represents (editor.perform operation) := by
  cases operation with
  | edit edit => exact represents.apply edit
  | pushHistory command => exact represents.push command
  | reset prompt => exact represents.reset prompt

theorem performAll (represents : zipper.Represents editor)
    (operations : List Editor.Operation) :
    (zipper.performAll operations).Represents (editor.performAll operations) := by
  induction operations generalizing zipper editor with
  | nil => exact represents
  | cons operation rest ih => exact ih (represents.perform operation)

theorem submission?_eq (represents : zipper.Represents editor) (edit : Edit) :
    editor.submission? edit = zipper.submission? edit := by
  cases edit with
  | submit =>
      have shown := represents.shows
      rw [Editor.submission?, Zipper.submission?, shown.text, shown.command,
        String.append_assoc, String.ofList_append]
  | _ => rfl

section CheckedAccess

theorem commandChecked_eq (represents : zipper.Represents editor) :
    editor.commandChecked = some editor.command := by
  have size := represents.length_buffer
  exact if_pos (by omega)

theorem applyChecked_eq (represents : zipper.Represents editor) (edit : Edit) :
    editor.applyChecked edit = some (editor.apply edit) := by
  have size := represents.length_buffer
  have place := represents.cursor
  have start : editor.promptLength = zipper.prompt.length := by
    rw [represents.promptLength_eq, String.length_toList]
  cases edit with
  | insert char => exact if_pos (by omega)
  | backspace =>
      unfold Editor.applyChecked Editor.apply
      dsimp only
      split
      next inside => rw [List.getElem?_eq_getElem inside, Option.map_some]
      next outside => rw [List.eraseIdx_of_length_le (Nat.le_of_not_lt outside)]
  | submit =>
      unfold Editor.applyChecked
      dsimp only
      rw [represents.commandChecked_eq]
      rfl
  | historyPrevious => exact Editor.showRecalledChecked_eq (Nat.min_le_right _ _)
  | historyNext =>
      refine Editor.showRecalledChecked_eq ?_
      have known := represents.position_le
      rw [represents.history, represents.position, List.length_reverse]
      omega
  | cursorLeft | cursorRight | lineStart | lineEnd => rfl

end CheckedAccess

end Represents

/-- The editor is a zipper.  After any edits, pushes and resets it shows what the zipper
holds after them, every edit submits what the zipper submits, and neither an edit nor the
command reaches outside of the line and the history. -/
theorem editor_refines_zipper (prompt : String) (limit : Nat)
    (operations : List Editor.Operation) :
    let editor := (Editor.new prompt limit).performAll operations
    let zipper := (Zipper.new prompt limit).performAll operations
    zipper.Shows editor ∧
      (∀ edit, editor.submission? edit = zipper.submission? edit) ∧
      (∀ edit, editor.applyChecked edit = some (editor.apply edit)) ∧
      editor.commandChecked = some editor.command := by
  have represents := (Represents.new prompt limit).performAll operations
  exact ⟨represents.shows, represents.submission?_eq, represents.applyChecked_eq,
    represents.commandChecked_eq⟩

end Zipper

end CommandShell
