import CommandShell.Proofs.LineZipper

/-!
# Walks through the history

The position in the history counts from the newest command, while commands are added at the
newest end and dropped at the oldest.  It stays within the history all the same, whatever is
pushed between two steps of a walk.  A walk shows the commands that it passes and changes none
of them: the history holds what was pushed last, as if nobody had walked or edited.
-/

namespace CommandShell

/-- Whether the edit is a step through the history. -/
def Edit.Walks (edit : Edit) : Prop :=
  edit = .historyPrevious ∨ edit = .historyNext

namespace Editor

/-- The commands that operations add to a history, the oldest first. -/
def pushed (operations : List Operation) : List String :=
  operations.filterMap fun operation =>
    match operation with
    | .pushHistory command => if command = "" then none else some command
    | _ => none

/-- The last of some commands, as many as the limit allows. -/
def newest (limit : Nat) (commands : List String) : List String :=
  if limit = 0 then commands else commands.drop (commands.length - limit)

section History

variable {editor : Editor} {commands : List String}

theorem pushed_cons (operation : Operation) (rest : List Operation) :
    pushed (operation :: rest) = pushed [operation] ++ pushed rest := by
  simp only [pushed, ← List.filterMap_append, List.singleton_append]

/-- What was dropped once is not among the newest later on. -/
theorem newest_append (limit : Nat) (front back : List String) :
    newest limit (newest limit front ++ back) = newest limit (front ++ back) := by
  unfold newest
  split
  · rfl
  · have within : front.length - limit ≤ front.length := Nat.sub_le _ _
    rw [← List.drop_append_of_le_length within, List.drop_drop]
    congr 1
    simp only [List.length_drop, List.length_append]
    omega

theorem history_apply (editor : Editor) (edit : Edit) :
    (editor.apply edit).history = editor.history := by
  cases edit <;> rfl

theorem history_pushHistory (editor : Editor) {command : String} (nonempty : command ≠ "") :
    (editor.pushHistory command).history = newest editor.limit (editor.history ++ [command]) := by
  by_cases unlimited : editor.limit = 0 <;> simp [pushHistory, newest, nonempty, unlimited]

theorem limit_perform (editor : Editor) (operation : Operation) :
    (editor.perform operation).limit = editor.limit := by
  cases operation with
  | edit edit => cases edit <;> rfl
  | pushHistory command =>
      simp only [perform, pushHistory]
      split <;> rfl
  | reset prompt => rfl

theorem history_perform (kept : editor.history = newest editor.limit commands)
    (operation : Operation) :
    (editor.perform operation).history =
      newest editor.limit (commands ++ pushed [operation]) := by
  cases operation with
  | edit edit => simpa [perform, pushed, history_apply] using kept
  | pushHistory command =>
      by_cases empty : command = ""
      · simpa [perform, pushHistory, pushed, empty] using kept
      · rw [perform, history_pushHistory editor empty, kept, newest_append]
        simp [pushed, empty]
  | reset prompt => simpa [perform, reset, pushed] using kept

theorem history_performAll (kept : editor.history = newest editor.limit commands)
    (operations : List Operation) :
    (editor.performAll operations).history =
      newest editor.limit (commands ++ pushed operations) := by
  induction operations generalizing editor commands with
  | nil => simpa [performAll, pushed] using kept
  | cons operation rest ih =>
      have next := history_perform kept operation
      rw [← limit_perform editor operation] at next
      rw [pushed_cons, ← List.append_assoc, ← limit_perform editor operation]
      exact ih next

end History

/-- Whether the line is the command that the position recalls, with the cursor behind it. -/
structure ShowsRecalled (editor : Editor) : Prop where
  of_none : editor.position = 0 → editor.command = ""
  of_some : editor.position ≠ 0 →
    editor.history[editor.history.length - editor.position]? = some editor.command
  cursor : editor.cursor = editor.text.length

theorem command_showRecalled {editor : Editor} (position : Nat)
    (covered : editor.promptLength ≤ editor.buffer.length) :
    (editor.showRecalled position).command = editor.recalled position := by
  have start : (editor.buffer.take editor.promptLength).length = editor.promptLength :=
    List.length_take_of_le covered
  have behind : (editor.showRecalled position).buffer.drop editor.promptLength =
      (editor.recalled position).toList := List.drop_left' start
  rw [command]
  exact (congrArg String.ofList behind).trans String.ofList_toList

theorem showsRecalled_showRecalled {editor : Editor} {position : Nat}
    (covered : editor.promptLength ≤ editor.buffer.length)
    (known : position ≤ editor.history.length) :
    (editor.showRecalled position).ShowsRecalled where
  of_none fresh := by
    have fresh : position = 0 := fresh
    rw [command_showRecalled position covered, recalled, if_pos fresh]
  of_some given := by
    have given : position ≠ 0 := given
    have found := recalledChecked_eq known
    rw [recalledChecked, if_neg given, if_pos known] at found
    rw [command_showRecalled position covered]
    exact found
  cursor := String.length_ofList.symm

/-- What becomes of the position and of the history from one operation to the next. -/
structure WalksInHistory (editor : Editor) : Prop where
  position_le : editor.position ≤ editor.history.length
  previous : (editor.apply .historyPrevious).position =
    min (editor.position + 1) editor.history.length
  next : (editor.apply .historyNext).position = editor.position - 1
  stays : ∀ edit, ¬ edit.Walks → (editor.apply edit).position = editor.position
  push : ∀ command, (editor.pushHistory command).position = editor.position
  reset : ∀ prompt, (editor.reset prompt).position = 0
  shows : ∀ edit, edit.Walks → (editor.apply edit).ShowsRecalled
  history : ∀ edit, (editor.apply edit).history = editor.history
  /-- Every position that an edit computes lies within the line and the history. -/
  checked : ∀ edit, editor.applyChecked edit = some (editor.apply edit)

theorem position_pushHistory (editor : Editor) (command : String) :
    (editor.pushHistory command).position = editor.position := by
  unfold pushHistory
  split <;> rfl

theorem position_apply_of_not_walks (editor : Editor) {edit : Edit} (other : ¬ edit.Walks) :
    (editor.apply edit).position = editor.position := by
  cases edit with
  | historyPrevious => exact absurd (.inl rfl) other
  | historyNext => exact absurd (.inr rfl) other
  | _ => rfl

end Editor

theorem Zipper.Represents.walksInHistory {zipper : Zipper} {editor : Editor}
    (represents : zipper.Represents editor) : editor.WalksInHistory := by
  have known : editor.position ≤ editor.history.length := by
    rw [represents.position, represents.history, List.length_reverse]
    exact represents.position_le
  have covered : editor.promptLength ≤ editor.buffer.length := by
    have size := represents.length_buffer
    omega
  exact
    { position_le := known
      previous := rfl
      next := rfl
      stays := fun _ => editor.position_apply_of_not_walks
      push := editor.position_pushHistory
      reset := fun _ => rfl
      shows := by
        rintro edit (rfl | rfl)
        · exact Editor.showsRecalled_showRecalled covered (Nat.min_le_right _ _)
        · exact Editor.showsRecalled_showRecalled covered (by omega)
      history := editor.history_apply
      checked := represents.applyChecked_eq }

namespace Editor

/-- History navigation is a walk that is clamped to the history and leaves it alone.  After any
edits, pushes and resets the position is one of the history, each step moves it by one as far
as the history goes and shows the command it arrives at, and the history is what was pushed
last, whatever was shown and edited in between. -/
theorem history_navigation_is_clamped_walk (prompt : String) (limit : Nat)
    (operations : List Operation) :
    let editor := (Editor.new prompt limit).performAll operations
    editor.WalksInHistory ∧ editor.history = newest limit (pushed operations) := by
  intro editor
  have represents := (Zipper.Represents.new prompt limit).performAll operations
  have fresh : (Editor.new prompt limit).history = newest limit [] := by
    simp [newest, Editor.new, Editor.reset]
  exact ⟨represents.walksInHistory, history_performAll fresh operations⟩

-- A push leaves the shown command in the line, and the next step counts from the new end.
example :
    let editor := (Editor.new "$ " 2).performAll
      [.pushHistory "ls", .pushHistory "pwd", .edit .historyPrevious, .edit .historyPrevious,
        .pushHistory "cat"]
    (editor.command, editor.history, editor.position) = ("ls", ["pwd", "cat"], 2) ∧
      (editor.apply .historyNext).command = "cat" := by
  decide +kernel

end Editor

end CommandShell
