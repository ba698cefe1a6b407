import CommandShell.Proofs.LineZipper
import CommandShell.Proofs.Prompts

/-!
# Submitted lines

A line reaches its command in two ways: it is run directly, or it is typed, echoed,
remembered and submitted.  What a command finds and does depends neither on the line in the
editor nor on what stands on the output, and all that it tells is text at the end of the
output, perhaps after a clearing.  So both ways come to the same, and the outputs differ by
the echo and by the report of a failure only.
-/

namespace CommandShell

namespace Output

/-- Write a text, after a clearing if there is to be one. -/
def tell (output : Output) (cleared : Bool) (text : String) : Output :=
  (if cleared then output.clear else output).write text

theorem write_empty (output : Output) : output.write "" = output := by
  rw [write, String.append_empty]

theorem write_write (output : Output) (first second : String) :
    (output.write first).write second = output.write (first ++ second) := by
  rw [write, write, write, String.append_assoc]

theorem tell_nothing (output : Output) : output.tell false "" = output :=
  output.write_empty

/-- What is written before a clearing is lost, and the rest adds up. -/
theorem tell_write (output : Output) (cleared : Bool) (first second : String) :
    (output.write first).tell cleared second =
      output.tell cleared (if cleared then second else first ++ second) := by
  cases cleared with
  | false => exact output.write_write first second
  | true => rfl

end Output

theorem Farewell.write_eq_tell (farewell : Farewell) :
    ∃ told, ∀ output, farewell.write output = output.tell farewell.clears told := by
  unfold Farewell.write Output.tell
  cases farewell.endsLine with
  | false => exact ⟨farewell.text, fun output => rfl⟩
  | true => exact ⟨farewell.text ++ "\n", fun output => rfl⟩

theorem Response.change_eq_tell (response : Response) (farewell : Option Farewell) :
    ∃ cleared told, ∀ output, response.change farewell output = output.tell cleared told := by
  cases response with
  | text text => exact ⟨false, text ++ "\n", fun output => rfl⟩
  | silent => exact ⟨false, "", fun output => output.tell_nothing.symm⟩
  | clear => exact ⟨true, "", fun output => rfl⟩
  | exit =>
      cases farewell with
      | none => exact ⟨false, "", fun output => output.tell_nothing.symm⟩
      | some said =>
          obtain ⟨told, written⟩ := said.write_eq_tell
          exact ⟨said.clears, told, written⟩

/-- The text that a call writes to the output. -/
def Call.printed : Call → String
  | print text => text
  | printLine text => text ++ "\n"
  | _ => ""

namespace Workspace

/-- The step: a call does the same whatever stands on the output, and adds its text. -/
theorem perform_withOutput (workspace : Workspace) (output : Output)
    (surroundings : Surroundings) (request : Call) :
    { workspace with output }.perform surroundings request =
      ((workspace.perform surroundings request).1,
        { (workspace.perform surroundings request).2 with
          output := output.write request.printed }) := by
  cases request with
  | openFile path create =>
      simp only [perform, openFile, Call.printed, Output.write_empty]
      rcases workspace.tree.openFile workspace.current path create with ⟨failure | node, tree⟩
      · rfl
      · rfl
  | write handle text =>
      simp only [perform, write, Call.printed, Output.write_empty]
      rcases workspace.handles.node handle with failure | node
      · rfl
      · dsimp only
        cases workspace.tree.content? node with
        | none => rfl
        | some content => rfl
  | truncate handle =>
      simp only [perform, truncate, Call.printed, Output.write_empty]
      rcases workspace.handles.node handle with failure | node
      · rfl
      · rfl
  | makeDirectory path =>
      simp only [perform, makeDirectory_eq, Call.printed, Output.write_empty]
  | print text | printLine text => rfl
  | read | close | openHandles | list | setCurrent | current | tree | process | history
  | commands | note =>
      simp only [Call.printed, Output.write_empty]
      rfl

/-- The run: a routine ends in one way whatever stands on the output, and adds one text. -/
theorem exists_run_withOutput {α : Type} (surroundings : Surroundings) (routine : Routine α)
    (workspace : Workspace) :
    ∃ printed, ∀ output, run surroundings routine { workspace with output } =
      ((run surroundings routine workspace).1,
        { (run surroundings routine workspace).2 with output := output.write printed }) := by
  induction routine generalizing workspace with
  | done value | fail failure | panic message =>
      refine ⟨"", fun output => ?_⟩
      rw [Output.write_empty]
      rfl
  | call request next ih =>
      obtain ⟨printed, rest⟩ := ih (workspace.perform surroundings request).1
        (workspace.perform surroundings request).2
      refine ⟨request.printed ++ printed, fun output => ?_⟩
      have here := rest (output.write request.printed)
      rw [Output.write_write] at here
      rw [run, perform_withOutput]
      exact here

theorem reclaim_withOutput (workspace : Workspace) (output : Output) (process : ProcessId) :
    { workspace with output }.reclaim process = { workspace.reclaim process with output } := by
  unfold reclaim Processes.finish
  cases workspace.processes.get? process with
  | none => rfl
  | some record => rfl

theorem exists_invoke_withOutput {α : Type} (workspace : Workspace) (history : List String)
    (commands : List CommandInfo) (routine : Routine α) :
    ∃ printed, ∀ output, { workspace with output }.invoke history commands routine =
      ((workspace.invoke history commands routine).1,
        { (workspace.invoke history commands routine).2 with
          output := output.write printed }) := by
  obtain ⟨printed, ran⟩ := exists_run_withOutput
    { process := workspace.processes.start.1, history, commands } routine
    { workspace with processes := workspace.processes.start.2 }
  refine ⟨printed, fun output => ?_⟩
  have here := ran output
  simp only [invoke] at here ⊢
  rw [here, reclaim_withOutput]

end Workspace

namespace Editor

/-- The editor with a command in its line, and the cursor behind it. -/
def withCommand (editor : Editor) (command : String) : Editor :=
  { editor with
    buffer := editor.prompt.toList ++ command.toList
    cursor := (editor.prompt.toList ++ command.toList).length }

theorem apply_insert_withCommand (editor : Editor) (command : String) (char : Char) :
    (editor.withCommand command).apply (.insert char) =
      editor.withCommand (command ++ String.singleton char) := by
  rw [apply, withCommand, List.insertIdx_length_self]
  simp [withCommand, Nat.add_assoc]

/-- Typing appends to the command. -/
theorem foldl_insert_withCommand (editor : Editor) (command : String) (chars : List Char) :
    (chars.map Edit.insert).foldl apply (editor.withCommand command) =
      editor.withCommand (command ++ String.ofList chars) := by
  induction chars generalizing command with
  | nil => exact congrArg editor.withCommand String.append_empty.symm
  | cons char rest ih =>
      rw [List.map_cons, List.foldl_cons, apply_insert_withCommand, ih, String.append_assoc,
        String.ofList_cons]

theorem submission?_withCommand (editor : Editor) (command : String) :
    (editor.withCommand command).submission? .submit =
      some { line := editor.prompt ++ command, command } := by
  have behind : (editor.withCommand command).command = command := by
    rw [Editor.command, withCommand, promptLength, ← String.length_toList,
      List.drop_append_length, String.ofList_toList]
  rw [submission?, behind, Editor.text, withCommand, ← String.toList_append, String.ofList_toList]

theorem pushHistory_withCommand (editor : Editor) (shown command : String) :
    (editor.withCommand shown).pushHistory command =
      (editor.pushHistory command).withCommand shown := by
  unfold pushHistory
  split <;> rfl

theorem history_pushHistory_withCommand (editor : Editor) (shown command : String) :
    ((editor.withCommand shown).pushHistory command).history =
      (editor.pushHistory command).history := by
  rw [pushHistory_withCommand]
  rfl

end Editor

/-- A line without a command is the prompt, and the cursor stands behind it. -/
theorem Zipper.Represents.withCommand_empty {zipper : Zipper} {editor : Editor}
    (represents : zipper.Represents editor) (blank : editor.command = "") :
    editor.withCommand "" = editor := by
  have nothing : zipper.left ++ zipper.right = [] := by
    have shown := represents.shows.command
    rw [blank] at shown
    exact String.ofList_eq_empty_iff.mp shown.symm
  obtain ⟨noLeft, noRight⟩ := List.append_eq_nil_iff.mp nothing
  have line : editor.prompt.toList ++ "".toList = editor.buffer := by
    rw [represents.buffer, represents.prompt, noLeft, noRight]
    simp
  have place : editor.buffer.length = editor.cursor := by
    rw [represents.length_buffer, represents.cursor, Editor.promptLength, represents.prompt,
      noRight]
    rfl
  rw [Editor.withCommand, line, place]

namespace Session

theorem exists_invoke_showing {α : Type} (session : Session) (routine : Routine α) :
    ∃ printed, ∀ editor output, editor.history = session.editor.history →
      (session.showing editor output).invoke routine =
        ((session.invoke routine).1,
          (session.invoke routine).2.showing editor (output.write printed)) := by
  obtain ⟨printed, invoked⟩ := session.workspace.exists_invoke_withOutput session.editor.history
    session.registry.infos routine
  refine ⟨printed, fun editor output known => ?_⟩
  have here := invoked output
  simp only [invoke, showing, known, here]

/-- Whether an action ends in one way whatever is shown, and tells one thing then.  It clears
the output only if it is done. -/
structure Tells (session : Session) (action : Session → Outcome Unit × Session)
    (cleared : Bool) (told : String) : Prop where
  showing : ∀ editor output, editor.history = session.editor.history →
    action (session.showing editor output) =
      ((action session).1, (action session).2.showing editor (output.tell cleared told))
  keeps : (action session).1 ≠ .done () → cleared = false

variable {session : Session}

theorem tells_nothing (session : Session) (outcome : Outcome Unit) :
    session.Tells (fun session => (outcome, session)) false "" := by
  refine ⟨fun editor output _ => ?_, fun _ => rfl⟩
  rw [Output.tell_nothing]

theorem exists_tells_settle (session : Session) (outcome : Outcome Response) :
    ∃ cleared told, session.Tells (·.settle outcome) cleared told := by
  rcases settle_cases outcome with ⟨response, settled⟩ | ⟨ended, -, settled⟩
  · obtain ⟨cleared, told, changed⟩ := response.change_eq_tell session.farewell
    simp only [settled]
    refine ⟨cleared, told, fun editor output _ => ?_, fun undone => absurd rfl undone⟩
    rw [respond_eq, respond_eq, ← changed]
    rfl
  · simp only [settled]
    exact ⟨false, "", session.tells_nothing ended⟩

theorem exists_tells_execute (session : Session) (name : String) (arguments : List String) :
    ∃ cleared told, session.Tells (·.execute name arguments) cleared told := by
  cases found : session.registry.find? name with
  | none =>
      refine ⟨false, (Failure.commandNotFound name).message ++ "\n", ?_, fun _ => rfl⟩
      intro editor output _
      have same : (session.showing editor output).registry.find? name = none := found
      rw [execute_of_not_found found, execute_of_not_found same]
      rfl
  | some command =>
      obtain ⟨printed, invoked⟩ := session.exists_invoke_showing (command.body arguments)
      obtain ⟨cleared, told, tells⟩ := exists_tells_settle
        (session.invoke (command.body arguments)).2 (session.invoke (command.body arguments)).1
      -- A response that clears the output leaves nothing of what the routine has printed.
      refine ⟨cleared, if cleared then told else printed ++ told, ?_, ?_⟩
      · intro editor output known
        have same : (session.showing editor output).registry.find? name = some command := found
        rw [execute_of_found found, execute_of_found same, invoked editor output known,
          ← Output.tell_write]
        exact tells.showing editor _ known
      · rw [execute_of_found found]
        exact tells.keeps

/-- A command line ends in one way whatever is shown. -/
theorem exists_tells_runLine (session : Session) (line : String) :
    ∃ cleared told, session.Tells (·.runLine line) cleared told := by
  unfold runLine
  rcases CommandLine.tokens line with failure | (_ | ⟨name, arguments⟩)
  · exact ⟨false, "", session.tells_nothing _⟩
  · exact ⟨false, "", session.tells_nothing _⟩
  · by_cases unnamed : name = ""
    · simp only [unnamed, if_true]
      exact ⟨false, "", session.tells_nothing _⟩
    · simp only [unnamed, if_false]
      exact session.exists_tells_execute name arguments

theorem Tells.output_eq {action : Session → Outcome Unit × Session} {cleared : Bool}
    {told : String} (tells : session.Tells action cleared told) :
    (action session).2.output = session.output.tell cleared told :=
  congrArg (fun ended : Outcome Unit × Session => ended.2.output)
    (tells.showing session.editor session.output rfl)

section Editing

theorem submit_of_runReported {submission : Submission} {after : Session}
    (ran : (session.showing (session.editor.pushHistory submission.command)
      (session.output.writeLine submission.line)).runReported submission.command =
        (.done (), after)) :
    session.submit submission = (.done (), after.newLine) := by
  rw [submit_eq, ran]

theorem exists_editor_submit (session : Session) (submission : Submission) :
    ∃ operations, (session.submit submission).2.editor = session.editor.performAll operations := by
  have kept := editor_runReported (session.showing
    (session.editor.pushHistory submission.command)
    (session.output.writeLine submission.line)) submission.command
  rw [submit_eq]
  split
  next after result =>
    rw [result] at kept
    exact ⟨[.pushHistory submission.command, .reset after.prompt],
      congrArg (·.reset after.prompt) kept⟩
  next => exact ⟨[.pushHistory submission.command], kept⟩

/-- Whatever is done to a session, its editor sees operations of editors only. -/
theorem exists_editor_perform (session : Session) (operation : Operation) :
    ∃ operations, (session.perform operation).2.editor =
      session.editor.performAll operations := by
  cases operation with
  | register command => exact ⟨[], rfl⟩
  | setFarewell farewell => exact ⟨[], rfl⟩
  | init routine => exact ⟨[], session.editor_invoke routine⟩
  | runStartup => exact ⟨[], session.editor_runLines _⟩
  | execute name arguments => exact ⟨[], session.editor_execute name arguments⟩
  | runLine line => exact ⟨[], session.editor_runLine line⟩
  | handle edit =>
      rw [perform, handle]
      cases session.editor.submission? edit with
      | none => exact ⟨[.edit edit], rfl⟩
      | some submission =>
          obtain ⟨operations, submitted⟩ := exists_editor_submit
            { session with editor := session.editor.apply edit } submission
          exact ⟨.edit edit :: operations, submitted⟩

theorem exists_represents_perform {session : Session}
    (represented : ∃ zipper : Zipper, zipper.Represents session.editor) (operation : Operation) :
    ∃ zipper : Zipper, zipper.Represents (session.perform operation).2.editor := by
  obtain ⟨zipper, represents⟩ := represented
  obtain ⟨operations, edited⟩ := session.exists_editor_perform operation
  exact ⟨zipper.performAll operations, edited ▸ represents.performAll operations⟩

theorem exists_represents_performAll {session : Session}
    (represented : ∃ zipper : Zipper, zipper.Represents session.editor)
    (operations : List Operation) :
    ∃ zipper : Zipper, zipper.Represents (session.performAll operations).editor := by
  induction operations generalizing session with
  | nil => exact represented
  | cons operation rest ih => exact ih (exists_represents_perform represented operation)

theorem exists_represents_new {config : Config} {session : Session}
    (created : new config = .ok session) :
    ∃ zipper : Zipper, zipper.Represents session.editor := by
  obtain ⟨tree, rfl⟩ := exists_eq_of_new created
  exact ⟨_, .new _ _⟩

end Editing

/-- What a report adds to the output. -/
def report : Outcome Unit → String
  | .failed failure => "error: " ++ failure.message ++ "\n"
  | _ => ""

theorem runReported_showing {line : String} {cleared : Bool} {told : String}
    (tells : session.Tells (·.runLine line) cleared told)
    (unbroken : ∀ message, (session.runLine line).1 ≠ .panicked message) {editor : Editor}
    (known : editor.history = session.editor.history) (output : Output) :
    (session.showing editor output).runReported line =
      (.done (), (session.runLine line).2.showing editor
        ((output.tell cleared told).write (report (session.runLine line).1))) := by
  rw [runReported, tells.showing editor output known]
  rcases ran : session.runLine line with ⟨value | failure | message, after⟩
  · simp only [report, Output.write_empty]
  · rfl
  · exact absurd (congrArg Prod.fst ran) (unbroken message)

/-- The session with a command in its history. -/
def remembering (session : Session) (command : String) : Session :=
  { session with editor := session.editor.pushHistory command }

/-- Whether the submission of a line has come to the same as running its command, with
`before` on the output in both cases. -/
structure SubmittedLike (before : Output) (line : String) (ran : Outcome Unit × Session)
    (submitted : Session) : Prop where
  tree : submitted.workspace.tree = ran.2.workspace.tree
  current : submitted.workspace.current = ran.2.workspace.current
  registry : submitted.registry = ran.2.registry
  exited : submitted.exited = ran.2.exited
  epoch : submitted.output.epoch = ran.2.output.epoch
  kept : ran.2.output.epoch = before.epoch → ∃ written,
    ran.2.output.text = before.text ++ written ∧
      submitted.output.text = before.text ++ (line ++ "\n") ++ written ++ report ran.1
  cleared : ran.2.output.epoch ≠ before.epoch → submitted.output = ran.2.output
  shown : submitted.editor.text = submitted.prompt
  cursor : submitted.editor.cursor = submitted.prompt.length
  position : submitted.editor.position = 0
  history : submitted.editor.history = ran.2.editor.history

theorem enter_eq_submit {zipper : Zipper} (represents : zipper.Represents session.editor)
    (blank : session.editor.command = "") (text : String) :
    session.enter text =
      (session.showing (session.editor.withCommand text) session.output).submit
        { line := session.editor.prompt ++ text, command := text } := by
  have typed := session.editor.foldl_insert_withCommand "" text.toList
  rw [represents.withCommand_empty blank, String.empty_append, String.ofList_toList] at typed
  rw [enter, typing, handleAll_insert, typed, handleAll_singleton, handle,
    Editor.submission?_withCommand]
  rfl

/-- A line that is typed and submitted ends where running its command ends. -/
theorem enter_eq_newLine_showing {zipper : Zipper}
    (represents : zipper.Represents session.editor) (blank : session.editor.command = "")
    {text : String} {cleared : Bool} {told : String}
    (tells : (session.remembering text).Tells (·.runLine text) cleared told)
    (unbroken : ∀ message, ((session.remembering text).runLine text).1 ≠ .panicked message) :
    session.enter text =
      (.done (), (((session.remembering text).runLine text).2.showing
        ((session.editor.withCommand text).pushHistory text)
        (((session.output.writeLine (session.editor.prompt ++ text)).tell cleared told).write
          (report ((session.remembering text).runLine text).1))).newLine) := by
  have known := session.editor.history_pushHistory_withCommand text text
  rw [enter_eq_submit represents blank]
  exact submit_of_runReported (runReported_showing tells unbroken known _)

/-- What is told adds up to what was written, if it kept the output. -/
theorem submittedLike {line : String} {ran : Outcome Unit × Session} {before : Output}
    {cleared : Bool} {told : String} (output : ran.2.output = before.tell cleared told)
    (keeps : ran.1 ≠ .done () → cleared = false) {editor : Editor}
    (known : editor.history = ran.2.editor.history) :
    SubmittedLike before line ran
      (ran.2.showing editor
        (((before.writeLine line).tell cleared told).write (report ran.1))).newLine where
  tree := rfl
  current := rfl
  registry := rfl
  exited := rfl
  epoch := by
    rw [output]
    cases cleared with
    | false => rfl
    | true => rfl
  kept still := by
    rw [output] at still ⊢
    cases cleared with
    | false => exact ⟨told, rfl, rfl⟩
    | true => exact absurd still (Nat.succ_ne_self _)
  cleared lost := by
    rw [output] at lost ⊢
    cases cleared with
    | false => exact absurd rfl lost
    | true =>
        have finished : ran.1 = .done () := by
          by_contra undone
          exact nomatch keeps undone
        have unreported : report ran.1 = "" := by
          rw [finished]
          rfl
        rw [unreported, Output.write_empty]
        rfl
  shown := Editor.text_reset _ _
  cursor := Editor.cursor_reset _ _
  position := rfl
  history := known

/-- A line that is typed and submitted does what its command does when it is run with the
command in the history, and ends on a new line.  The line comes first on the output, and a
report comes last; if the output was cleared there is no difference. -/
theorem enter_like_runLine {config : Config} {created : Session}
    (begun : Session.new config = .ok created) (operations : List Operation) (text : String)
    (blank : (created.performAll operations).editor.command = "") :
    let session := created.performAll operations
    let ran := (session.remembering text).runLine text
    (∀ message, ran.1 ≠ .panicked message) →
      (session.enter text).1 = .done () ∧
        SubmittedLike session.output (session.editor.prompt ++ text) ran
          (session.enter text).2 := by
  obtain ⟨zipper, represents⟩ :=
    exists_represents_performAll (exists_represents_new begun) operations
  intro session ran unbroken
  obtain ⟨cleared, told, tells⟩ := (session.remembering text).exists_tells_runLine text
  have known : ((session.editor.withCommand text).pushHistory text).history =
      ran.2.editor.history := by
    rw [Editor.history_pushHistory_withCommand, editor_runLine]
    rfl
  rw [enter_eq_newLine_showing represents blank tells unbroken]
  exact ⟨rfl, submittedLike tells.output_eq tells.keeps known⟩

/-- A past in which the home was left without a submission. -/
def elsewhere : List Operation :=
  [.setFarewell { clears := true, text := "bye", endsLine := false }, .execute "cd" ["/"]]

theorem enter_like_runLine_elsewhere : ∃ created, Session.new {} = .ok created ∧
    let session := created.performAll elsewhere
    let ran := (session.remembering "cat \"notes").runLine "cat \"notes"
    session.editor.command = "" ∧ (∀ message, ran.1 ≠ .panicked message) ∧
      ran.1 = .failed (.unterminatedQuote '"') ∧
      (session.enter "cat \"notes").2.output.text =
        "home % cat \"notes\nerror: unterminated quote: \"\n" ∧
      (session.enter "cat \"notes").2.editor.text = "/ % " ∧
      (session.enter "exit").2.output = { text := "bye", epoch := 1 } ∧
      (session.enter "cat \"notes").1 = .done () ∧
        SubmittedLike session.output (session.editor.prompt ++ "cat \"notes") ran
          (session.enter "cat \"notes").2 := by
  have created : Session.new {} = .ok _ := rfl
  refine ⟨_, created, ?_⟩
  intro session ran
  have blank : session.editor.command = "" := by decide +kernel
  have failed : ran.1 = .failed (.unterminatedQuote '"') := by decide +kernel
  have unbroken : ∀ message, ran.1 ≠ .panicked message := by
    rw [failed]
    exact nofun
  have agrees := enter_like_runLine created elsewhere "cat \"notes" blank unbroken
  exact ⟨blank, unbroken, failed, by decide +kernel, by decide +kernel, by decide +kernel, agrees⟩

end Session

end CommandShell
