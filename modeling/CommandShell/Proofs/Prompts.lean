import CommandShell.Console
import CommandShell.Proofs.CurrentDirectory

/-!
# The prompt that is shown

Where a session is, is kept twice: as the path of the workspace, and as the name in the
prompt of its editor.  Every command line can change the path, but only a submission that
comes to its end renews the prompt.  So the prompt shown is that of the directory in which
the last of them has ended, or of the home before the first, and this is the prompt of the
current directory exactly when the two have the same name.
-/

namespace CommandShell

namespace Editor

theorem prompt_apply (editor : Editor) (edit : Edit) :
    (editor.apply edit).prompt = editor.prompt := by
  cases edit <;> rfl

theorem prompt_pushHistory (editor : Editor) (command : String) :
    (editor.pushHistory command).prompt = editor.prompt := by
  unfold pushHistory
  split <;> rfl

theorem pushHistory_empty (editor : Editor) : editor.pushHistory "" = editor :=
  if_pos rfl

theorem text_reset (editor : Editor) (prompt : String) : (editor.reset prompt).text = prompt :=
  String.ofList_toList

theorem cursor_reset (editor : Editor) (prompt : String) :
    (editor.reset prompt).cursor = prompt.length := rfl

end Editor

namespace Session

theorem promptFor_eq_iff {config : Config} {first second : String} :
    promptFor config first = promptFor config second ↔
      Path.basename first = Path.basename second := by
  rw [promptFor, promptFor, ← String.toList_inj, String.toList_append, String.toList_append,
    List.append_left_inj, String.toList_inj]

section CommandLines

theorem editor_respond (session : Session) (response : Response) :
    (session.respond response).editor = session.editor := by
  rw [respond_eq]

theorem editor_settle (session : Session) (outcome : Outcome Response) :
    (session.settle outcome).2.editor = session.editor := by
  rcases settle_cases outcome with ⟨response, settled⟩ | ⟨ended, -, settled⟩
  · rw [settled]
    exact session.editor_respond response
  · rw [settled]

theorem editor_invoke {α : Type} (session : Session) (routine : Routine α) :
    (session.invoke routine).2.editor = session.editor := rfl

theorem editor_execute (session : Session) (name : String) (arguments : List String) :
    (session.execute name arguments).2.editor = session.editor := by
  cases found : session.registry.find? name with
  | none =>
      rw [execute_of_not_found found]
      rfl
  | some command =>
      rw [execute_of_found found]
      exact editor_settle _ _

theorem editor_runLine (session : Session) (line : String) :
    (session.runLine line).2.editor = session.editor := by
  unfold runLine
  split
  · rfl
  · rfl
  next name arguments words =>
    split
    · rfl
    · exact session.editor_execute name arguments

theorem editor_runReported (session : Session) (line : String) :
    (session.runReported line).2.editor = session.editor := by
  have kept := session.editor_runLine line
  unfold runReported
  split
  next failure after result =>
    rw [result] at kept
    exact kept
  next => exact kept

theorem editor_runLines (session : Session) (lines : List String) :
    (session.runLines lines).2.editor = session.editor := by
  induction lines generalizing session with
  | nil => rfl
  | cons line rest ih =>
      have kept := session.editor_runReported line
      unfold runLines
      split
      next after result =>
        rw [result] at kept
        exact (ih after).trans kept
      next => exact kept

end CommandLines

section Configuration

theorem Evolves.config_eq {before after : Session} {moments : List Moment}
    (evolved : before.Evolves moments after) : after.config = before.config := by
  induction evolved with
  | refl => rfl
  | output _ change ih => exact ih
  | editor _ editor ih => exact ih
  | exit _ ih => exact ih
  | invoke _ found arguments ih => exact ih

theorem config_invoke {α : Type} (session : Session) (routine : Routine α) :
    (session.invoke routine).2.config = session.config := rfl

theorem config_perform (session : Session) (operation : Operation) :
    (session.perform operation).2.config = session.config := by
  cases operation with
  | register command => rfl
  | setFarewell farewell => rfl
  | init routine => exact session.config_invoke routine
  | runStartup => exact (session.evolves_runLines _).config_eq
  | execute name arguments => exact (session.evolves_execute name arguments).config_eq
  | runLine line => exact (session.evolves_runLine line).config_eq
  | handle edit => exact (session.evolves_handle edit).config_eq

theorem config_performAll (session : Session) (operations : List Operation) :
    (session.performAll operations).config = session.config := by
  induction operations generalizing session with
  | nil => rfl
  | cons operation rest ih => exact (ih _).trans (session.config_perform operation)

end Configuration

/-- Whether an operation is a submission, and its outcome says that it came to its end. -/
def Operation.renews : Operation → Outcome Unit → Bool
  | .handle .submit, outcome => outcome = .done ()
  | _, _ => false

/-- The directory of the prompt that is shown after an operation, if that shown before it
is the prompt of `directory`. -/
def promptDirectory (session : Session) (directory : String) (operation : Operation) : String :=
  if operation.renews (session.perform operation).1 then
    (session.perform operation).2.workspace.current
  else directory

def promptDirectoryAll (session : Session) (directory : String) : List Operation → String
  | [] => directory
  | operation :: rest =>
      (session.perform operation).2.promptDirectoryAll
        (session.promptDirectory directory operation) rest

/-- The session with another line in its editor and other text on its output. -/
def showing (session : Session) (editor : Editor) (output : Output) : Session :=
  { session with editor, workspace := { session.workspace with output } }

theorem runReported_empty (session : Session) :
    session.runReported "" = (.done (), session) := by
  have blank : CommandLine.tokens "" = .ok [""] := rfl
  simp only [runReported, runLine, blank, if_true]

/-- A blank line is submitted like every other. -/
theorem submit_eq (session : Session) (submission : Submission) :
    session.submit submission =
      match (session.showing (session.editor.pushHistory submission.command)
          (session.output.writeLine submission.line)).runReported submission.command with
      | (.done (), after) => (.done (), after.newLine)
      | ended => ended := by
  unfold submit
  by_cases blank : submission.command = ""
  · rw [if_pos blank, blank, Editor.pushHistory_empty, runReported_empty]
    rfl
  · rw [if_neg blank]
    rfl

/-- A submission comes to its end on a new line, or it panics and does not touch the
prompt. -/
theorem submit_cases (session : Session) (submission : Submission) :
    (∃ ended, session.submit submission = (.done (), newLine ended)) ∨
      (session.submit submission).1 ≠ .done () ∧
        (session.submit submission).2.editor.prompt = session.editor.prompt := by
  have untouched := session.editor.prompt_pushHistory submission.command
  have kept := editor_runReported (session.showing
    (session.editor.pushHistory submission.command)
    (session.output.writeLine submission.line)) submission.command
  rw [submit_eq]
  rcases result : (session.showing (session.editor.pushHistory submission.command)
      (session.output.writeLine submission.line)).runReported submission.command with
    ⟨value | failure | message, after⟩
  · exact .inl ⟨after, rfl⟩
  · rw [result] at kept
    exact .inr ⟨nofun, (congrArg Editor.prompt kept).trans untouched⟩
  · rw [result] at kept
    exact .inr ⟨nofun, (congrArg Editor.prompt kept).trans untouched⟩

theorem handle_submit_cases (session : Session) :
    (∃ ended, session.handle .submit = (.done (), newLine ended)) ∨
      (session.handle .submit).1 ≠ .done () ∧
        (session.handle .submit).2.editor.prompt = session.editor.prompt :=
  session.submit_cases { line := session.editor.text, command := session.editor.command }

theorem prompt_perform (session : Session) (operation : Operation) :
    (session.perform operation).2.editor.prompt =
      if operation.renews (session.perform operation).1 then
        (session.perform operation).2.prompt
      else session.editor.prompt := by
  cases operation with
  | register command => rfl
  | setFarewell farewell => rfl
  | init routine => exact congrArg Editor.prompt (session.editor_invoke routine)
  | runStartup => exact congrArg Editor.prompt (session.editor_runLines _)
  | execute name arguments => exact congrArg Editor.prompt (session.editor_execute _ _)
  | runLine line => exact congrArg Editor.prompt (session.editor_runLine line)
  | handle edit =>
      cases edit with
      | submit =>
          rw [perform]
          rcases session.handle_submit_cases with ⟨ended, completed⟩ | ⟨unfinished, kept⟩
          · rw [completed]
            rfl
          · rw [kept, Operation.renews, decide_eq_false unfinished]
            rfl
      | _ => exact session.editor.prompt_apply _

def ShowsPromptOf (session : Session) (directory : String) : Prop :=
  session.editor.prompt = promptFor session.config directory

namespace ShowsPromptOf

variable {session : Session} {directory : String}

/-- The step: an operation shows the prompt of the directory in which it ends, or leaves
the prompt alone. -/
theorem perform (shows : session.ShowsPromptOf directory) (operation : Operation) :
    (session.perform operation).2.ShowsPromptOf (session.promptDirectory directory operation) := by
  unfold ShowsPromptOf promptDirectory
  rw [prompt_perform]
  split
  · rfl
  · rw [shows, config_perform]

/-- The run: the prompt is that of the directory in which the last submission ended. -/
theorem performAll (shows : session.ShowsPromptOf directory) (operations : List Operation) :
    (session.performAll operations).ShowsPromptOf
      (session.promptDirectoryAll directory operations) := by
  induction operations generalizing session directory with
  | nil => exact shows
  | cons operation rest ih => exact ih (shows.perform operation)

/-- The prompt that is shown is the right one if the name in it is. -/
theorem eq_prompt_iff (shows : session.ShowsPromptOf directory) :
    session.editor.prompt = session.prompt ↔
      Path.basename session.workspace.current = Path.basename directory := by
  rw [shows, prompt, promptFor_eq_iff]
  exact eq_comm

end ShowsPromptOf

theorem shows_new {config : Config} {session : Session} (created : new config = .ok session) :
    session.config = config ∧ session.ShowsPromptOf (Path.resolve "/" config.home) ∧
      session.editor.text = session.editor.prompt := by
  obtain ⟨tree, rfl⟩ := exists_eq_of_new created
  exact ⟨rfl, rfl, Editor.text_reset _ _⟩

theorem handleAll_insert (session : Session) (chars : List Char) (rest : List Edit) :
    session.handleAll (chars.map Edit.insert ++ rest) =
      { session with
        editor := (chars.map Edit.insert).foldl Editor.apply session.editor }.handleAll rest := by
  induction chars generalizing session with
  | nil => rfl
  | cons char chars ih => exact ih { session with editor := session.editor.apply (.insert char) }

theorem handleAll_singleton (session : Session) (edit : Edit) :
    session.handleAll [edit] = session.handle edit := by
  rw [handleAll]
  rcases session.handle edit with ⟨value | failure | message, after⟩ <;> rfl

/-- A line that is typed and submitted without a panic ends on a new line. -/
theorem enter_eq_newLine {session : Session} {line : String}
    (completed : (session.enter line).1 = .done ()) :
    ∃ ended, (session.enter line).2 = newLine ended := by
  rw [enter, typing, handleAll_insert, handleAll_singleton] at completed ⊢
  rcases handle_submit_cases { session with
    editor := (line.toList.map Edit.insert).foldl Editor.apply session.editor } with
    ⟨ended, submitted⟩ | ⟨unfinished, -⟩
  · rw [submitted]
    exact ⟨ended, rfl⟩
  · exact absurd completed unfinished

end Session

namespace Console

open Session

/-- A console that has answered a line shows the prompt of the directory that the session
is in. -/
theorem prompt_enter {console : Console} {line : String}
    (completed : (console.session.enter line).1 = .done ()) :
    (console.enter line).2.prompt = (console.enter line).2.session.prompt := by
  obtain ⟨ended, same⟩ := enter_eq_newLine completed
  show (console.session.enter line).2.editor.text = (console.session.enter line).2.prompt
  rw [same]
  exact Editor.text_reset _ _

theorem untouched_of_seeding {session : Session} {seeds : Bool}
    {seeded : Outcome Unit × Session}
    (seeding : (if seeds then session.invoke Demo.seed else (.done (), session)) = seeded) :
    seeded.2.editor = session.editor ∧ seeded.2.config = session.config := by
  subst seeding
  split
  · exact ⟨session.editor_invoke _, session.config_invoke _⟩
  · exact ⟨rfl, rfl⟩

/-- A console begins with the editor of a new session: neither the demonstration files nor
the startup lines touch it. -/
theorem editor_start {config : Config} {greeting : String} {console : Console}
    (started : start config = .done (greeting, console)) :
    ∃ session, Session.new config = .ok session ∧
      console.session.editor = session.editor ∧ console.session.config = session.config := by
  unfold start at started
  split at started
  next => cases started
  next session created =>
    refine ⟨session, created, ?_⟩
    dsimp only at started
    generalize seeding :
      (if config.seedDemoFiles then session.invoke Demo.seed else (.done (), session)) =
        seeded at started
    obtain ⟨sameEditor, sameConfig⟩ := untouched_of_seeding seeding
    split at started
    next => cases started
    next => cases started
    next =>
      cases started
      exact ⟨(seeded.2.editor_runLines _).trans sameEditor,
        (seeded.2.evolves_runLines _).config_eq.trans sameConfig⟩

/-- The prompt shown is that of the directory in which the last submission ended, or of the
home before the first, and it is the prompt of the current directory exactly if the two have
the same name.  In particular, the first prompt of a console is right exactly if the startup
lines end in a directory that is called like the home; every later one is right. -/
theorem prompt_current_iff (config : Config) :
    ∃ session, Session.new config = .ok session ∧
      (∀ operations : List Operation,
        let reached := session.performAll operations
        let directory := session.promptDirectoryAll (Path.resolve "/" config.home) operations
        reached.editor.prompt = promptFor config directory ∧
          (reached.editor.prompt = reached.prompt ↔
            Path.basename reached.workspace.current = Path.basename directory)) ∧
      (∀ greeting console, start config = .done (greeting, console) →
        console.prompt = promptFor config (Path.resolve "/" config.home) ∧
          (console.prompt = console.session.prompt ↔
            Path.basename console.session.workspace.current =
              Path.basename (Path.resolve "/" config.home))) ∧
      ∀ (console : Console) line, (console.session.enter line).1 = .done () →
        (console.enter line).2.prompt = (console.enter line).2.session.prompt := by
  obtain ⟨session, created, -⟩ := exists_new config
  obtain ⟨same, shows, text⟩ := shows_new created
  refine ⟨session, created, fun operations => ?_, fun greeting console started => ?_,
    fun console line => prompt_enter⟩
  · have reached := shows.performAll operations
    refine ⟨?_, reached.eq_prompt_iff⟩
    rw [reached, config_performAll, same]
  · obtain ⟨begun, begins, sameEditor, sameConfig⟩ := editor_start started
    obtain rfl := Except.ok.inj (created.symm.trans begins)
    have first : console.session.ShowsPromptOf (Path.resolve "/" config.home) := by
      rw [ShowsPromptOf, sameEditor, sameConfig]
      exact shows
    have shown : console.prompt = console.session.editor.prompt := by
      rw [Console.prompt, sameEditor, text]
    rw [shown]
    refine ⟨?_, first.eq_prompt_iff⟩
    rw [first, sameConfig, same]

/-- A startup line that leaves the home. -/
def leaving : Config := { startup := ["cd /"] }

theorem prompt_not_current_leaving :
    ∃ session, Session.new leaving = .ok session ∧
      (session.perform .runStartup).1 = .done () ∧
      (session.perform .runStartup).2.workspace.current = "/" ∧
      (session.perform .runStartup).2.prompt = "/ % " ∧
      (session.perform .runStartup).2.editor.prompt = "home % " ∧
      (run (.ok leaving) []).printed = ["", "home % ", "\n"] := by
  refine ⟨_, rfl, ?_, ?_, ?_, ?_, ?_⟩ <;> decide +kernel

end Console

end CommandShell
