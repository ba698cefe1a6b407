import CommandShell.Proofs.CommandRuns
import CommandShell.Proofs.HistoryWalks

/-!
# The history of a session

Of all that is done to a session, only a submission reaches the history, and it does so before
its command is run.  Whatever becomes of the command then, the history holds the commands
submitted last, and a command that asks for the history finds its own submission at the end.
-/

namespace CommandShell

namespace Editor

theorem pushed_pushHistory (command : String) :
    pushed [.pushHistory command] = if command = "" then [] else [command] := by
  by_cases empty : command = "" <;> simp [pushed, empty]

theorem limit_performAll (editor : Editor) (operations : List Operation) :
    (editor.performAll operations).limit = editor.limit := by
  induction operations generalizing editor with
  | nil => rfl
  | cons operation rest ih => exact (ih _).trans (editor.limit_perform operation)

/-- What has just been pushed is the newest, however few commands are kept. -/
theorem getLast?_newest_append (limit : Nat) (commands : List String) (command : String) :
    (newest limit (commands ++ [command])).getLast? = some command := by
  unfold newest
  split
  · exact List.getLast?_concat
  next limited =>
    have within : (commands ++ [command]).length - limit ≤ commands.length := by
      rw [List.length_append, List.length_singleton]
      omega
    rw [List.drop_append_of_le_length within]
    exact List.getLast?_concat

end Editor

/-- A routine is told the same history whenever it asks. -/
theorem Workspace.eq_of_history_mem_exchanges {α : Type} {surroundings : Surroundings}
    {routine : Routine α} {workspace : Workspace} {seen : List String}
    (asked : ⟨.history, seen⟩ ∈ exchanges surroundings routine workspace) :
    seen = surroundings.history := by
  induction routine generalizing workspace with
  | done value | fail failure | panic message => cases asked
  | call request next ih =>
      rcases List.mem_cons.mp asked with here | later
      · cases request with
        | history => cases here; rfl
        | _ => cases here
      · exact ih _ later

/-- Whether a command that is run asks for the history and is told these commands. -/
def CommandRun.Sees (run : CommandRun) (seen : List String) : Prop :=
  ⟨.history, seen⟩ ∈ run.session.exchanges run.routine

namespace Session

variable {session : Session} {limit : Nat} {commands : List String}

/-- The command that an operation submits, unless it is empty. -/
def submitted (session : Session) : Operation → List String
  | .handle edit =>
      match session.editor.submission? edit with
      | none => []
      | some submission => if submission.command = "" then [] else [submission.command]
  | _ => []

/-- The commands that operations submit one after the other, the first one first. -/
def submittedAll (session : Session) : List Operation → List String
  | [] => []
  | operation :: rest =>
      session.submitted operation ++ (session.perform operation).2.submittedAll rest

theorem limit_perform (session : Session) (operation : Operation) :
    (session.perform operation).2.editor.limit = session.editor.limit := by
  obtain ⟨operations, edited⟩ := session.exists_editor_perform operation
  rw [edited, Editor.limit_performAll]

/-- The command of a submission is in the history, however it ends. -/
theorem history_submit (session : Session) (submission : Submission) :
    (session.submit submission).2.editor.history =
      (session.editor.pushHistory submission.command).history := by
  have kept := congrArg Editor.history (editor_runReported (session.showing
    (session.editor.pushHistory submission.command)
    (session.output.writeLine submission.line)) submission.command)
  rw [submit_eq]
  split
  next after result =>
    rw [result] at kept
    exact kept
  next => exact kept

/-- Whether the history holds the newest of some commands. -/
structure Remembers (session : Session) (limit : Nat) (commands : List String) : Prop where
  limit_eq : session.editor.limit = limit
  history : session.editor.history = Editor.newest limit commands

namespace Remembers

theorem pushHistory (remembers : session.Remembers limit commands) (command : String) :
    (session.editor.pushHistory command).history =
      Editor.newest limit (commands ++ if command = "" then [] else [command]) := by
  have kept : session.editor.history = Editor.newest session.editor.limit commands := by
    rw [remembers.limit_eq, remembers.history]
  rw [← remembers.limit_eq, ← Editor.pushed_pushHistory]
  exact Editor.history_perform kept (.pushHistory command)

/-- The step: an operation adds to the history what it submits. -/
theorem perform (remembers : session.Remembers limit commands) (operation : Operation) :
    (session.perform operation).2.Remembers limit (commands ++ session.submitted operation) := by
  refine ⟨(session.limit_perform operation).trans remembers.limit_eq, ?_⟩
  have unchanged := remembers.history
  cases operation with
  | handle edit =>
      rw [Session.perform, handle, submitted]
      cases submits : session.editor.submission? edit with
      | none => simpa [Editor.history_apply] using unchanged
      | some submission =>
          rw [session.editor.apply_of_submission? submits]
          exact (history_submit _ submission).trans (remembers.pushHistory submission.command)
  | register command | setFarewell farewell =>
      simp only [submitted, List.append_nil]
      exact unchanged
  | init routine => simpa [submitted, Session.perform, editor_invoke] using unchanged
  | runStartup => simpa [submitted, Session.perform, runStartup, editor_runLines] using unchanged
  | execute name arguments => simpa [submitted, Session.perform, editor_execute] using unchanged
  | runLine line => simpa [submitted, Session.perform, editor_runLine] using unchanged

/-- The run: the history holds the newest of all that was submitted. -/
theorem performAll (remembers : session.Remembers limit commands)
    (operations : List Operation) :
    (session.performAll operations).Remembers limit
      (commands ++ session.submittedAll operations) := by
  induction operations generalizing session commands with
  | nil => simpa [submittedAll, Session.performAll] using remembers
  | cons operation rest ih =>
      have continued := ih (remembers.perform operation)
      rwa [List.append_assoc] at continued

end Remembers

theorem remembers_new {config : Config} {created : Session}
    (begun : new config = .ok created) : created.Remembers config.historyLimit [] := by
  obtain ⟨tree, rfl⟩ := exists_eq_of_new begun
  exact ⟨rfl, by simp [Editor.newest, Editor.new, Editor.reset]⟩

section SeenByCommands

variable {run : CommandRun}

theorem editor_of_mem_runLinesRuns {lines : List String}
    (member : run ∈ session.runLinesRuns lines) : run.session.editor = session.editor := by
  induction lines generalizing session with
  | nil => cases member
  | cons line rest ih =>
      rw [runLinesRuns, List.mem_append] at member
      rcases member with here | later
      · rw [(runLine_of_mem_runs here).1]
      · have kept := session.editor_runReported line
        rcases ran : session.runReported line with ⟨value | failure | message, after⟩
        · rw [ran] at later kept
          exact (ih later).trans kept
        · rw [ran] at later
          cases later
        · rw [ran] at later
          cases later

/-- A command is run when its own submission is in the history already. -/
theorem Remembers.history_of_mem_runs (remembers : session.Remembers limit commands)
    {operation : Operation} (member : run ∈ session.runs operation) :
    run.session.editor.history =
      Editor.newest limit (commands ++ session.submitted operation) := by
  cases operation with
  | register command | setFarewell farewell | init routine => cases member
  | runStartup =>
      simp only [submitted, List.append_nil]
      rw [editor_of_mem_runLinesRuns member, remembers.history]
  | execute name arguments =>
      simp only [submitted, List.append_nil]
      rw [runs, executeRuns] at member
      split at member
      next => cases member
      next => rw [List.mem_singleton.mp member, remembers.history]
  | runLine line =>
      simp only [submitted, List.append_nil]
      rw [(runLine_of_mem_runs member).1, remembers.history]
  | handle edit =>
      rw [runs, handleRuns] at member
      rw [submitted]
      cases submits : session.editor.submission? edit with
      | none =>
          rw [submits] at member
          cases member
      | some submission =>
          rw [submits] at member
          rw [(runLine_of_mem_runs member).1]
          exact remembers.pushHistory submission.command

/-- An empty command is not run. -/
theorem submitted_of_mem_runs (member : run ∈ session.runs (.handle .submit)) :
    session.submitted (.handle .submit) = [session.editor.command] := by
  rw [submitted, Editor.submission?]
  dsimp only
  split
  next empty =>
    have unrun : session.runs (.handle .submit) = [] := by
      simp only [runs, handleRuns, Editor.submission?, empty]
      rfl
    rw [unrun] at member
    cases member
  next => rfl

end SeenByCommands

/-- The history is what was submitted last.  After any operations on a new session, however
they end, it holds the commands submitted so far that are not empty, in the order of their
submissions, and all of them or as many of the last as the configured limit allows.  A command
that is run by the next operation is told the same of all submissions up to this operation, so
the history that a submitted command sees ends with itself. -/
theorem history_is_recent_submissions (config : Config) :
    ∃ created, new config = .ok created ∧ ∀ operations : List Operation,
      let session := created.performAll operations
      let before := created.submittedAll operations
      session.editor.history = Editor.newest config.historyLimit before ∧
        (∀ operation, ∀ run ∈ session.runs operation, ∀ seen, run.Sees seen →
          seen = Editor.newest config.historyLimit (before ++ session.submitted operation)) ∧
        ∀ run ∈ session.runs (.handle .submit), ∀ seen, run.Sees seen →
          seen.getLast? = some session.editor.command := by
  obtain ⟨created, begun, -⟩ := exists_new config
  refine ⟨created, begun, fun operations => ?_⟩
  have remembers := (remembers_new begun).performAll operations
  rw [List.nil_append] at remembers
  have told : ∀ operation, ∀ run ∈ (created.performAll operations).runs operation,
      ∀ seen, run.Sees seen → seen = Editor.newest config.historyLimit
        (created.submittedAll operations ++
          (created.performAll operations).submitted operation) := by
    intro operation run member seen asked
    rw [Workspace.eq_of_history_mem_exchanges asked, ← remembers.history_of_mem_runs member]
    rfl
  refine ⟨remembers.history, told, fun run member seen asked => ?_⟩
  rw [told _ run member seen asked, submitted_of_mem_runs member]
  exact Editor.getLast?_newest_append _ _ _

-- A command that panics stays in the line, and is submitted again behind the first letter of
-- another one.
example :
    let panics : Command := .plain "x" fun _ => .panic "stopped"
    let operations : List Operation := [.register panics, .runLine "pwd", .handle .submit,
      .handle (.insert 'x'), .handle .submit, .handle (.insert 'y'), .handle .submit]
    (new { historyLimit := 1 }).toOption.map (fun created =>
      (created.submittedAll operations, (created.performAll operations).editor.history)) =
        some (["x", "xy"], ["xy"]) := by
  decide +kernel

end Session

end CommandShell
