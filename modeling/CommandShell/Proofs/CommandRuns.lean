import CommandShell.Proofs.FreshTables
import CommandShell.Proofs.Submissions

/-!
# Runs of commands

All that a session ever tells is written behind what its output holds, except that some
responses clear the output first.  A command that is run prints, call after call, and its
end is told once behind that.  Beside running commands an operation writes lines and changes
the editor, and nothing else: `Session.Proceeds` says so once, and how the output grows and
when the session ends are derived from it.
-/

namespace CommandShell

namespace Output

/-- Whether an output has come from another by writing and by a number of clearings. -/
structure GrowsTo (before : Output) (clearings : Nat) (after : Output) : Prop where
  epoch : after.epoch = before.epoch + clearings
  text : clearings = 0 → ∃ written, after.text = before.text ++ written

namespace GrowsTo

variable {before between after : Output} {clearings more : Nat}

theorem refl (output : Output) : output.GrowsTo 0 output :=
  ⟨rfl, fun _ => ⟨"", String.append_empty.symm⟩⟩

theorem trans (first : before.GrowsTo clearings between)
    (second : between.GrowsTo more after) : before.GrowsTo (clearings + more) after := by
  refine ⟨by rw [second.epoch, first.epoch, Nat.add_assoc], fun uncleared => ?_⟩
  obtain ⟨none, noneMore⟩ := Nat.add_eq_zero_iff.mp uncleared
  obtain ⟨written, begun⟩ := first.text none
  obtain ⟨added, continued⟩ := second.text noneMore
  exact ⟨written ++ added, by rw [continued, begun, String.append_assoc]⟩

theorem write (grown : before.GrowsTo clearings after) (text : String) :
    before.GrowsTo clearings (after.write text) := by
  refine ⟨grown.epoch, fun uncleared => ?_⟩
  obtain ⟨written, begun⟩ := grown.text uncleared
  exact ⟨written ++ text, by rw [text_write, begun, String.append_assoc]⟩

theorem clear (grown : before.GrowsTo clearings after) :
    before.GrowsTo (clearings + 1) after.clear := by
  refine ⟨?_, fun uncleared => absurd uncleared (Nat.succ_ne_zero clearings)⟩
  rw [epoch_clear, grown.epoch, Nat.add_assoc]

/-- As long as the epoch stays, nothing is lost. -/
theorem exists_written (grown : before.GrowsTo clearings after)
    (same : after.epoch = before.epoch) : ∃ written, after.text = before.text ++ written := by
  have epoch := grown.epoch
  exact grown.text (by omega)

end GrowsTo

end Output

theorem Farewell.growsTo_write (farewell : Farewell) {output : Output} :
    output.GrowsTo (if farewell.clears then 1 else 0) (farewell.write output) := by
  obtain ⟨told, written⟩ := farewell.write_eq_tell
  rw [written, Output.tell]
  cases farewell.clears with
  | false => exact (Output.GrowsTo.refl output).write told
  | true => exact (Output.GrowsTo.refl output).clear.write told

namespace Editor

variable {edit : Edit} {submission : Submission}

/-- A submission changes nothing in the line. -/
theorem apply_of_submission? (editor : Editor)
    (submits : editor.submission? edit = some submission) : editor.apply edit = editor := by
  cases edit with
  | submit => rfl
  | _ => cases submits

theorem eq_of_submission? (editor : Editor)
    (submits : editor.submission? edit = some submission) :
    submission = { line := editor.text, command := editor.command } := by
  cases edit with
  | submit => exact (Option.some.inj submits).symm
  | _ => cases submits

end Editor

namespace Workspace

theorem output_perform (workspace : Workspace) (surroundings : Surroundings) (request : Call) :
    (workspace.perform surroundings request).2.output =
      workspace.output.write request.printed :=
  congrArg (fun reply : request.Reply × Workspace => reply.2.output)
    (workspace.perform_withOutput workspace.output surroundings request)

/-- A routine writes what its calls print, one after the other. -/
theorem output_run {α : Type} (surroundings : Surroundings) (routine : Routine α)
    (workspace : Workspace) :
    (run surroundings routine workspace).2.output =
      workspace.output.write (String.join ((exchanges surroundings routine workspace).map
        fun exchange => exchange.1.printed)) := by
  induction routine generalizing workspace with
  | done value | fail failure | panic message => exact workspace.output.write_empty.symm
  | call request next ih =>
      rw [run, ih, output_perform, Output.write_write, exchanges, List.map_cons,
        String.join_cons]

theorem output_reclaim (workspace : Workspace) (process : ProcessId) :
    (workspace.reclaim process).output = workspace.output := by
  unfold reclaim
  split <;> rfl

end Workspace

namespace Session

/-- What an invoked routine prints, call after call. -/
def printed {α : Type} (session : Session) (routine : Routine α) : String :=
  String.join ((session.exchanges routine).map fun exchange => exchange.1.printed)

theorem output_invoke {α : Type} (session : Session) (routine : Routine α) :
    (session.invoke routine).2.output = session.output.write (session.printed routine) := by
  have ran := Workspace.output_run session.invocation.surroundings routine
    session.invocation.begun
  rw [output, invoke, Workspace.invoke_eq, Workspace.output_reclaim]
  exact ran

end Session

/-- A command with the arguments that it is run with, and the session in which it is run. -/
structure CommandRun where
  session : Session
  command : Command
  arguments : List String

namespace CommandRun

def routine (run : CommandRun) : Routine Response :=
  run.command.body run.arguments

/-- How the routine of the command ends. -/
def outcome (run : CommandRun) : Outcome Response :=
  (run.session.invoke run.routine).1

/-- The session that the routine leaves behind. -/
def ended (run : CommandRun) : Session :=
  (run.session.invoke run.routine).2

/-- The session when the end of the command has been told. -/
def settled (run : CommandRun) : Outcome Unit × Session :=
  run.ended.settle run.outcome

/-- What the command prints, call after call. -/
def printed (run : CommandRun) : String :=
  run.session.printed run.routine

/-- Whether the end of the command ends the session. -/
def exits (run : CommandRun) : Bool :=
  run.outcome = .done .exit

/-- Whether the output is cleared at the end of the command: by its response, or by the
farewell of the session that it ends. -/
def clears (run : CommandRun) : Bool :=
  match run.outcome with
  | .done .clear => true
  | .done .exit => run.session.farewell.any Farewell.clears
  | _ => false

/-- What comes of the command: how the call ends, and what the output holds then.  The end of
the command is told behind what it has printed. -/
def told (run : CommandRun) : Outcome Unit × Output :=
  let written := run.session.output.write run.printed
  match run.outcome with
  | .done (.text text) => (.done (), written.writeLine text)
  | .done .silent => (.done (), written)
  | .done .clear => (.done (), written.clear)
  | .done .exit =>
      match run.session.farewell with
      | none => (.done (), written)
      | some farewell => (.done (), farewell.write written)
  | .failed failure =>
      if failure.isUserFacing then (.done (), written.writeLine failure.message)
      else (.failed failure, written)
  | .panicked message => (.panicked message, written)

/-- The end of a command shows on the output and in the mark that the session has ended. -/
theorem settled_eq (run : CommandRun) :
    run.settled =
      (run.told.1,
        { run.ended with
          exited := run.session.exited || run.exits
          workspace := { run.ended.workspace with output := run.told.2 } }) := by
  have behind : run.ended.output = run.session.output.write run.printed :=
    run.session.output_invoke run.routine
  have farewell : run.ended.farewell = run.session.farewell := rfl
  have exited : run.ended.exited = run.session.exited := rfl
  unfold settled told exits
  rw [← behind, ← farewell, ← exited]
  rcases run.outcome with response | failure | message
  · rw [Session.settle, Session.respond_eq]
    cases response with
    | exit =>
        dsimp only
        cases run.ended.farewell <;> rfl
    | text | silent | clear => rfl
  · simp only [Session.settle, reduceCtorEq, decide_false, Bool.or_false]
    split <;> rfl
  · simp only [Session.settle, reduceCtorEq, decide_false, Bool.or_false]
    rfl

theorem output_settled (run : CommandRun) : run.settled.2.output = run.told.2 := by
  rw [settled_eq]
  rfl

/-- The end of a command clears the output once or not at all, and else only adds to it. -/
theorem growsTo_told (run : CommandRun) :
    run.session.output.GrowsTo (if run.clears then 1 else 0) run.told.2 := by
  have written : run.session.output.GrowsTo 0 (run.session.output.write run.printed) :=
    (Output.GrowsTo.refl _).write run.printed
  unfold told clears
  rcases run.outcome with (text | _ | _ | _) | failure | message
  · exact written.write (text ++ "\n")
  · exact written
  · exact written.clear
  · dsimp only
    rcases run.session.farewell with _ | farewell
    · exact written
    · rw [← Nat.zero_add (ite _ 1 0)]
      exact written.trans farewell.growsTo_write
  · dsimp only
    cases failure.isUserFacing with
    | true => exact written.write (failure.message ++ "\n")
    | false => exact written
  · exact written

end CommandRun

namespace Session

section Runs

def executeRuns (session : Session) (name : String) (arguments : List String) :
    List CommandRun :=
  match session.registry.find? name with
  | none => []
  | some command => [{ session, command, arguments }]

def runLineRuns (session : Session) (line : String) : List CommandRun :=
  match CommandLine.tokens line with
  | .error _ => []
  | .ok [] => []
  | .ok (name :: arguments) => if name = "" then [] else session.executeRuns name arguments

def runLinesRuns (session : Session) : List String → List CommandRun
  | [] => []
  | line :: rest =>
      session.runLineRuns line ++
        match session.runReported line with
        | (.done (), after) => after.runLinesRuns rest
        | _ => []

/-- The session in which a submitted command is run: its line is on the output, and the
command is in the history. -/
def echoing (session : Session) (submission : Submission) : Session :=
  session.showing (session.editor.pushHistory submission.command)
    (session.output.writeLine submission.line)

def handleRuns (session : Session) (edit : Edit) : List CommandRun :=
  match session.editor.submission? edit with
  | none => []
  | some submission => (session.echoing submission).runLineRuns submission.command

/-- The commands that an operation runs, the first one first. -/
def runs (session : Session) : Operation → List CommandRun
  | .register _ => []
  | .setFarewell _ => []
  | .init _ => []
  | .runStartup => session.runLinesRuns session.config.startup
  | .execute name arguments => session.executeRuns name arguments
  | .runLine line => session.runLineRuns line
  | .handle edit => session.handleRuns edit

/-- The commands that operations run one after the other. -/
def runsAll (session : Session) : List Operation → List CommandRun
  | [] => []
  | operation :: rest =>
      session.runs operation ++ (session.perform operation).2.runsAll rest

end Runs

section Lines

variable {session : Session} {line : String}

theorem runLine_of_mem_runs {run : CommandRun} (member : run ∈ session.runLineRuns line) :
    run.session = session ∧ session.runLine line = run.settled ∧
      ∃ name, CommandLine.tokens line = .ok (name :: run.arguments) ∧
        session.registry.find? name = some run.command := by
  unfold runLineRuns at member
  unfold runLine
  rcases cut : CommandLine.tokens line with failure | (_ | ⟨name, arguments⟩)
  · rw [cut] at member
    cases member
  · rw [cut] at member
    cases member
  rw [cut] at member
  dsimp only at member ⊢
  split at member
  next => cases member
  next named =>
    unfold executeRuns at member
    cases found : session.registry.find? name with
    | none =>
        rw [found] at member
        cases member
    | some command =>
        rw [found] at member
        obtain rfl := List.mem_singleton.mp member
        rw [if_neg named, execute_of_found found]
        exact ⟨rfl, rfl, name, rfl, found⟩

theorem done_of_runs_eq_nil {words : List String} (cut : CommandLine.tokens line = .ok words)
    (none : session.runLineRuns line = []) : (session.runLine line).1 = .done () := by
  unfold runLineRuns executeRuns at none
  unfold runLine
  rw [cut] at none ⊢
  rcases words with _ | ⟨name, arguments⟩
  · rfl
  dsimp only at none ⊢
  split
  next => rfl
  next named =>
    rw [if_neg named] at none
    cases found : session.registry.find? name with
    | none => rw [execute_of_not_found found]
    | some command =>
        rw [found] at none
        cases none

theorem runLine_of_malformed {failure : Failure}
    (failed : CommandLine.tokens line = .error failure) :
    session.runLine line = (.failed failure, session) := by
  rw [runLine, failed]

end Lines

/-- How a session proceeds from one command that is run to the next. -/
inductive Proceeds (before : Session) : List CommandRun → Session → Prop where
  | refl : Proceeds before [] before
  | wrote {runs : List CommandRun} {after : Session} (proceeded : Proceeds before runs after)
      (line : String) : Proceeds before runs (after.writeLine line)
  | edited {runs : List CommandRun} {after : Session} (proceeded : Proceeds before runs after)
      (editor : Editor) : Proceeds before runs { after with editor }
  | ran {runs : List CommandRun} {after : Session} (proceeded : Proceeds before runs after)
      {name : String} {command : Command} (found : after.registry.find? name = some command)
      (arguments : List String) :
      Proceeds before (runs ++ [{ session := after, command, arguments }])
        (CommandRun.settled { session := after, command, arguments }).2

section Proceeding

variable {before between after session : Session} {runs others : List CommandRun}

theorem Proceeds.trans (first : before.Proceeds runs between)
    (second : between.Proceeds others after) : before.Proceeds (runs ++ others) after := by
  induction second with
  | refl =>
      rw [List.append_nil]
      exact first
  | wrote _ line ih => exact ih.wrote line
  | edited _ editor ih => exact ih.edited editor
  | ran _ found arguments ih =>
      rw [← List.append_assoc]
      exact ih.ran found arguments

theorem proceeds_execute (session : Session) (name : String) (arguments : List String) :
    session.Proceeds (session.executeRuns name arguments)
      (session.execute name arguments).2 := by
  unfold executeRuns
  cases found : session.registry.find? name with
  | none =>
      rw [execute_of_not_found found]
      exact Proceeds.refl.wrote _
  | some command =>
      rw [execute_of_found found]
      exact Proceeds.refl.ran found arguments

theorem proceeds_runLine (session : Session) (line : String) :
    session.Proceeds (session.runLineRuns line) (session.runLine line).2 := by
  unfold runLine runLineRuns
  rcases CommandLine.tokens line with failure | (_ | ⟨name, arguments⟩)
  · exact .refl
  · exact .refl
  · dsimp only
    split
    · exact .refl
    · exact session.proceeds_execute name arguments

theorem proceeds_runReported (session : Session) (line : String) :
    session.Proceeds (session.runLineRuns line) (session.runReported line).2 := by
  have ran := session.proceeds_runLine line
  unfold runReported
  split
  next failure after result =>
    rw [result] at ran
    exact ran.wrote _
  next => exact ran

theorem proceeds_runLines (session : Session) (lines : List String) :
    session.Proceeds (session.runLinesRuns lines) (session.runLines lines).2 := by
  induction lines generalizing session with
  | nil => exact .refl
  | cons line rest ih =>
      have ran := session.proceeds_runReported line
      unfold runLines runLinesRuns
      rcases result : session.runReported line with ⟨value | failure | message, after⟩
      · rw [result] at ran
        exact ran.trans (ih after)
      · rw [result] at ran
        exact ran.trans .refl
      · rw [result] at ran
        exact ran.trans .refl

theorem proceeds_echoing (session : Session) (submission : Submission) :
    session.Proceeds [] (session.echoing submission) :=
  (Proceeds.refl.wrote submission.line).edited
    (session.editor.pushHistory submission.command)

theorem proceeds_submit (session : Session) (submission : Submission) :
    session.Proceeds ((session.echoing submission).runLineRuns submission.command)
      (session.submit submission).2 := by
  have ran := (session.proceeds_echoing submission).trans
    ((session.echoing submission).proceeds_runReported submission.command)
  rw [submit_eq]
  split
  next after result =>
    rw [echoing, result] at ran
    exact ran.edited _
  next => exact ran

theorem proceeds_handle (session : Session) (edit : Edit) :
    session.Proceeds (session.handleRuns edit) (session.handle edit).2 := by
  have edited : session.Proceeds [] { session with editor := session.editor.apply edit } :=
    Proceeds.refl.edited (session.editor.apply edit)
  unfold handle handleRuns
  cases submits : session.editor.submission? edit with
  | none => exact edited
  | some submission =>
      -- An edit that submits leaves the editor as it is until the command has run.
      have still : session.editor.apply edit = session.editor :=
        session.editor.apply_of_submission? submits
      simp only [still]
      exact session.proceeds_submit submission

theorem Proceeds.growsTo (proceeded : before.Proceeds runs after) :
    before.output.GrowsTo (runs.countP CommandRun.clears) after.output := by
  induction proceeded with
  | refl => exact .refl _
  | wrote _ line ih => exact ih.write (line ++ "\n")
  | edited _ editor ih => exact ih
  | @ran _ after _ _ command found arguments ih =>
      rw [List.countP_append, List.countP_singleton, CommandRun.output_settled]
      exact ih.trans (CommandRun.growsTo_told { session := after, command, arguments })

theorem Proceeds.exited_eq (proceeded : before.Proceeds runs after) :
    after.exited = (before.exited || runs.any CommandRun.exits) := by
  induction proceeded with
  | refl => exact (Bool.or_false _).symm
  | wrote _ line ih => exact ih
  | edited _ editor ih => exact ih
  | ran _ found arguments ih =>
      rw [CommandRun.settled_eq, List.any_append, ← Bool.or_assoc, ← ih]
      simp

end Proceeding

/-- The step: the output only grows, but for one clearing for each command whose end clears
it. -/
theorem growsTo_perform (session : Session) (operation : Operation) :
    session.output.GrowsTo ((session.runs operation).countP CommandRun.clears)
      (session.perform operation).2.output := by
  cases operation with
  | register command => exact .refl _
  | setFarewell farewell => exact .refl _
  | init routine =>
      rw [perform, output_invoke]
      exact (Output.GrowsTo.refl _).write _
  | runStartup => exact (session.proceeds_runLines _).growsTo
  | execute name arguments => exact (session.proceeds_execute name arguments).growsTo
  | runLine line => exact (session.proceeds_runLine line).growsTo
  | handle edit => exact (session.proceeds_handle edit).growsTo

/-- The run: the same over any operations. -/
theorem growsTo_performAll (session : Session) (operations : List Operation) :
    session.output.GrowsTo ((session.runsAll operations).countP CommandRun.clears)
      (session.performAll operations).output := by
  induction operations generalizing session with
  | nil => exact .refl _
  | cons operation rest ih =>
      rw [runsAll, List.countP_append]
      exact (session.growsTo_perform operation).trans (ih _)

end Session

end CommandShell
