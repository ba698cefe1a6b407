import CommandShell.Demo
import CommandShell.Session

/-!
# Runs of sessions

A session is driven by operations, one after the other, and goes on after an
operation that fails or panics.  Commands see the workspace only while they are
invoked; the moments of an operation are the states of the workspace before, between
and after the calls of everything that it invokes.

Whatever an operation does to a session, it does by a few kinds of steps: it writes to
the output, changes the editor, or invokes a command that is registered.
`Session.Evolves` says so once, and a property that these steps keep holds throughout a
run.
-/

namespace CommandShell

/-- A state of the workspace inside an invocation, and the number of its process. -/
structure Moment where
  process : ProcessId
  workspace : Workspace

/-- The handles that the running command is told to be open. -/
def Moment.openHandles (moment : Moment) : List Handle :=
  moment.workspace.openHandles moment.process

namespace Workspace

variable {α : Type}

/-- The moments of a run, from before the first call to after the last one. -/
def moments (surroundings : Surroundings) : Routine α → Workspace → List Moment
  | .call request next, workspace =>
      let (reply, after) := workspace.perform surroundings request
      ⟨surroundings.process, workspace⟩ :: moments surroundings (next reply) after
  | .done _, workspace => [⟨surroundings.process, workspace⟩]
  | .fail _, workspace => [⟨surroundings.process, workspace⟩]
  | .panic _, workspace => [⟨surroundings.process, workspace⟩]

/-- The moments of an invocation. -/
def invokeMoments (workspace : Workspace) (history : List String)
    (commands : List CommandInfo) (routine : Routine α) : List Moment :=
  let (process, processes) := workspace.processes.start
  moments { process, history, commands } routine { workspace with processes }

/-- The last moment of a run is what the run leaves behind. -/
theorem run_mem_moments (surroundings : Surroundings) (routine : Routine α)
    (workspace : Workspace) :
    ⟨surroundings.process, (run surroundings routine workspace).2⟩ ∈
      moments surroundings routine workspace := by
  induction routine generalizing workspace with
  | done value => exact List.mem_singleton_self _
  | fail failure => exact List.mem_singleton_self _
  | panic message => exact List.mem_singleton_self _
  | call request next ih => exact List.mem_cons_of_mem _ (ih _ _)

/-- What the first moment has and every call keeps, all moments have. -/
theorem forall_moments {good : Moment → Prop} {surroundings : Surroundings}
    (kept : ∀ workspace request, good ⟨surroundings.process, workspace⟩ →
      good ⟨surroundings.process, (workspace.perform surroundings request).2⟩)
    (routine : Routine α) {workspace : Workspace}
    (first : good ⟨surroundings.process, workspace⟩) :
    ∀ moment ∈ moments surroundings routine workspace, good moment := by
  induction routine generalizing workspace with
  | done value => simpa [moments] using first
  | fail failure => simpa [moments] using first
  | panic message => simpa [moments] using first
  | call request next ih =>
      intro moment member
      rcases List.mem_cons.mp member with rfl | later
      · exact first
      · exact ih _ (kept workspace request first) moment later

/-- Whether every invocation of a routine keeps a property of workspaces. -/
def KeptBy (holds : Workspace → Prop) (routine : Routine α) : Prop :=
  ∀ workspace history commands, holds workspace →
    holds (workspace.invoke history commands routine).2

end Workspace

theorem Registry.find?_register (registry : Registry) (command : Command) (name : String) :
    (registry.register command).find? name =
      if command.name = name then some command else registry.find? name :=
  NameMap.find?_insert _ _ _ _

/-- What a response does to the output of a session with a farewell. -/
def Response.change (farewell : Option Farewell) : Response → Output → Output
  | .text line, output => output.writeLine line
  | .silent, output => output
  | .clear, output => output.clear
  | .exit, output =>
      match farewell with
      | none => output
      | some said => said.write output

namespace Session

/-- A new session stands in its home, and nothing has been told in it. -/
theorem exists_eq_of_new {config : Config} {session : Session}
    (created : new config = .ok session) :
    ∃ tree, session =
      { workspace := .new (Path.resolve "/" config.home) tree
        registry := Registry.empty.registerAll Builtins.all
        editor := .new (promptFor config (Path.resolve "/" config.home)) config.historyLimit
        config := config
        farewell := none
        exited := false } := by
  simp only [new] at created
  split at created
  next => cases created
  next => exact ⟨_, (Except.ok.inj created).symm⟩

/-- A response changes the output and tells whether the session has ended, and nothing else. -/
theorem respond_eq (session : Session) (response : Response) :
    session.respond response =
      { session with
        exited := session.exited || response = .exit
        workspace := session.workspace.mapOutput (response.change session.farewell) } := by
  cases response with
  | exit =>
      unfold respond Response.change
      cases session.farewell <;> simp [Workspace.mapOutput]
  | text | silent | clear => simp [respond, Response.change, writeLine, Workspace.mapOutput]

/-- The end of a command that was invoked. -/
def settle (session : Session) : Outcome Response → Outcome Unit × Session
  | .done response => (.done (), session.respond response)
  | .failed failure =>
      if failure.isUserFacing then (.done (), session.writeLine failure.message)
      else (.failed failure, session)
  | .panicked message => (.panicked message, session)

/-- Either something is responded, or the session is left as it is. -/
theorem settle_cases (outcome : Outcome Response) :
    (∃ response, ∀ session : Session,
      session.settle outcome = (.done (), session.respond response)) ∨
      ∃ ended, ended ≠ .done () ∧ ∀ session : Session,
        session.settle outcome = (ended, session) := by
  cases outcome with
  | done response => exact .inl ⟨response, fun session => rfl⟩
  | failed failure =>
      by_cases told : failure.isUserFacing = true
      · exact .inl ⟨.text failure.message, fun session => if_pos told⟩
      · exact .inr ⟨.failed failure, nofun, fun session => if_neg told⟩
  | panicked message => exact .inr ⟨.panicked message, nofun, fun session => rfl⟩

theorem execute_of_not_found {session : Session} {name : String}
    (unknown : session.registry.find? name = none) (arguments : List String) :
    session.execute name arguments =
      (.done (), session.writeLine (Failure.commandNotFound name).message) := by
  rw [execute, unknown]

theorem execute_of_found {session : Session} {name : String} {command : Command}
    (found : session.registry.find? name = some command) (arguments : List String) :
    session.execute name arguments =
      (session.invoke (command.body arguments)).2.settle
        (session.invoke (command.body arguments)).1 := by
  simp only [execute, found]
  rcases session.invoke (command.body arguments) with ⟨response | failure | message, after⟩
  · rfl
  · rfl
  · rfl

open Workspace (KeptBy)

/-- What can be done to a session from outside. -/
inductive Operation where
  | register (command : Command)
  | setFarewell (farewell : Farewell)
  | init (routine : Routine Unit)
  | runStartup
  | execute (name : String) (arguments : List String)
  | runLine (line : String)
  | handle (edit : Edit)

/-- The outcome of an operation, and the session after it. -/
def perform (session : Session) : Operation → Outcome Unit × Session
  | .register command => (.done (), session.register command)
  | .setFarewell farewell => (.done (), { session with farewell := some farewell })
  | .init routine => session.invoke routine
  | .runStartup => session.runStartup
  | .execute name arguments => session.execute name arguments
  | .runLine line => session.runLine line
  | .handle edit => session.handle edit

/-- The session after operations one after the other, whatever their outcomes. -/
def performAll (session : Session) (operations : List Operation) : Session :=
  operations.foldl (fun reached operation => (reached.perform operation).2) session

section Moments

def invokeMoments {α : Type} (session : Session) (routine : Routine α) : List Moment :=
  session.workspace.invokeMoments session.editor.history session.registry.infos routine

def executeMoments (session : Session) (name : String) (arguments : List String) :
    List Moment :=
  match session.registry.find? name with
  | none => []
  | some command => session.invokeMoments (command.body arguments)

def runLineMoments (session : Session) (line : String) : List Moment :=
  match CommandLine.tokens line with
  | .error _ => []
  | .ok [] => []
  | .ok (name :: arguments) =>
      if name = "" then [] else session.executeMoments name arguments

def runLinesMoments (session : Session) : List String → List Moment
  | [] => []
  | line :: rest =>
      session.runLineMoments line ++
        match session.runReported line with
        | (.done (), after) => after.runLinesMoments rest
        | _ => []

def submitMoments (session : Session) (submission : Submission) : List Moment :=
  let echoed := session.writeLine submission.line
  if submission.command = "" then []
  else
    let remembered := { echoed with editor := echoed.editor.pushHistory submission.command }
    remembered.runLineMoments submission.command

def handleMoments (session : Session) (edit : Edit) : List Moment :=
  match session.editor.submission? edit with
  | none => []
  | some submission =>
      { session with editor := session.editor.apply edit }.submitMoments submission

/-- The moments of everything that an operation invokes. -/
def moments (session : Session) : Operation → List Moment
  | .register _ => []
  | .setFarewell _ => []
  | .init routine => session.invokeMoments routine
  | .runStartup => session.runLinesMoments session.config.startup
  | .execute name arguments => session.executeMoments name arguments
  | .runLine line => session.runLineMoments line
  | .handle edit => session.handleMoments edit

end Moments

/-- How a session changes in the course of an operation, with the moments of the
commands that are invoked on the way. -/
inductive Evolves (before : Session) : List Moment → Session → Prop where
  | refl : Evolves before [] before
  | output {moments : List Moment} {after : Session} (evolved : Evolves before moments after)
      (change : Output → Output) :
      Evolves before moments { after with workspace := after.workspace.mapOutput change }
  | editor {moments : List Moment} {after : Session} (evolved : Evolves before moments after)
      (editor : Editor) : Evolves before moments { after with editor }
  | exit {moments : List Moment} {after : Session} (evolved : Evolves before moments after) :
      Evolves before moments { after with exited := true }
  | invoke {moments : List Moment} {after : Session} (evolved : Evolves before moments after)
      {name : String} {command : Command} (found : after.registry.find? name = some command)
      (arguments : List String) :
      Evolves before (moments ++ after.invokeMoments (command.body arguments))
        (after.invoke (command.body arguments)).2

section Evolution

variable {before between after session : Session} {moments others : List Moment}

theorem Evolves.trans (first : before.Evolves moments between)
    (second : between.Evolves others after) : before.Evolves (moments ++ others) after := by
  induction second with
  | refl =>
      rw [List.append_nil]
      exact first
  | output _ change ih => exact ih.output change
  | editor _ editor ih => exact ih.editor editor
  | exit _ ih => exact ih.exit
  | invoke _ found arguments ih =>
      rw [← List.append_assoc]
      exact ih.invoke found arguments

theorem Evolves.writeLine (evolved : before.Evolves moments after) (text : String) :
    before.Evolves moments (after.writeLine text) :=
  evolved.output _

theorem Evolves.newLine (evolved : before.Evolves moments after) :
    before.Evolves moments after.newLine :=
  evolved.editor _

theorem Evolves.respond (evolved : before.Evolves moments after) (response : Response) :
    before.Evolves moments (after.respond response) := by
  rw [respond_eq]
  by_cases ends : response = .exit
  · simp only [ends, decide_true, Bool.or_true]
    exact evolved.exit.output _
  · simp only [ends, decide_false, Bool.or_false]
    exact evolved.output _

theorem Evolves.settle (evolved : before.Evolves moments after) (outcome : Outcome Response) :
    before.Evolves moments (after.settle outcome).2 := by
  rcases settle_cases outcome with ⟨response, settled⟩ | ⟨ended, -, settled⟩
  · rw [settled]
    exact evolved.respond response
  · rw [settled]
    exact evolved

theorem evolves_execute (session : Session) (name : String) (arguments : List String) :
    session.Evolves (session.executeMoments name arguments)
      (session.execute name arguments).2 := by
  unfold executeMoments
  cases found : session.registry.find? name with
  | none =>
      rw [execute_of_not_found found]
      exact Evolves.refl.writeLine _
  | some command =>
      rw [execute_of_found found]
      exact (Evolves.refl.invoke found arguments).settle _

theorem evolves_runLine (session : Session) (line : String) :
    session.Evolves (session.runLineMoments line) (session.runLine line).2 := by
  unfold Session.runLine runLineMoments
  rcases CommandLine.tokens line with failure | (_ | ⟨name, arguments⟩)
  · exact .refl
  · exact .refl
  · dsimp only
    split
    · exact .refl
    · exact session.evolves_execute name arguments

theorem evolves_runReported (session : Session) (line : String) :
    session.Evolves (session.runLineMoments line) (session.runReported line).2 := by
  have ran := session.evolves_runLine line
  unfold Session.runReported
  split
  next failure after result =>
    rw [result] at ran
    exact ran.writeLine _
  next => exact ran

theorem evolves_runLines (session : Session) (lines : List String) :
    session.Evolves (session.runLinesMoments lines) (session.runLines lines).2 := by
  induction lines generalizing session with
  | nil => exact .refl
  | cons line rest ih =>
      have ran := session.evolves_runReported line
      unfold Session.runLines runLinesMoments
      rcases result : session.runReported line with ⟨value | failure | message, after⟩
      · rw [result] at ran
        exact ran.trans (ih after)
      · rw [result] at ran
        exact ran.trans .refl
      · rw [result] at ran
        exact ran.trans .refl

theorem evolves_submit (session : Session) (submission : Submission) :
    session.Evolves (session.submitMoments submission) (session.submit submission).2 := by
  have echoed : session.Evolves [] (session.writeLine submission.line) :=
    Evolves.refl.writeLine submission.line
  unfold Session.submit submitMoments
  dsimp only
  split
  · exact echoed.newLine
  · have remembered := echoed.editor
      ((session.writeLine submission.line).editor.pushHistory submission.command)
    have ran := remembered.trans (evolves_runReported _ submission.command)
    split
    next after result =>
      rw [result] at ran
      exact ran.newLine
    next => exact ran

theorem evolves_handle (session : Session) (edit : Edit) :
    session.Evolves (session.handleMoments edit) (session.handle edit).2 := by
  have edited : session.Evolves [] { session with editor := session.editor.apply edit } :=
    Evolves.refl.editor (session.editor.apply edit)
  unfold Session.handle handleMoments
  cases session.editor.submission? edit with
  | none => exact edited
  | some submission => exact edited.trans (evolves_submit _ submission)

end Evolution

/-- Whether a property of workspaces holds in a session and is kept by its commands. -/
structure Upholds (holds : Workspace → Prop) (session : Session) : Prop where
  now : holds session.workspace
  commands : ∀ {name : String} {command : Command},
    session.registry.find? name = some command →
      ∀ arguments, KeptBy holds (command.body arguments)

/-- Whether the routines that an operation brings along keep a property. -/
def Operation.Upholds (holds : Workspace → Prop) : Operation → Prop
  | register command => ∀ arguments, KeptBy holds (command.body arguments)
  | init routine => KeptBy holds routine
  | _ => True

section Preservation

variable {holds : Workspace → Prop} {session after : Session} {moments : List Moment}

theorem Upholds.register (upholds : session.Upholds holds) {command : Command}
    (kept : ∀ arguments, KeptBy holds (command.body arguments)) :
    (session.register command).Upholds holds := by
  refine ⟨upholds.now, ?_⟩
  intro name found entry
  rw [Session.register, Registry.find?_register] at entry
  split at entry
  next => exact Option.some.inj entry ▸ kept
  next => exact upholds.commands entry

variable (silent : ∀ workspace change, holds workspace → holds (workspace.mapOutput change))

include silent

theorem Evolves.upholds (evolved : session.Evolves moments after)
    (upholds : session.Upholds holds) : after.Upholds holds := by
  induction evolved with
  | refl => exact upholds
  | output _ change ih => exact ⟨silent _ change ih.now, ih.commands⟩
  | editor _ editor ih => exact ⟨ih.now, ih.commands⟩
  | exit _ ih => exact ⟨ih.now, ih.commands⟩
  | invoke _ found arguments ih =>
      exact ⟨ih.commands found arguments _ _ _ ih.now, ih.commands⟩

theorem Upholds.perform (upholds : session.Upholds holds) {operation : Operation}
    (kept : operation.Upholds holds) : (session.perform operation).2.Upholds holds := by
  cases operation with
  | register command => exact upholds.register kept
  | setFarewell farewell => exact ⟨upholds.now, upholds.commands⟩
  | init routine => exact ⟨kept _ _ _ upholds.now, upholds.commands⟩
  | runStartup => exact (session.evolves_runLines _).upholds silent upholds
  | execute name arguments =>
      exact (session.evolves_execute name arguments).upholds silent upholds
  | runLine line => exact (session.evolves_runLine line).upholds silent upholds
  | handle edit => exact (session.evolves_handle edit).upholds silent upholds

theorem Upholds.performAll (upholds : session.Upholds holds) {operations : List Operation}
    (kept : ∀ operation ∈ operations, operation.Upholds holds) :
    (session.performAll operations).Upholds holds := by
  induction operations generalizing session with
  | nil => exact upholds
  | cons operation rest ih =>
      have performed := upholds.perform silent (kept operation List.mem_cons_self)
      exact ih performed fun other member => kept other (List.mem_cons_of_mem _ member)

variable {good : Moment → Prop}
variable (begun : ∀ {α : Type} (routine : Routine α) workspace history commands,
  holds workspace → ∀ moment ∈ workspace.invokeMoments history commands routine, good moment)

include begun

theorem Evolves.forall_moments (evolved : session.Evolves moments after)
    (upholds : session.Upholds holds) : ∀ moment ∈ moments, good moment := by
  induction evolved with
  | refl => simp
  | output _ change ih => exact ih
  | editor _ editor ih => exact ih
  | exit _ ih => exact ih
  | invoke evolved found arguments ih =>
      intro moment member
      rcases List.mem_append.mp member with earlier | here
      · exact ih moment earlier
      · exact begun _ _ _ _ (evolved.upholds silent upholds).now moment here

/-- If every invocation that begins well has good moments only, an operation in a
session that upholds the beginning has good moments only. -/
theorem forall_moments (upholds : session.Upholds holds) (operation : Operation) :
    ∀ moment ∈ session.moments operation, good moment := by
  cases operation with
  | register command => simp [Session.moments]
  | setFarewell farewell => simp [Session.moments]
  | init routine => exact begun _ _ _ _ upholds.now
  | runStartup => exact (session.evolves_runLines _).forall_moments silent begun upholds
  | execute name arguments =>
      exact (session.evolves_execute name arguments).forall_moments silent begun upholds
  | runLine line => exact (session.evolves_runLine line).forall_moments silent begun upholds
  | handle edit => exact (session.evolves_handle edit).forall_moments silent begun upholds

end Preservation

end Session

end CommandShell
