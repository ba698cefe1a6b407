import CommandShell.Proofs.Echoes
import CommandShell.Proofs.InputLines

/-!
# Conversations on a console

A console prints the prompt in front of every line and the response behind it, until a
command ends the session or the input ends.  Where the configuration has no line end in it,
every prompt is a single line, and so the response is all that running the line has written
and nothing else.  What a console prints for a whole input is therefore the dialogue that the
session itself carries on with its lines.
-/

namespace CommandShell

theorem Editor.command_reset (editor : Editor) (prompt : String) :
    (editor.reset prompt).command = "" := by
  rw [command, promptLength, reset, ← String.length_toList, List.drop_length]

namespace Session

/-- Whether a text is the response to a line: what running the line has written behind its
echo, or, if that has cleared the output, the control sequence that empties the screen and
what was written since. -/
def Responds (session : Session) (line answer : String) : Prop :=
  let echoed := session.echoed line
  let reached := (echoed.runReported line).2.output
  if reached.epoch = session.output.epoch then reached.text = echoed.output.text ++ answer
  else answer = Console.clearScreen ++ reached.text

theorem output_newLine (session : Session) : session.newLine.output = session.output := rfl

theorem exited_newLine (session : Session) : session.newLine.exited = session.exited := rfl

/-- The session on its new line when a typed line has been run. -/
def continued (session : Session) (line : String) : Session :=
  ((session.echoed line).runReported line).2.newLine

/-- What is printed in the course of a session that is given lines, if it is known whether a
command has ended it already. -/
inductive Dialogue : Session → Bool → List String → List String → Prop where
  | ended (session : Session) (lines : List String) : Dialogue session true lines []
  | closed (session : Session) : Dialogue session false [] [session.editor.prompt, "\n"]
  | line {session : Session} {line answer : String} {rest printed : List String}
      (answered : session.Responds line answer)
      (later : Dialogue (session.continued line)
        (((session.echoed line).runLineRuns line).any CommandRun.exits) rest printed) :
      Dialogue session false (line :: rest) (session.editor.prompt :: answer :: printed)

section AtPrompt

variable {session : Session} {line : String}

theorem KnowsBuiltins.done_of_runReported (knows : session.KnowsBuiltins) (line : String) :
    (session.runReported line).1 = .done () := by
  unfold runReported
  cases cut : CommandLine.tokens line with
  | error failure => rw [runLine_of_malformed cut]
  | ok words =>
      have done := knows.done_of_tokens cut
      rcases ran : session.runLine line with ⟨outcome, after⟩
      rw [ran] at done
      obtain rfl := done
      rfl

/-- Whether a session waits for a line behind a prompt without line ends. -/
structure AtPrompt (session : Session) : Prop where
  written : session.IsWrittenIn (· ≠ '\n')
  represented : ∃ zipper : Zipper, zipper.Represents session.editor
  blank : session.editor.command = ""

namespace AtPrompt

theorem text_eq (ready : session.AtPrompt) : session.editor.text = session.editor.prompt := by
  obtain ⟨zipper, represents⟩ := ready.represented
  have same := represents.withCommand_empty ready.blank
  rw [← same]
  simp [Editor.text, Editor.withCommand]

theorem enter_eq (ready : session.AtPrompt) (line : String) :
    session.enter line = (.done (), session.continued line) := by
  obtain ⟨zipper, represents⟩ := ready.represented
  have knows : (session.echoed line).KnowsBuiltins := ready.written.knows
  rcases enter_cases represents ready.blank line with ⟨-, entered⟩ | ⟨undone, -⟩
  · exact entered
  · exact absurd (knows.done_of_runReported line) undone

/-- The step: behind a line without line ends comes a prompt without line ends. -/
theorem continued (ready : session.AtPrompt) (plain : '\n' ∉ line.toList) :
    (session.continued line).AtPrompt where
  written := by
    have slash : '/' ≠ '\n' := by decide
    have lineWritten : WrittenIn (· ≠ '\n') line := fun char member same => plain (same ▸ member)
    have echoed : (session.echoed line).IsWrittenIn (· ≠ '\n') :=
      ready.written.echoing lineWritten
    exact (echoed.runReported slash lineWritten).newLine slash
  represented := by
    obtain ⟨zipper, represents⟩ := ready.represented
    let prompt := ((session.echoed line).runReported line).2.prompt
    have shown : (session.continued line).editor =
        session.editor.performAll [.pushHistory line, .reset prompt] :=
      congrArg (·.reset prompt) ((session.echoed line).editor_runReported line)
    rw [shown]
    exact ⟨_, represents.performAll _⟩
  blank := Editor.command_reset _ _

end AtPrompt

theorem exited_continued (running : session.exited = false) :
    (session.continued line).exited =
      ((session.echoed line).runLineRuns line).any CommandRun.exits := by
  have proceeded := ((session.echoed line).proceeds_runReported line).exited_eq
  have echoed : (session.echoed line).exited = false := running
  rw [continued, exited_newLine, proceeded, echoed, Bool.false_or]

end AtPrompt

end Session

namespace Console

open Session

variable {session : Session} {line : String}

/-- The console that has printed all that its session has told so far. -/
def upToDate (session : Session) : Console where
  session := session
  reader := .atEnd session.output

/-- A console prints the response to a line, and is up to date then. -/
theorem enter_upToDate (ready : session.AtPrompt) (plain : '\n' ∉ line.toList) :
    ∃ answer, session.Responds line answer ∧
      (upToDate session).enter line = (answer, upToDate (session.continued line)) := by
  have output : (session.continued line).output =
      ((session.echoed line).runReported line).2.output := output_newLine _
  unfold enter catchUp upToDate Responds
  simp only [ready.enter_eq, output]
  rcases session.poll_echoed line with ⟨same, written, added, polled⟩ | ⟨cleared, polled⟩
  · refine ⟨written, ?_, ?_⟩
    · rw [if_pos same]
      exact added
    · have answer := (afterEcho_echo_iff plain written).mpr ready.written.single_prompt
      simp only [polled, response, answer, Bool.false_eq_true, if_false]
  · refine ⟨clearScreen ++ ((session.echoed line).runReported line).2.output.text, ?_, ?_⟩
    · rw [if_neg cleared]
    · simp only [polled, response, if_true]

theorem interact_of_exited (exited : session.exited = true) (lines : List (Option String)) :
    (upToDate session).interact lines = { printed := [], completed := true } := by
  cases lines <;> exact if_pos exited

/-- The run: a console that is up to date prints the dialogue of its session. -/
theorem interact_upToDate (ready : session.AtPrompt) {lines : List String}
    (plain : ∀ line ∈ lines, '\n' ∉ line.toList) :
    ∃ printed, (upToDate session).interact (lines.map some) = { printed, completed := true } ∧
      Dialogue session session.exited lines printed := by
  induction lines generalizing session with
  | nil =>
      cases exited : session.exited with
      | true => exact ⟨[], interact_of_exited exited _, .ended session []⟩
      | false =>
          have running : (upToDate session).session.exited = false := exited
          have shown : (upToDate session).prompt = session.editor.prompt := ready.text_eq
          refine ⟨[session.editor.prompt, "\n"], ?_, .closed session⟩
          simp only [List.map_nil, interact, running, shown, Bool.false_eq_true, if_false]
  | cons line rest ih =>
      obtain ⟨here, later⟩ := List.forall_mem_cons.mp plain
      cases exited : session.exited with
      | true => exact ⟨[], interact_of_exited exited _, .ended session _⟩
      | false =>
          have running : (upToDate session).session.exited = false := exited
          have shown : (upToDate session).prompt = session.editor.prompt := ready.text_eq
          obtain ⟨answer, responds, entered⟩ := enter_upToDate ready here
          obtain ⟨printed, interacted, dialogue⟩ := ih (ready.continued here) later
          rw [exited_continued exited] at dialogue
          refine ⟨session.editor.prompt :: answer :: printed, ?_, .line responds dialogue⟩
          simp only [List.map_cons, interact, running, shown, entered, interacted,
            Bool.false_eq_true, if_false]

end Console

theorem Call.printed_of_isQuiet {request : Call} (quiet : request.IsQuiet) :
    request.printed = "" := by
  cases request with
  | print text | printLine text => exact quiet.elim
  | _ => rfl

theorem Session.output_invoke_of_quiet {α : Type} {routine : Routine α}
    (quiet : routine.AsksOnly Call.IsQuiet) (session : Session) :
    (session.invoke routine).2.output = session.output := by
  have kept (reached : Workspace) (request : Call) (isQuiet : request.IsQuiet)
      (same : reached.output = session.output) :
      (reached.perform session.invocation.surroundings request).2.output = session.output := by
    rw [reached.output_perform, Call.printed_of_isQuiet isQuiet, Output.write_empty, same]
  have ran : (Workspace.run session.invocation.surroundings routine
      session.invocation.begun).2.output = session.output :=
    Workspace.run_of_asksOnly kept quiet rfl
  rw [Session.output, invoke, Workspace.invoke_eq, Workspace.output_reclaim]
  exact ran

theorem Session.exited_invoke {α : Type} (session : Session) (routine : Routine α) :
    (session.invoke routine).2.exited = session.exited := rfl

namespace Console

open Session

/-- The session in which the startup lines are run: that with the demonstration files if the
configuration asks for them. -/
def seeding (config : Config) (created : Session) : Outcome Unit × Session :=
  if config.seedDemoFiles then created.invoke Demo.seed else (.done (), created)

section Start

variable {config : Config} {created seeded : Session}

theorem seeding_eq (seeds : seeding config created = (.done (), seeded)) :
    seeded.output = created.output ∧ seeded.exited = created.exited := by
  unfold seeding at seeds
  split at seeds
  · have reached : (created.invoke Demo.seed).2 = seeded := congrArg Prod.snd seeds
    rw [← reached]
    exact ⟨created.output_invoke_of_quiet quiet_seed, created.exited_invoke Demo.seed⟩
  · cases seeds
    exact ⟨rfl, rfl⟩

theorem isWrittenIn_seeding {alphabet : Char → Prop} (written : created.IsWrittenIn alphabet)
    (seeds : seeding config created = (.done (), seeded)) : seeded.IsWrittenIn alphabet := by
  unfold seeding at seeds
  split at seeds
  · have reached : (created.invoke Demo.seed).2 = seeded := congrArg Prod.snd seeds
    rw [← reached]
    exact written.invoke staysPut_seed
  · cases seeds
    exact written

/-- The text that a console begins with is all that the startup lines have left on the
output. -/
theorem start_eq (begun : Session.new config = .ok created)
    (seeds : seeding config created = (.done (), seeded)) :
    start config = .done (seeded.runStartup.2.output.text, upToDate seeded.runStartup.2) := by
  have grown := (seeded.proceeds_runLines seeded.config.startup).growsTo
  have silent : seeded.output.text = "" := by
    obtain ⟨tree, rfl⟩ := exists_eq_of_new begun
    exact congrArg Output.text (seeding_eq seeds).1
  have greeting : ((Reader.atEnd seeded.output).poll seeded.runStartup.2.output).1.text =
      seeded.runStartup.2.output.text := by
    -- Nothing was told before the startup lines, so all that is there now is new.
    by_cases same : seeded.runStartup.2.output.epoch = seeded.output.epoch
    · obtain ⟨written, added⟩ := grown.exists_written same
      have told : seeded.runStartup.2.output.text = seeded.output.text ++ written := added
      rw [Reader.poll_atEnd_of_epoch_eq same told, told, silent, String.empty_append]
    · rw [Reader.poll_of_epoch_ne same]
  unfold seeding at seeds
  unfold start
  rw [begun]
  dsimp only
  rw [seeds]
  exact congrArg (fun text => Outcome.done (text, upToDate seeded.runStartup.2)) greeting

theorem atPrompt_started (begun : Session.new config = .ok created)
    (plain : config.IsWrittenIn (· ≠ '\n'))
    (seeds : seeding config created = (.done (), seeded)) : seeded.runStartup.2.AtPrompt := by
  have slash : '/' ≠ '\n' := by decide
  have ready := isWrittenIn_seeding (isWrittenIn_new slash plain begun) seeds
  have editor : seeded.runStartup.2.editor = created.editor :=
    (seeded.editor_runLines seeded.config.startup).trans (untouched_of_seeding seeds).1
  refine ⟨ready.runLines slash ready.config.startup, ?_, ?_⟩
  · rw [editor]
    exact exists_represents_new begun
  · obtain ⟨tree, rfl⟩ := exists_eq_of_new begun
    rw [editor]
    exact Editor.command_reset _ _

theorem exited_started (begun : Session.new config = .ok created)
    (seeds : seeding config created = (.done (), seeded)) :
    seeded.runStartup.2.exited = (seeded.runs .runStartup).any CommandRun.exits := by
  obtain ⟨tree, rfl⟩ := exists_eq_of_new begun
  have running := (seeding_eq seeds).2
  have proceeded := (seeded.proceeds_runLines seeded.config.startup).exited_eq
  rw [running, Bool.false_or] at proceeded
  exact proceeded

end Start

/-- A console prints everything once.  For every configuration without line ends and every
text, if the demonstration files can be created or are not asked for, the exchange comes to
its regular end.  It begins with what the startup lines have left on the output, and goes on
with the dialogue of the session and the lines of the text. -/
theorem run_prints_dialogue (config : Config) (plain : config.IsWrittenIn (· ≠ '\n')) :
    ∃ created, Session.new config = .ok created ∧
      ∀ seeded, seeding config created = (.done (), seeded) → ∀ input : String,
        ∃ printed,
          run (.ok config) input.toUTF8.data.toList =
            { printed := seeded.runStartup.2.output.text :: printed, completed := true } ∧
          Dialogue seeded.runStartup.2 ((seeded.runs .runStartup).any CommandRun.exits)
            (linesOf input) printed := by
  obtain ⟨created, begun, -⟩ := exists_new config
  refine ⟨created, begun, fun seeded seeds input => ?_⟩
  have lines : ∀ line ∈ linesOf input, '\n' ∉ line.toList :=
    fun _ => lineEnd_not_mem_of_mem_linesOf
  obtain ⟨printed, interacted, dialogue⟩ :=
    interact_upToDate (atPrompt_started begun plain seeds) lines
  rw [exited_started begun seeds] at dialogue
  refine ⟨printed, ?_, dialogue⟩
  simp only [run, start_eq begun seeds, inputLines_toUTF8, interacted]

/-- A session that welcomes its user. -/
def welcoming : Config := { promptSuffix := "> ", startup := ["echo welcome"] }

/-- Lines that look around and end the session before the input ends. -/
def lookingAround : String := "cd friends\nls\r\nclear\nexit\npwd\n"

/-- What is printed in response to them. -/
def lookedAround : List String :=
  ["home> ", "", "friends> ", "Rachael\n", "friends> ", clearScreen, "friends> ", ""]

theorem run_prints_dialogue_lookingAround :
    welcoming.IsWrittenIn (· ≠ '\n') ∧ ∃ created, Session.new welcoming = .ok created ∧
      (seeding welcoming created).1 = .done () ∧
      run (.ok welcoming) lookingAround.toUTF8.data.toList =
        { printed := "welcome\n" :: lookedAround, completed := true } ∧
      Dialogue (seeding welcoming created).2.runStartup.2 false (linesOf lookingAround)
        lookedAround := by
  have plain : welcoming.IsWrittenIn (· ≠ '\n') := ⟨by decide, by decide, by decide⟩
  obtain ⟨created, begun, always⟩ := run_prints_dialogue welcoming plain
  have evaluated : (seeding welcoming created).1 = .done () ∧
      (((seeding welcoming created).2.runs .runStartup).any CommandRun.exits) = false := by
    have made : Session.new welcoming = .ok _ := rfl
    obtain rfl := Except.ok.inj (made.symm.trans begun)
    decide +kernel
  have shown : run (.ok welcoming) lookingAround.toUTF8.data.toList =
      { printed := "welcome\n" :: lookedAround, completed := true } := by
    decide +kernel
  obtain ⟨seeds, running⟩ := evaluated
  have seeded : seeding welcoming created = (.done (), (seeding welcoming created).2) := by
    rw [← seeds]
  obtain ⟨printed, ran, dialogue⟩ := always _ seeded lookingAround
  have talk : printed = lookedAround :=
    (List.cons.inj (congrArg Transcript.printed (ran.symm.trans shown))).2
  rw [running, talk] at dialogue
  exact ⟨plain, created, begun, seeds, shown, dialogue⟩

end Console

end CommandShell
