import CommandShell.Proofs.CommandRuns
import CommandShell.Proofs.Tokens
import Mathlib.Logic.ExistsUnique

/-!
# What comes of a command line

A command line is blank, or it cannot be cut into words, or nobody knows its first word, or
the command registered last under its first word is run with the other words.  Exactly one
of these is the case, and each is told on the output in its own way, once.
-/

namespace CommandShell

/-- Whether a command is the last one of its name. -/
def IsLast (name : String) (command : Command) (commands : List Command) : Prop :=
  ∃ earlier later, commands = earlier ++ command :: later ∧ command.name = name ∧
    ∀ other ∈ later, other.name ≠ name

namespace Registry

theorem find?_registerAll_cases (registry : Registry) (commands : List Command)
    (name : String) :
    (∃ command, IsLast name command commands ∧
      (registry.registerAll commands).find? name = some command) ∨
      (∀ command ∈ commands, command.name ≠ name) ∧
        (registry.registerAll commands).find? name = registry.find? name := by
  induction commands generalizing registry with
  | nil => exact .inr ⟨by simp, rfl⟩
  | cons first rest ih =>
      rcases ih (registry.register first) with ⟨command, isLast, found⟩ | ⟨unnamed, same⟩
      · obtain ⟨earlier, later, split, named⟩ := isLast
        exact .inl ⟨command, ⟨first :: earlier, later, congrArg _ split, named⟩, found⟩
      · rw [find?_register] at same
        by_cases named : first.name = name
        · rw [if_pos named] at same
          exact .inl ⟨first, ⟨[], rest, rfl, named, unnamed⟩, same⟩
        · rw [if_neg named] at same
          exact .inr ⟨List.forall_mem_cons.mpr ⟨named, unnamed⟩, same⟩

theorem find?_registerAll_of_isLast {name : String} {command : Command}
    {commands : List Command} (isLast : IsLast name command commands) (registry : Registry) :
    (registry.registerAll commands).find? name = some command := by
  obtain ⟨earlier, later, rfl, named, unnamed⟩ := isLast
  have before : registry.registerAll (earlier ++ command :: later) =
      ((registry.registerAll earlier).register command).registerAll later :=
    List.foldl_append
  rw [before]
  rcases find?_registerAll_cases ((registry.registerAll earlier).register command) later name
    with ⟨other, ⟨front, back, rfl, otherNamed, -⟩, -⟩ | ⟨-, same⟩
  · exact absurd otherNamed (unnamed other (by simp))
  · rw [same, find?_register, if_pos named]

end Registry

/-- What a command line is to the commands that are registered. -/
inductive Dispatch where
  | blank
  | malformed (failure : Failure)
  | unknown (name : String)
  | run (command : Command) (arguments : List String)

/-- Whether a command line has a dispatch, if commands have been registered one after the
other. -/
inductive Dispatches (commands : List Command) (line : String) : Dispatch → Prop where
  | blank (noWord : line = "" ∨ CommandLine.tokens line = .ok []) :
      Dispatches commands line .blank
  | malformed {failure : Failure} (failed : CommandLine.tokens line = .error failure) :
      Dispatches commands line (.malformed failure)
  | unknown {name : String} {arguments : List String} (nonempty : line ≠ "")
      (words : CommandLine.tokens line = .ok (name :: arguments))
      (unnamed : ∀ command ∈ commands, command.name ≠ name) :
      Dispatches commands line (.unknown name)
  | run {name : String} {arguments : List String} {command : Command} (nonempty : line ≠ "")
      (words : CommandLine.tokens line = .ok (name :: arguments))
      (isLast : IsLast name command commands) :
      Dispatches commands line (.run command arguments)

/-- What a command line is, as a registry finds it. -/
def Registry.dispatch (registry : Registry) (line : String) : Dispatch :=
  match CommandLine.tokens line with
  | .error failure => .malformed failure
  | .ok [] => .blank
  | .ok (name :: arguments) =>
      if line = "" then .blank
      else
        match registry.find? name with
        | none => .unknown name
        | some command => .run command arguments

namespace Dispatches

variable {commands : List Command} {line : String} {dispatch : Dispatch}

theorem dispatch_registerAll (commands : List Command) (line : String) :
    Dispatches commands line ((Registry.empty.registerAll commands).dispatch line) := by
  unfold Registry.dispatch
  rcases cut : CommandLine.tokens line with failure | (_ | ⟨name, arguments⟩)
  · exact .malformed cut
  · exact .blank (.inr cut)
  · dsimp only
    split
    next empty => exact .blank (.inl empty)
    next nonempty =>
      rcases Registry.empty.find?_registerAll_cases commands name with
        ⟨command, isLast, found⟩ | ⟨unnamed, unknown⟩
      · rw [found]
        exact .run nonempty cut isLast
      · rw [unknown]
        exact .unknown nonempty cut unnamed

theorem eq_dispatch (dispatches : Dispatches commands line dispatch) :
    dispatch = (Registry.empty.registerAll commands).dispatch line := by
  unfold Registry.dispatch
  cases dispatches with
  | blank noWord =>
      rcases noWord with rfl | none
      · rfl
      · rw [none]
  | malformed failed => rw [failed]
  | @unknown name _ nonempty words unnamed =>
      rcases Registry.empty.find?_registerAll_cases commands name with
        ⟨command, ⟨earlier, later, rfl, named, -⟩, -⟩ | ⟨-, unknown⟩
      · exact absurd named (unnamed command (by simp))
      · simp only [words, if_neg nonempty, unknown]
        rfl
  | run nonempty words isLast =>
      simp only [words, if_neg nonempty, Registry.find?_registerAll_of_isLast isLast]

/-- A line has exactly one dispatch. -/
theorem existsUnique (commands : List Command) (line : String) :
    ∃! dispatch, Dispatches commands line dispatch :=
  ⟨_, dispatch_registerAll commands line, fun _ dispatches => dispatches.eq_dispatch⟩

end Dispatches

namespace Session

/-- What comes of running a command line.  A line that runs no command changes nothing but
for the report of an unknown name.  A command is run once, and what is told of it stands
behind what it has printed. -/
def Answers (session : Session) (line : String) : Dispatch → Prop
  | .blank => session.runs (.runLine line) = [] ∧ session.runLine line = (.done (), session)
  | .malformed failure =>
      session.runs (.runLine line) = [] ∧ session.runLine line = (.failed failure, session)
  | .unknown name =>
      session.runs (.runLine line) = [] ∧
        session.runLine line = (.done (), session.writeLine ("command not found: " ++ name))
  | .run command arguments =>
      let run : CommandRun := { session, command, arguments }
      session.runs (.runLine line) = [run] ∧
        session.runLine line =
          (run.told.1,
            { run.ended with
              exited := session.exited || run.exits
              workspace := { run.ended.workspace with output := run.told.2 } })

theorem answers_dispatch (session : Session) (line : String) :
    session.Answers line (session.registry.dispatch line) := by
  unfold Registry.dispatch
  rcases cut : CommandLine.tokens line with failure | (_ | ⟨name, arguments⟩)
  · simp only [Answers, runs, runLineRuns, runLine, cut, and_self]
  · simp only [Answers, runs, runLineRuns, runLine, cut, and_self]
  by_cases empty : line = ""
  · subst empty
    exact ⟨rfl, rfl⟩
  -- A session asks for an empty first word, which only an empty line has.
  have named : name ≠ "" := CommandLine.ne_empty_of_tokens empty cut name List.mem_cons_self
  cases found : session.registry.find? name with
  | none =>
      simp only [if_neg empty, found, Answers, runs, runLineRuns, runLine, cut, if_neg named,
        executeRuns, execute_of_not_found found, true_and]
      rfl
  | some command =>
      simp only [if_neg empty, found, Answers, runs, runLineRuns, runLine, cut, if_neg named,
        executeRuns, execute_of_found found, true_and]
      exact CommandRun.settled_eq { session, command, arguments }

section Registration

/-- The command that an operation registers, if it registers one. -/
def Operation.registered? : Operation → Option Command
  | .register command => some command
  | _ => none

theorem Proceeds.registry_eq {before after : Session} {runs : List CommandRun}
    (proceeded : before.Proceeds runs after) : after.registry = before.registry := by
  induction proceeded with
  | refl => rfl
  | wrote _ line ih => exact ih
  | edited _ editor ih => exact ih
  | ran _ found arguments ih =>
      rw [CommandRun.settled_eq]
      exact ih

theorem registry_perform (session : Session) (operation : Operation) :
    (session.perform operation).2.registry =
      session.registry.registerAll operation.registered?.toList := by
  cases operation with
  | register command => rfl
  | setFarewell farewell => rfl
  | init routine => rfl
  | runStartup => exact (session.proceeds_runLines _).registry_eq
  | execute name arguments => exact (session.proceeds_execute name arguments).registry_eq
  | runLine line => exact (session.proceeds_runLine line).registry_eq
  | handle edit => exact (session.proceeds_handle edit).registry_eq

theorem registry_performAll (session : Session) (operations : List Operation) :
    (session.performAll operations).registry =
      session.registry.registerAll (operations.filterMap Operation.registered?) := by
  induction operations generalizing session with
  | nil => rfl
  | cons operation rest ih =>
      refine (ih _).trans ?_
      rw [registry_perform, List.filterMap_cons]
      cases operation.registered? <;> rfl

theorem registry_new {config : Config} {session : Session}
    (created : new config = .ok session) :
    session.registry = Registry.empty.registerAll Builtins.all := by
  obtain ⟨tree, rfl⟩ := exists_eq_of_new created
  rfl

/-- The commands that a session knows after some operations, in the order in which they have
been registered. -/
def known (operations : List Operation) : List Command :=
  Builtins.all ++ operations.filterMap Operation.registered?

theorem registry_eq_known {config : Config} {created : Session}
    (begun : new config = .ok created) (operations : List Operation) :
    (created.performAll operations).registry = Registry.empty.registerAll (known operations) := by
  rw [registry_performAll, registry_new begun, known]
  exact List.foldl_append.symm

end Registration

/-- Everything is told once, and nothing that was told is lost before the next clearing.
After any operations on a new session, whatever commands are registered, later operations
clear the output as often as they run a command whose end clears it, and as long as the epoch
is the same the earlier text stands in front of the later one.  And a command line is exactly
one of four things, each with one answer. -/
theorem dispatched_once (config : Config) :
    ∃ created, new config = .ok created ∧ ∀ operations : List Operation,
      let session := created.performAll operations
      (∀ later : List Operation,
        let after := session.performAll later
        after.output.epoch =
            session.output.epoch + (session.runsAll later).countP CommandRun.clears ∧
          (after.output.epoch = session.output.epoch →
            ∃ written, after.output.text = session.output.text ++ written)) ∧
        ∀ line, (∃! dispatch, Dispatches (known operations) line dispatch) ∧
          ∀ dispatch, Dispatches (known operations) line dispatch →
            session.Answers line dispatch := by
  obtain ⟨created, begun, -⟩ := exists_new config
  refine ⟨created, begun, fun operations => ⟨fun later => ?_, fun line => ?_⟩⟩
  · have grown := (created.performAll operations).growsTo_performAll later
    exact ⟨grown.epoch, grown.exists_written⟩
  · refine ⟨Dispatches.existsUnique _ line, fun dispatch dispatches => ?_⟩
    rw [dispatches.eq_dispatch, ← registry_eq_known begun operations]
    exact answers_dispatch _ line

end Session

end CommandShell
