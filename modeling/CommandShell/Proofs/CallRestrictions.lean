import CommandShell.Workspace

/-!
# Routines that ask for some calls only

A routine is a tree of calls, and which calls it can ask for does not depend on the
replies that it gets.  What all of these calls keep, every run of the routine keeps.
-/

namespace CommandShell

namespace Routine

variable {α β : Type} {allowed : Call → Prop}

/-- Whether every call in a routine is an allowed one. -/
def AsksOnly (allowed : Call → Prop) : Routine α → Prop
  | done _ => True
  | fail _ => True
  | panic _ => True
  | call request next => allowed request ∧ ∀ reply, (next reply).AsksOnly allowed

theorem AsksOnly.pure (value : α) : (pure value : Routine α).AsksOnly allowed :=
  trivial

theorem AsksOnly.ask {request : Call} (isAllowed : allowed request) :
    (ask request).AsksOnly allowed :=
  ⟨isAllowed, fun _ => trivial⟩

theorem AsksOnly.ofExcept (outcome : Except Failure α) :
    (ofExcept outcome).AsksOnly allowed := by
  cases outcome with
  | ok value => trivial
  | error failure => trivial

theorem AsksOnly.bind {routine : Routine α} {next : α → Routine β}
    (first : routine.AsksOnly allowed) (later : ∀ value, (next value).AsksOnly allowed) :
    (routine >>= next).AsksOnly allowed := by
  induction routine with
  | done value => exact later value
  | fail failure => trivial
  | panic message => trivial
  | call request resume ih => exact ⟨first.1, fun reply => ih reply (first.2 reply)⟩

theorem AsksOnly.imp {others : Call → Prop} (weaker : ∀ request, allowed request → others request)
    {routine : Routine α} (restricted : routine.AsksOnly allowed) : routine.AsksOnly others := by
  induction routine with
  | done value => trivial
  | fail failure => trivial
  | panic message => trivial
  | call request resume ih =>
      exact ⟨weaker request restricted.1, fun reply => ih reply (restricted.2 reply)⟩

theorem AsksOnly.forM {items : List α} {action : α → Routine PUnit}
    (each : ∀ item, (action item).AsksOnly allowed) : (items.forM action).AsksOnly allowed := by
  induction items with
  | nil => trivial
  | cons item rest ih => exact (each item).bind fun _ => ih

end Routine

namespace Workspace

variable {α : Type} {allowed : Call → Prop} {holds : Workspace → Prop}

theorem run_of_asksOnly {surroundings : Surroundings}
    (kept : ∀ workspace request, allowed request → holds workspace →
      holds (workspace.perform surroundings request).2)
    {routine : Routine α} (restricted : routine.AsksOnly allowed) {workspace : Workspace}
    (before : holds workspace) : holds (run surroundings routine workspace).2 := by
  induction routine generalizing workspace with
  | done value => exact before
  | fail failure => exact before
  | panic message => exact before
  | call request next ih => exact ih _ (restricted.2 _) (kept _ _ restricted.1 before)

end Workspace

end CommandShell
