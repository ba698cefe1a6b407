import CommandShell.Proofs.SlotNumbers
import CommandShell.Proofs.Tables

/-!
# The table of handles as a map

Seen from outside, a table of handles is a map from numbers to nodes.  A number stands for the
node of the latest binding that was given the number, unless it has been closed since, and a
new binding is given the lowest number that stands for nothing.  So no number that is ever
given out reaches the greatest count of handles that were open at one time.
-/

namespace CommandShell

namespace Handles

/-- What can be asked of a table of handles. -/
inductive Request where
  | bind (node : NodeId)
  | close (handle : Handle)
  | node (handle : Handle)
  | isOpen (handle : Handle)
  deriving DecidableEq, Repr

/-- A request with the reply to it. -/
inductive Event where
  | bound (node : NodeId) (given : Handle)
  | closed (handle : Handle) (wasOpen : Bool)
  | looked (handle : Handle) (reply : Except Failure NodeId)
  | asked (handle : Handle) (reply : Bool)

namespace Event

/-- Whether a handle has come to be open. -/
def opens : Event → Bool
  | bound _ _ => true
  | _ => false

/-- Whether a handle that was open has been closed. -/
def closes : Event → Bool
  | closed _ wasOpen => wasOpen
  | _ => false

end Event

def answer (handles : Handles) : Request → Event × Handles
  | .bind node => (.bound node (handles.bind node).1, (handles.bind node).2)
  | .close handle => (.closed handle (handles.close handle).1, (handles.close handle).2)
  | .node handle => (.looked handle (handles.node handle), handles)
  | .isOpen handle => (.asked handle (handles.isOpen handle), handles)

/-- A new table after requests, the latest of them first. -/
def after : List Request → Handles
  | [] => empty
  | request :: earlier => ((after earlier).answer request).2

/-- What happens at a new table in the course of requests, the latest of them first. -/
def events : List Request → List Event
  | [] => []
  | request :: earlier => ((after earlier).answer request).1 :: events earlier

/-- The greatest count of handles that are open at one time in the course of requests. -/
def peak : List Request → Nat
  | [] => 0
  | request :: earlier => max (after (request :: earlier)).count (peak earlier)

/-- The node that a number stands for after events, the latest of them first. -/
def standing (handle : Handle) : List Event → Option NodeId
  | [] => none
  | event :: earlier =>
      match event with
      | .bound node given => if given = handle then some node else standing handle earlier
      | .closed other _ => if other = handle then none else standing handle earlier
      | _ => standing handle earlier

/-- The reply to the question for the node behind a number. -/
def reply (handle : Handle) : Option NodeId → Except Failure NodeId
  | some node => .ok node
  | none => .error (.invalidHandle handle)

/-- Whether a table is the map that events have made, and hands out its lowest free number. -/
structure IsMapAfter (events : List Event) (handles : Handles) : Prop where
  node : ∀ handle, handles.node handle = reply handle (standing handle events)
  isOpen : ∀ handle, handles.isOpen handle = (standing handle events).isSome
  bind_free : ∀ node, standing (handles.bind node).1 events = none
  bind_lowest : ∀ node, ∀ lower < (handles.bind node).1, standing lower events ≠ none
  bind_le_count : ∀ node, (handles.bind node).1 ≤ handles.count
  node_bind : ∀ node other, (handles.bind node).2.node other =
    if other = (handles.bind node).1 then .ok node else handles.node other
  close : ∀ handle, (handles.close handle).1 = (standing handle events).isSome
  node_close : ∀ handle other, (handles.close handle).2.node other =
    if other = handle then .error (.invalidHandle other) else handles.node other
  close_free : ∀ handle, standing handle events = none → (handles.close handle).2 = handles
  count : handles.count + events.countP Event.closes = events.countP Event.opens
  /-- What is counted are the numbers that stand for something. -/
  count_card : ∃ numbers : Finset Handle,
    (∀ handle, handle ∈ numbers ↔ standing handle events ≠ none) ∧
      handles.count = numbers.card

section Answers

variable {handles : Handles} {handle : Handle}

theorem node_eq_reply (handles : Handles) (handle : Handle) :
    handles.node handle = reply handle (handles.slots.get? handle) := by
  rw [node]
  cases handles.slots.get? handle <;> rfl

/-- The step: what the numbers stand for changes as the reply says. -/
theorem get?_answer {earlier : List Event}
    (stands : ∀ other, handles.slots.get? other = standing other earlier) (request : Request)
    (other : Handle) :
    (handles.answer request).2.slots.get? other =
      standing other ((handles.answer request).1 :: earlier) := by
  cases request with
  | bind node =>
      rw [answer, standing, get?_bind, stands]
      by_cases same : other = (handles.bind node).1
      · rw [if_pos same, if_pos same.symm]
      · rw [if_neg same, if_neg (Ne.symm same)]
  | close handle => rw [answer, standing, get?_close, stands]
  | node handle => exact stands other
  | isOpen handle => exact stands other

theorem count_answer (handles : Handles) (request : Request) :
    (handles.answer request).2.count + (if (handles.answer request).1.closes then 1 else 0) =
      handles.count + if (handles.answer request).1.opens then 1 else 0 := by
  cases request with
  | bind node => exact count_bind
  | close handle =>
      show (handles.close handle).2.count + (if handles.isOpen handle then 1 else 0) =
        handles.count
      split
      next isOpen => exact Slots.count_release isOpen
      next notOpen =>
        have free : handles.slots.get? handle = none := by
          rwa [isOpen, Option.not_isSome_iff_eq_none] at notOpen
        rw [close_of_free free]
        rfl
  | node handle => rfl
  | isOpen handle => rfl

end Answers

section Runs

/-- The run: a number leads to what it stands for after all that has happened. -/
theorem get?_after (requests : List Request) (handle : Handle) :
    (after requests).slots.get? handle = standing handle (events requests) := by
  induction requests generalizing handle with
  | nil => rfl
  | cons request earlier ih => exact get?_answer ih request handle

theorem count_after (requests : List Request) :
    (after requests).count + (events requests).countP Event.closes =
      (events requests).countP Event.opens := by
  induction requests with
  | nil => rfl
  | cons request earlier ih =>
      have step := (after earlier).count_answer request
      rw [after, events, List.countP_cons, List.countP_cons]
      omega

theorem isMapAfter_events (requests : List Request) :
    (after requests).IsMapAfter (events requests) := by
  have stands := get?_after requests
  exact
    { node := fun handle => by rw [node_eq_reply, stands]
      isOpen := fun handle => by rw [isOpen, stands]
      bind_free := fun node => (stands _).symm.trans (Slots.get?_lowestFree _)
      bind_lowest := fun node lower below => by
        rw [← stands, ← Option.isSome_iff_ne_none]
        exact Slots.get?_isSome_of_lt_lowestFree below
      bind_le_count := fun node => Slots.lowestFree_le_count _
      node_bind := fun _ _ => node_bind
      close := fun handle => congrArg Option.isSome (stands handle)
      node_close := fun _ _ => node_close
      close_free := fun handle free => close_of_free ((stands handle).trans free)
      count := count_after requests
      count_card := by
        refine ⟨(after requests).slots.taken, fun handle => ?_, (Slots.card_taken _).symm⟩
        rw [Slots.mem_taken, stands, Option.isSome_iff_ne_none] }

/-- A number that is given out was below the count from then on. -/
theorem lt_peak_of_bound {requests : List Request} {node : NodeId} {given : Handle}
    (member : .bound node given ∈ events requests) : given < peak requests := by
  induction requests with
  | nil => cases member
  | cons request earlier ih =>
      rw [peak]
      rcases List.mem_cons.mp member with latest | before
      · cases request with
        | bind node =>
            cases latest
            calc
              ((after earlier).bind node).1 ≤ (after earlier).count :=
                Slots.lowestFree_le_count _
              _ < ((after earlier).bind node).2.count := by
                rw [count_bind]
                exact Nat.lt_succ_self _
              _ ≤ _ := le_max_left _ _
        | close handle | node handle | isOpen handle => cases latest
      · exact lt_of_lt_of_le (ih before) (le_max_right _ _)

end Runs

/-- A table of handles is a map that hands out its lowest free number.  After any requests to a
new table a number leads to the node of the latest binding that was given it, unless it has
been closed since; a binding gets the lowest number that stands for nothing; closing tells
whether the number stood for something and unbinds this number alone; and the count is that of
the bindings less the closings of open handles.  Every number that was given out is below the
greatest count of handles that have been open at one time. -/
theorem is_lowest_free_map (requests : List Request) :
    (after requests).IsMapAfter (events requests) ∧
      ∀ node given, .bound node given ∈ events requests → given < peak requests :=
  ⟨isMapAfter_events requests, fun _ _ => lt_peak_of_bound⟩

-- A closed number is given out again before a new one.
example :
    let requests : List Request := [.bind 5, .bind 3, .close 0, .close 0, .bind 8, .bind 7]
    ([0, 1, 2].map fun handle => standing handle (events requests), peak requests) =
      ([some 3, some 8, some 5], 3) := by
  decide

end Handles

end CommandShell
