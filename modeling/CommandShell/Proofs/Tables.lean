import CommandShell.Processes
import CommandShell.Proofs.SlotNumbers

/-!
# Tables of handles and processes

What binding, closing, starting and finishing do to the tables, read off through the
lookups of handles and records.
-/

namespace CommandShell

namespace Handles

variable {handles : Handles} {node : NodeId} {handle other : Handle}

theorem node_eq_ok_iff :
    handles.node handle = .ok node ↔ handles.slots.get? handle = some node := by
  unfold Handles.node
  cases handles.slots.get? handle <;> simp

theorem isOpen_iff : handles.isOpen handle ↔ ∃ node, handles.node handle = .ok node := by
  simp only [node_eq_ok_iff, isOpen, Option.isSome_iff_exists]

theorem isOpen_bind_fresh : handles.isOpen (handles.bind node).1 = false := by
  rw [isOpen, bind, Slots.get?_lowestFree]
  rfl

theorem get?_bind : (handles.bind node).2.slots.get? other =
    if other = (handles.bind node).1 then some node else handles.slots.get? other :=
  Slots.get?_occupy _ _ _

theorem node_bind : (handles.bind node).2.node other =
    if other = (handles.bind node).1 then .ok node else handles.node other := by
  rw [Handles.node, get?_bind]
  by_cases given : other = (handles.bind node).1
  · rw [if_pos given, if_pos given]
  · rw [if_neg given, if_neg given, Handles.node]

theorem node_bind_self :
    (handles.bind node).2.node (handles.bind node).1 = .ok node := by
  rw [node_bind, if_pos rfl]

theorem count_bind : (handles.bind node).2.count = handles.count + 1 :=
  Slots.count_occupy _ _

theorem isOpen_bind : (handles.bind node).2.isOpen other ↔
    handles.isOpen other ∨ other = (handles.bind node).1 := by
  rw [isOpen, get?_bind, isOpen]
  split
  next same => simp [same]
  next different => simp [different]

theorem get?_close : (handles.close handle).2.slots.get? other =
    if handle = other then none else handles.slots.get? other :=
  Slots.get?_release _ _ _

theorem isOpen_close : (handles.close handle).2.isOpen other ↔
    handles.isOpen other ∧ other ≠ handle := by
  rw [isOpen, get?_close, isOpen]
  split
  next same => simp [same]
  next different => simp [Ne.symm different]

theorem node_close : (handles.close handle).2.node other =
    if other = handle then .error (.invalidHandle other) else handles.node other := by
  rw [Handles.node, get?_close]
  by_cases same : other = handle
  · rw [if_pos same.symm, if_pos same]
  · rw [if_neg (Ne.symm same), if_neg same, Handles.node]

/-- Closing a handle that is not open does not even change the slots. -/
theorem close_of_free (free : handles.slots.get? handle = none) :
    (handles.close handle).2 = handles :=
  congrArg Handles.mk (Slots.release_of_free free)

/-- Closing handles one after the other closes these and no others. -/
theorem get?_foldl_close (closed : List Handle) :
    (closed.foldl (fun reached handle => (reached.close handle).2) handles).slots.get? other =
      if other ∈ closed then none else handles.slots.get? other := by
  induction closed generalizing handles with
  | nil => simp
  | cons first rest ih =>
      rw [List.foldl_cons, ih, get?_close]
      by_cases isFirst : other = first
      · simp [isFirst]
      · simp [isFirst, Ne.symm isFirst]

end Handles

namespace Processes

variable {processes : Processes} {id other : ProcessId}

theorem get?_start : processes.start.2.get? other =
    if other = processes.start.1 then some { id := processes.start.1, handles := [] }
    else processes.get? other :=
  Slots.get?_occupy _ _ _

theorem get?_opened (handle : Handle) : (processes.opened id handle).get? other =
    if id = other then (processes.get? other).map (·.opened handle)
    else processes.get? other :=
  Slots.get?_modify _ _ _ _

theorem get?_closed (handle : Handle) : (processes.closed id handle).get? other =
    if id = other then (processes.get? other).map (·.closed handle)
    else processes.get? other :=
  Slots.get?_modify _ _ _ _

theorem get?_finish : (processes.finish id).2.get? other =
    if id = other then none else processes.get? other :=
  Slots.get?_release _ _ _

section Free

variable (free : processes.get? id = none)

include free

theorem opened_of_free (handle : Handle) : processes.opened id handle = processes :=
  congrArg Processes.mk (Slots.modify_of_free free _)

theorem closed_of_free (handle : Handle) : processes.closed id handle = processes :=
  congrArg Processes.mk (Slots.modify_of_free free _)

theorem finish_of_free : (processes.finish id).2 = processes :=
  congrArg Processes.mk (Slots.release_of_free free)

end Free

theorem count_eq_zero_iff : processes.count = 0 ↔ ∀ id, processes.get? id = none :=
  Slots.count_eq_zero_iff

end Processes

end CommandShell
