/-!
# Slot tables

A slot table hands out small numbers.  A new value takes the lowest number that
is free, and a released number becomes free again.  The table is read through
`Slots.get?`; free slots that earlier values have left behind do not show.
-/

namespace CommandShell

/-- Values under small numbers, with free slots in between. -/
structure Slots (α : Type) where
  cells : List (Option α)
  deriving DecidableEq, Repr

namespace Slots

variable {α : Type}

/-- The table in which every number is free. -/
def empty : Slots α where
  cells := []

instance : Inhabited (Slots α) := ⟨empty⟩

/-- The value under a number, if the number is taken. -/
def get? (slots : Slots α) (index : Nat) : Option α :=
  slots.cells[index]?.join

/-- The lowest free number. -/
def lowestFree (slots : Slots α) : Nat :=
  slots.cells.findIdx Option.isNone

/-- Put a value under the lowest free number. -/
def occupy (slots : Slots α) (value : α) : Slots α where
  cells :=
    if slots.lowestFree < slots.cells.length then
      slots.cells.set slots.lowestFree (some value)
    else slots.cells ++ [some value]

/-- Change the value under a number that is taken. -/
def modify (slots : Slots α) (index : Nat) (change : α → α) : Slots α where
  cells := slots.cells.modify index (Option.map change)

/-- Make a number free. -/
def release (slots : Slots α) (index : Nat) : Slots α where
  cells := slots.cells.set index none

/-- How many numbers are taken. -/
def count (slots : Slots α) : Nat :=
  slots.cells.countP Option.isSome

@[simp]
theorem get?_empty (index : Nat) : (empty : Slots α).get? index = none := rfl

theorem lowestFree_le_length (slots : Slots α) :
    slots.lowestFree ≤ slots.cells.length :=
  List.findIdx_le_length

@[simp]
theorem get?_lowestFree (slots : Slots α) : slots.get? slots.lowestFree = none := by
  rw [get?]
  cases found : slots.cells[slots.lowestFree]? with
  | none => rfl
  | some cell =>
      obtain ⟨inside, atIndex⟩ := List.getElem?_eq_some_iff.mp found
      have free : (slots.cells[slots.lowestFree]).isNone := List.findIdx_getElem
      rw [atIndex, Option.isNone_iff_eq_none] at free
      rw [free]
      rfl

/-- Every number below the lowest free one is taken. -/
theorem get?_isSome_of_lt_lowestFree {slots : Slots α} {index : Nat}
    (below : index < slots.lowestFree) : (slots.get? index).isSome := by
  have inside : index < slots.cells.length :=
    Nat.lt_of_lt_of_le below slots.lowestFree_le_length
  have taken : (slots.cells[index]).isNone = false :=
    List.not_of_lt_findIdx below
  rw [get?, List.getElem?_eq_getElem inside]
  cases cell : slots.cells[index] with
  | none => simp [cell] at taken
  | some value => rfl

theorem get?_occupy (slots : Slots α) (value : α) (index : Nat) :
    (slots.occupy value).get? index =
      if index = slots.lowestFree then some value else slots.get? index := by
  have bound := slots.lowestFree_le_length
  simp only [occupy, get?]
  split
  next inside =>
    rw [List.getElem?_set]
    by_cases same : slots.lowestFree = index
    · simp [same, same ▸ inside]
    · simp [same, Ne.symm same]
  next outside =>
    have atEnd : slots.lowestFree = slots.cells.length := by omega
    rw [List.getElem?_append, atEnd]
    by_cases same : index = slots.cells.length
    · simp [same]
    · by_cases inside : index < slots.cells.length
      · simp [same, inside]
      · have beyond : index - slots.cells.length ≠ 0 := by omega
        simp [same, inside, beyond]

theorem get?_modify (slots : Slots α) (index other : Nat) (change : α → α) :
    (slots.modify index change).get? other =
      if index = other then (slots.get? other).map change else slots.get? other := by
  simp only [modify, get?, List.getElem?_modify]
  split
  next => cases slots.cells[other]? <;> rfl
  next => simp

theorem get?_release (slots : Slots α) (index other : Nat) :
    (slots.release index).get? other =
      if index = other then none else slots.get? other := by
  simp only [release, get?, List.getElem?_set]
  split
  next => split <;> rfl
  next => rfl

/-- The lowest free number depends on the numbers that are taken and on nothing
else. -/
theorem lowestFree_congr {left right : Slots α}
    (agree : ∀ index, (left.get? index).isSome = (right.get? index).isSome) :
    left.lowestFree = right.lowestFree := by
  rcases Nat.lt_trichotomy left.lowestFree right.lowestFree with below | same | above
  · have taken := agree left.lowestFree
    rw [get?_isSome_of_lt_lowestFree below, get?_lowestFree] at taken
    simp at taken
  · exact same
  · have taken := agree right.lowestFree
    rw [get?_isSome_of_lt_lowestFree above, get?_lowestFree] at taken
    simp at taken

theorem count_eq_zero_iff {slots : Slots α} :
    slots.count = 0 ↔ ∀ index, slots.get? index = none := by
  rw [count, List.countP_eq_zero]
  constructor
  · intro free index
    rw [get?]
    cases found : slots.cells[index]? with
    | none => rfl
    | some cell =>
        have isFree := free cell (List.mem_of_getElem? found)
        cases cell with
        | none => rfl
        | some value => exact absurd rfl isFree
  · intro free cell member taken
    obtain ⟨index, atIndex⟩ := List.mem_iff_getElem?.mp member
    have isFree := free index
    rw [get?, atIndex] at isFree
    cases cell with
    | none => simp at taken
    | some value => simp at isFree

end Slots

end CommandShell
