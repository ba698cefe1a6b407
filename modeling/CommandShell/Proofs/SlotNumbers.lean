import CommandShell.Slots
import Mathlib.Data.Finset.Card

/-!
# How many numbers are taken

The lowest free number is at most the count of the numbers that are taken, because every
number below it is one of them.  So a table whose numbers are handed out lowest first never
hands out one as large as the greatest count that it has had.  A change under a free number, or
its release, leaves the table as it is.
-/

namespace CommandShell

namespace Slots

variable {α : Type} {slots : Slots α} {index : Nat}

/-- The numbers that are taken. -/
def taken (slots : Slots α) : Finset Nat :=
  (Finset.range slots.cells.length).filter fun index => (slots.get? index).isSome

theorem mem_taken : index ∈ slots.taken ↔ (slots.get? index).isSome := by
  rw [taken, Finset.mem_filter, Finset.mem_range, and_iff_right_iff_imp]
  intro isTaken
  by_contra outside
  rw [get?, List.getElem?_eq_none (Nat.le_of_not_lt outside)] at isTaken
  cases isTaken

theorem taken_concat (front : List (Option α)) (last : Option α) :
    (Slots.mk (front ++ [last])).taken =
      if last.isSome then insert front.length (Slots.mk front).taken
      else (Slots.mk front).taken := by
  ext index
  have inFront : (Slots.mk front).get? front.length = none := by simp [get?]
  rcases Nat.lt_trichotomy index front.length with inside | rfl | outside
  · cases last <;> simp [mem_taken, get?, List.getElem?_append_left inside, Nat.ne_of_lt inside]
  · cases last <;> simp [mem_taken, get?]
  · have beyond : (front ++ [last]).length ≤ index := by
      rw [List.length_append, List.length_singleton]
      omega
    cases last <;> simp [mem_taken, get?, List.getElem?_eq_none beyond, Nat.ne_of_gt outside,
      List.getElem?_eq_none (Nat.le_of_lt outside)]

/-- The count is the number of the numbers that are taken. -/
theorem card_taken (slots : Slots α) : slots.taken.card = slots.count := by
  obtain ⟨cells⟩ := slots
  induction cells using List.reverseRecOn with
  | nil => rfl
  | append_singleton front last ih =>
      have fresh : front.length ∉ (Slots.mk front).taken := by simp [mem_taken, get?]
      rw [count] at ih ⊢
      rw [taken_concat, List.countP_append, List.countP_singleton, ← ih]
      split
      · exact Finset.card_insert_of_notMem fresh
      · rfl

theorem lowestFree_le_count (slots : Slots α) : slots.lowestFree ≤ slots.count := by
  have below : Finset.range slots.lowestFree ⊆ slots.taken := by
    intro index member
    exact mem_taken.mpr (get?_isSome_of_lt_lowestFree (Finset.mem_range.mp member))
  rw [← card_taken, ← Finset.card_range slots.lowestFree]
  exact Finset.card_le_card below

theorem count_occupy (slots : Slots α) (value : α) :
    (slots.occupy value).count = slots.count + 1 := by
  have fresh : slots.lowestFree ∉ slots.taken := by simp [mem_taken]
  have added : (slots.occupy value).taken = insert slots.lowestFree slots.taken := by
    ext index
    rw [mem_taken, get?_occupy, Finset.mem_insert, mem_taken]
    by_cases same : index = slots.lowestFree <;> simp [same]
  rw [← card_taken, added, Finset.card_insert_of_notMem fresh, card_taken]

theorem count_release (isTaken : (slots.get? index).isSome) :
    (slots.release index).count + 1 = slots.count := by
  have removed : (slots.release index).taken = slots.taken.erase index := by
    ext other
    rw [mem_taken, get?_release, Finset.mem_erase, mem_taken]
    by_cases same : index = other
    · simp [same]
    · simp [same, Ne.symm same]
  rw [← card_taken, removed, Finset.card_erase_add_one (mem_taken.mpr isTaken), card_taken]

/-- If one number is taken and no other, the count is one. -/
theorem count_eq_one {value : α}
    (alone : ∀ other, slots.get? other = if other = index then some value else none) :
    slots.count = 1 := by
  have taken : slots.get? index = some value := by rw [alone, if_pos rfl]
  have released : (slots.release index).count = 0 := by
    apply count_eq_zero_iff.mpr
    intro other
    rw [get?_release, alone]
    split
    next => rfl
    next different => rw [if_neg (Ne.symm different)]
  rw [← count_release (Option.isSome_of_eq_some taken), released]

section Free

variable (free : slots.get? index = none)

include free

theorem cell_of_free {cell : Option α} (found : slots.cells[index]? = some cell) :
    cell = none := by
  rw [get?, found] at free
  exact free

theorem release_of_free : slots.release index = slots := by
  have same : slots.cells.set index none = slots.cells := by
    by_cases inside : index < slots.cells.length
    · rw [← cell_of_free free (List.getElem?_eq_getElem inside), List.set_getElem_self]
    · exact List.set_eq_of_length_le (Nat.le_of_not_lt inside)
  exact congrArg Slots.mk same

theorem modify_of_free (change : α → α) : slots.modify index change = slots := by
  have same : slots.cells.modify index (Option.map change) = slots.cells := by
    apply List.ext_getElem?
    intro other
    rw [List.getElem?_modify]
    split
    next here =>
      subst here
      cases found : slots.cells[index]? with
      | none => rfl
      | some cell =>
          rw [cell_of_free free found]
          rfl
    next => exact Option.map_id'
  exact congrArg Slots.mk same

end Free

end Slots

end CommandShell
