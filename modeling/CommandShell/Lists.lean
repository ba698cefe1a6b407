/-!
# Facts on lists

The value under a key, lists that are cut in two or in pieces, edits where the
front of a list ends, and the reading of every item.
-/

namespace List

variable {α β : Type}

theorem lookup_cons_eq_if [BEq α] (key : α) (first : α × β) (rest : List (α × β)) :
    (first :: rest).lookup key =
      if key == first.1 then some first.2 else rest.lookup key := by
  rw [lookup_cons]
  cases key == first.1 <;> rfl

/-- An element of two lists in a row stands in one of them. -/
theorem cases_of_append_eq_append_cons {left right front back : List α} {here : α}
    (split : left ++ right = front ++ here :: back) :
    (∃ skipped, front = left ++ skipped ∧ right = skipped ++ here :: back) ∨
      ∃ rest, left = front ++ here :: rest ∧ back = rest ++ right := by
  rcases append_eq_append_iff.mp split with ⟨skipped, rfl, tail⟩ | ⟨inside, rfl, tail⟩
  · exact .inl ⟨skipped, rfl, tail⟩
  · rcases cons_eq_append_iff.mp tail with ⟨rfl, rfl⟩ | ⟨rest, rfl, rfl⟩
    · exact .inl ⟨[], by simp, rfl⟩
    · exact .inr ⟨rest, rfl, rfl⟩

theorem singleton_eq_append_cons_iff {only here : α} {front back : List α} :
    [only] = front ++ here :: back ↔ front = [] ∧ here = only ∧ back = [] := by
  rw [singleton_eq_append_iff]
  simp

/-- A piece of a list that is split at a separator is a part of the list without it. -/
theorem infix_and_not_mem_of_mem_splitOn [BEq α] [LawfulBEq α] {separator : α}
    {text piece : List α} (isPiece : piece ∈ text.splitOn separator) :
    piece <:+: text ∧ separator ∉ piece := by
  by_cases inside : separator ∈ text
  · obtain ⟨front, rest, rfl, plain⟩ := eq_append_cons_of_mem inside
    rw [splitOn_append_cons_self, splitOn_eq_singleton plain] at isPiece
    rcases mem_cons.mp isPiece with rfl | later
    · exact ⟨(prefix_append piece _).isInfix, plain⟩
    · obtain ⟨within, without⟩ := infix_and_not_mem_of_mem_splitOn later
      have behind : rest <:+ front ++ separator :: rest :=
        (suffix_cons separator rest).trans (suffix_append front _)
      exact ⟨within.trans behind.isInfix, without⟩
  · rw [splitOn_eq_singleton inside] at isPiece
    obtain rfl := mem_singleton.mp isPiece
    exact ⟨infix_rfl, inside⟩
termination_by text.length

theorem insertIdx_length_append (front back : List α) (inserted : α) :
    (front ++ back).insertIdx front.length inserted = front ++ inserted :: back := by
  induction front with
  | nil => rfl
  | cons first rest ih => exact congrArg (first :: ·) ih

theorem eraseIdx_length_append (front back : List α) :
    (front ++ back).eraseIdx front.length = front ++ back.tail := by
  rw [eraseIdx_append_of_length_le (Nat.le_refl _), Nat.sub_self, eraseIdx_zero]

/-- Reading every item of a list succeeds where each of them can be read. -/
theorem mapM_eq_some_filterMap {read : α → Option β} {items : List α}
    (readable : ∀ item ∈ items, (read item).isSome) :
    items.mapM read = some (items.filterMap read) := by
  induction items with
  | nil => rfl
  | cons first rest ih =>
      obtain ⟨value, known⟩ := Option.isSome_iff_exists.mp (readable first mem_cons_self)
      have restKnown := ih fun item member => readable item (mem_cons_of_mem _ member)
      simp [mapM_cons, known, restKnown]

end List
