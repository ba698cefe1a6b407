import CommandShell.Path.Lemmas

/-!
# Cutting paths at their last name

`splitParent` takes the last name off any path, canonical or not: the names of a
path are those of its directory part, followed by the last name if there is one.
-/

namespace CommandShell

namespace Path

theorem slash_not_mem_takeWhile (text : List Char) :
    '/' ∉ text.takeWhile (· ≠ '/') := by
  intro member
  have kept := List.all_takeWhile (l := text) (p := (· ≠ '/'))
  rw [List.all_eq_true] at kept
  simpa using kept '/' member

theorem dropWhile_slash_cases (text : List Char) :
    text.dropWhile (· ≠ '/') = [] ∨
      ∃ above, text.dropWhile (· ≠ '/') = '/' :: above := by
  have stopped := List.head?_dropWhile_not (· ≠ '/') text
  cases rest : text.dropWhile (· ≠ '/') with
  | nil => exact .inl rfl
  | cons first above =>
      rw [rest] at stopped
      have slash : first = '/' := by simpa using stopped
      exact .inr ⟨above, by rw [slash]⟩

/-- A path is its last name alone, or there is a slash in front of it. -/
theorem splitParent_cases (path : String) :
    ∃ leaf : List Char, '/' ∉ leaf ∧
      ((path = String.ofList leaf ∧ splitParent path = ("/", String.ofList leaf)) ∨
        ∃ above, path = String.ofList (above ++ '/' :: leaf) ∧
          splitParent path =
            (if above = [] then "/" else String.ofList above, String.ofList leaf)) := by
  let backward := path.toList.reverse
  refine ⟨(backward.takeWhile (· ≠ '/')).reverse, ?_, ?_⟩
  · rw [List.mem_reverse]
    exact slash_not_mem_takeWhile backward
  have joined : path.toList = (backward.dropWhile (· ≠ '/')).reverse ++
      (backward.takeWhile (· ≠ '/')).reverse := by
    rw [← List.reverse_append, List.takeWhile_append_dropWhile, List.reverse_reverse]
  rcases dropWhile_slash_cases backward with noSlash | ⟨above, slash⟩
  · left
    constructor
    · rw [noSlash] at joined
      rw [← String.ofList_toList (s := path), joined]
      rfl
    · simp only [splitParent, backward] at noSlash ⊢
      rw [noSlash]
  · right
    refine ⟨above.reverse, ?_, ?_⟩
    · rw [slash, List.reverse_cons, List.append_assoc] at joined
      rw [← String.ofList_toList (s := path), joined]
      rfl
    · simp only [splitParent, backward] at slash ⊢
      rw [slash]
      cases above with
      | nil => rfl
      | cons next more => simp

theorem components_ofList_of_slash_not_mem {text : List Char} (plain : '/' ∉ text) :
    components (String.ofList text) =
      if String.ofList text = "" then [] else [String.ofList text] := by
  rw [components, String.toList_ofList, List.splitOn_eq_singleton plain]
  by_cases noText : text = []
  · simp [noText]
  · have someText : String.ofList text ≠ "" := by
      intro empty
      apply noText
      rw [← String.toList_ofList (l := text), empty]
      rfl
    simp [noText, someText]

theorem components_of_isName {name : String} (isName : IsName name) :
    components name = [name] := by
  have single := components_ofList_of_slash_not_mem isName.2
  rwa [String.ofList_toList, if_neg isName.1] at single

theorem components_ofList_append (front back : List Char) :
    components (String.ofList (front ++ '/' :: back)) =
      components (String.ofList front) ++ components (String.ofList back) := by
  simp only [components, String.toList_ofList, List.splitOn_append_cons_self,
    List.filter_append, List.map_append]

theorem components_append_slash (front back : String) :
    components (front ++ "/" ++ back) = components front ++ components back := by
  have joined : front ++ "/" ++ back = String.ofList (front.toList ++ '/' :: back.toList) := by
    rw [← String.toList_inj]
    simp
  rw [joined, components_ofList_append, String.ofList_toList, String.ofList_toList]

/-- The names of a path are those of its directory part and its last name. -/
theorem components_splitParent (path : String) :
    components path = components (splitParent path).1 ++
      if (splitParent path).2 = "" then [] else [(splitParent path).2] := by
  have rootPart : components "/" = [] := by decide
  obtain ⟨leaf, plain, ⟨written, cut⟩ | ⟨above, written, cut⟩⟩ := splitParent_cases path
  · rw [cut, rootPart, List.nil_append, ← components_ofList_of_slash_not_mem plain, written]
  · rw [cut, ← components_ofList_of_slash_not_mem plain, written, components_ofList_append]
    by_cases top : above = []
    · rw [if_pos top, rootPart, top]
      rfl
    · rw [if_neg top]

theorem components_eq_append_leaf {path : String} (hasLeaf : (splitParent path).2 ≠ "") :
    components path = components (splitParent path).1 ++ [(splitParent path).2] := by
  rw [components_splitParent path, if_neg hasLeaf]

/-- The last name of a path, where there is one, can be the name of an entry. -/
theorem isName_leaf {path : String} (hasLeaf : (splitParent path).2 ≠ "") :
    IsName (splitParent path).2 := by
  refine ⟨hasLeaf, ?_⟩
  obtain ⟨leaf, plain, ⟨_, cut⟩ | ⟨_, _, cut⟩⟩ := splitParent_cases path
  · rw [cut, String.toList_ofList]
    exact plain
  · rw [cut, String.toList_ofList]
    exact plain

end Path

end CommandShell
