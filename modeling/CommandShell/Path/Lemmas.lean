import CommandShell.Lists
import CommandShell.Path.Basic

/-!
# Canonical paths

Reading the names along a written path gives back the names it was written for,
so a canonical path has exactly one list of names.  Resolution in a canonical
directory leads to a canonical path and leaves canonical paths as they are.
-/

namespace CommandShell

namespace Path

theorem splitOn_append_flatMap (front : List Char) (names : List String)
    (frontPlain : '/' ∉ front) (plain : ∀ name ∈ names, '/' ∉ name.toList) :
    (front ++ names.flatMap fun name => '/' :: name.toList).splitOn '/' =
      front :: names.map String.toList := by
  induction names generalizing front with
  | nil => simpa using List.splitOn_eq_singleton frontPlain
  | cons name rest ih =>
      rw [List.flatMap_cons, List.cons_append, List.splitOn_append_cons_self,
        List.splitOn_eq_singleton frontPlain,
        ih name.toList (plain name List.mem_cons_self)
          (fun other member => plain other (List.mem_cons_of_mem _ member))]
      rfl

/-- The names along a written path are those it was written for. -/
theorem components_render {names : List String} (areNames : ∀ name ∈ names, IsName name) :
    components (render names) = names := by
  unfold render
  split
  next none => subst none; decide
  next =>
    have pieces := splitOn_append_flatMap [] names List.not_mem_nil
      fun name member => (areNames name member).2
    rw [List.nil_append] at pieces
    have kept : (names.map String.toList).filter (· ≠ []) = names.map String.toList := by
      refine List.filter_eq_self.mpr fun piece member => ?_
      obtain ⟨name, nameMember, rfl⟩ := List.mem_map.mp member
      simpa using (areNames name nameMember).1
    rw [components, String.toList_ofList, pieces, List.filter_cons_of_neg (by simp), kept,
      List.map_map]
    simp

/-- Every component of a path can be the name of an entry. -/
theorem isName_of_mem_components {path name : String} (member : name ∈ components path) :
    IsName name := by
  obtain ⟨piece, pieceMember, rfl⟩ := List.mem_map.mp member
  obtain ⟨isPiece, nonempty⟩ := List.mem_filter.mp pieceMember
  refine ⟨fun empty => ?_, ?_⟩
  · have := congrArg String.toList empty
    simp_all
  · rw [String.toList_ofList]
    exact (List.infix_and_not_mem_of_mem_splitOn isPiece).2

theorem isProperName_of_mem_foldl_follow {expression passed : List String}
    (expressionNames : ∀ name ∈ expression, IsName name)
    (passedProper : ∀ name ∈ passed, IsProperName name) :
    ∀ name ∈ expression.foldl follow passed, IsProperName name := by
  induction expression generalizing passed with
  | nil => exact passedProper
  | cons first rest ih =>
      refine ih (fun name member => expressionNames name (List.mem_cons_of_mem _ member)) ?_
      unfold follow
      split
      · exact passedProper
      next notDot =>
        split
        · exact fun name member => passedProper name (List.mem_of_mem_tail member)
        next notDots =>
          intro name member
          rcases List.mem_cons.mp member with rfl | later
          · exact ⟨expressionNames name List.mem_cons_self, notDot, notDots⟩
          · exact passedProper name later

theorem isCanonical_render {names : List String}
    (proper : ∀ name ∈ names, IsProperName name) : IsCanonical (render names) :=
  ⟨names, proper, rfl⟩

theorem isCanonical_root : IsCanonical "/" :=
  ⟨[], by simp, rfl⟩

theorem isProperName_of_mem_components {path name : String} (canonical : IsCanonical path)
    (member : name ∈ components path) : IsProperName name := by
  obtain ⟨names, proper, rfl⟩ := canonical
  rw [components_render fun name member => (proper name member).1] at member
  exact proper name member

theorem render_components {path : String} (canonical : IsCanonical path) :
    render (components path) = path := by
  obtain ⟨names, proper, rfl⟩ := canonical
  rw [components_render fun name member => (proper name member).1]

/-- Resolution in a canonical directory leads to a canonical path. -/
theorem isCanonical_resolve {current : String} (canonical : IsCanonical current)
    (expression : String) : IsCanonical (resolve current expression) := by
  unfold resolve
  split
  next same => exact same ▸ canonical
  next =>
    refine isCanonical_render fun name member => ?_
    refine isProperName_of_mem_foldl_follow (fun name => isName_of_mem_components) ?_ name
      (List.mem_reverse.mp member)
    intro name member
    unfold origin at member
    split at member
    · simp at member
    · exact isProperName_of_mem_components canonical (List.mem_reverse.mp member)

theorem foldl_follow_of_isProperName {names passed : List String}
    (proper : ∀ name ∈ names, IsProperName name) :
    names.foldl follow passed = names.reverse ++ passed := by
  induction names generalizing passed with
  | nil => rfl
  | cons first rest ih =>
      obtain ⟨_, notDot, notDots⟩ := proper first List.mem_cons_self
      rw [List.foldl_cons, follow, if_neg notDot, if_neg notDots,
        ih fun name member => proper name (List.mem_cons_of_mem _ member)]
      simp

theorem startsAtRoot_render (names : List String) : startsAtRoot (render names) = true := by
  cases names with
  | nil => rfl
  | cons first rest => simp [startsAtRoot, render]

/-- Resolution leaves canonical paths as they are. -/
theorem resolve_of_isCanonical (current : String) {path : String}
    (canonical : IsCanonical path) : resolve current path = path := by
  unfold resolve
  split
  · rfl
  · obtain ⟨names, proper, rfl⟩ := canonical
    rw [origin, if_pos (startsAtRoot_render names),
      components_render fun name member => (proper name member).1,
      foldl_follow_of_isProperName proper]
    simp

theorem render_append_singleton (names : List String) (leaf : String) :
    (render (names ++ [leaf])).toList =
      (names.flatMap fun name => '/' :: name.toList) ++ '/' :: leaf.toList := by
  simp [render]

/-- Cutting a written path at its last slash takes the last name off. -/
theorem splitParent_render (names : List String) {leaf : String} (isName : IsName leaf) :
    splitParent (render (names ++ [leaf])) = (render names, leaf) := by
  have plain : ∀ char ∈ leaf.toList.reverse, (decide (char ≠ '/')) = true := by
    intro char member
    have inside := List.mem_reverse.mp member
    exact decide_eq_true fun same => isName.2 (same ▸ inside)
  have leafPart : ((render (names ++ [leaf])).toList.reverse.takeWhile (· ≠ '/')) =
      leaf.toList.reverse := by
    rw [render_append_singleton, List.reverse_append, List.reverse_cons, List.append_assoc,
      List.takeWhile_append_of_pos plain]
    simp
  have restPart : ((render (names ++ [leaf])).toList.reverse.dropWhile (· ≠ '/')) =
      '/' :: (names.flatMap fun name => '/' :: name.toList).reverse := by
    rw [render_append_singleton, List.reverse_append, List.reverse_cons, List.append_assoc,
      List.dropWhile_append_of_pos plain]
    simp
  simp only [splitParent, leafPart, restPart, List.reverse_reverse, String.ofList_toList]
  cases names with
  | nil => rfl
  | cons first rest =>
      split
      next none => simp at none
      next single => simp at single
      next above _ same =>
        have tail := (List.cons.inj same).2
        rw [← tail, List.reverse_reverse, render, if_neg (by simp)]

end Path

end CommandShell
