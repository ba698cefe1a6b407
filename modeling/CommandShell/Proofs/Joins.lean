import CommandShell.Proofs.PhysicalWalks

/-!
# Joining names to paths

Resolution of a proper name in a canonical directory joins the name to the path of the directory.
A canonical path other than the root has been joined in exactly one way, and to cut it at its last
slash takes it apart again: in front of the slash stands the directory that a step up leads to, and
behind it the name.
-/

namespace CommandShell

namespace Path

variable {names : List String} {name : String}

theorem IsName.not_startsAtRoot (isName : IsName name) : ¬ startsAtRoot name := by
  rw [startsAtRoot_iff, not_or]
  exact ⟨isName.1, fun first => isName.2 (List.mem_of_mem_head? first)⟩

section Written

variable (proper : ∀ other ∈ names, IsProperName other)

include proper

theorem components_render_of_isProperName : components (render names) = names :=
  components_render fun other member => (proper other member).1

/-- To resolve a name in a directory is to write it behind the names of the directory. -/
theorem resolve_render_name (isProper : IsProperName name) :
    resolve (render names) name = render (names ++ [name]) := by
  obtain ⟨isName, notDot, notDots⟩ := isProper
  rw [resolve_eq_render (isCanonical_render proper), components_of_isName isName, origin,
    if_neg isName.not_startsAtRoot, components_render_of_isProperName proper, List.foldl_cons,
    follow, if_neg notDot, if_neg notDots]
  simp

/-- A step up takes the last name away. -/
theorem resolve_render_up (isProper : IsProperName name) :
    resolve (render (names ++ [name])) ".." = render names := by
  have allProper : ∀ other ∈ names ++ [name], IsProperName other :=
    List.forall_mem_append.mpr ⟨proper, List.forall_mem_singleton.mpr isProper⟩
  have up : components ".." = [".."] := by decide
  have relative : ¬ startsAtRoot ".." := by decide
  rw [resolve_eq_render (isCanonical_render allProper), up, origin, if_neg relative,
    components_render_of_isProperName allProper, List.reverse_append]
  simp [follow]

end Written

/-- A canonical path is the root, or a name is the last of those it is written for. -/
theorem IsCanonical.eq_root_or_append {path : String} (canonical : IsCanonical path) :
    path = "/" ∨ ∃ names name, (∀ other ∈ names, IsProperName other) ∧ IsProperName name ∧
      path = render (names ++ [name]) := by
  obtain ⟨names, proper, rfl⟩ := canonical
  cases names using List.reverseRecOn with
  | nil => exact .inl rfl
  | append_singleton front name =>
      obtain ⟨frontProper, isProper⟩ := List.forall_mem_append.mp proper
      exact .inr ⟨front, name, frontProper, List.forall_mem_singleton.mp isProper, rfl⟩

/-- Cutting undoes joining, and joining undoes cutting.  A canonical path other than the root is
cut into a canonical directory and a proper name; the name joined to the directory gives the path
again, a step up from the path leads to the directory, and the name is the one that is shown for
the path.  Whatever proper name is joined to whatever canonical directory, the cut finds the two.
The root lies in itself, without a name. -/
theorem cutting_inverts_joining :
    (∀ path directory name, IsCanonical path → path ≠ "/" →
      splitParent path = (directory, name) →
        IsCanonical directory ∧ IsProperName name ∧ resolve directory name = path ∧
          resolve path ".." = directory ∧ basename path = name) ∧
    (∀ directory name, IsCanonical directory → IsProperName name →
      splitParent (resolve directory name) = (directory, name)) ∧
    splitParent "/" = ("/", "") ∧ basename "/" = "/" := by
  refine ⟨?_, ?_, by decide, by decide⟩
  · intro path directory name canonical notRoot cut
    obtain rfl | ⟨names, last, proper, isProper, rfl⟩ := canonical.eq_root_or_append
    · exact absurd rfl notRoot
    rw [splitParent_render names isProper.1] at cut
    obtain ⟨rfl, rfl⟩ := Prod.mk.inj cut
    refine ⟨isCanonical_render proper, isProper, resolve_render_name proper isProper,
      resolve_render_up proper isProper, ?_⟩
    rw [basename, splitParent_render names isProper.1]
    exact if_neg isProper.1.1
  · rintro _ name ⟨names, proper, rfl⟩ isProper
    rw [resolve_render_name proper isProper, splitParent_render names isProper.1]

theorem cutting_inverts_joining_accented :
    IsCanonical "/home/.é" ∧ "/home/.é" ≠ "/" ∧ splitParent "/home/.é" = ("/home", ".é") ∧
      resolve "/home" ".é" = "/home/.é" ∧ resolve "/home/.é" ".." = "/home" ∧
      basename "/home/.é" = ".é" ∧
      IsCanonical "/" ∧ IsProperName "..." ∧ splitParent (resolve "/" "...") = ("/", "...") := by
  have canonical : IsCanonical "/home/.é" := ⟨["home", ".é"], by decide, by decide⟩
  have cut : splitParent "/home/.é" = ("/home", ".é") := by decide
  have dots : IsProperName "..." := by decide
  obtain ⟨cuts, joins, -⟩ := cutting_inverts_joining
  obtain ⟨-, -, joined, up, shown⟩ := cuts _ _ _ canonical (by decide) cut
  exact ⟨canonical, by decide, cut, joined, up, shown, isCanonical_root, dots,
    joins "/" "..." isCanonical_root dots⟩

end Path

end CommandShell
