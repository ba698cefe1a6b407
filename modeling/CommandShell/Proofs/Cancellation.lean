import CommandShell.Proofs.PhysicalWalks

/-!
# Steps up cancel names

Resolution goes through an expression from left to right and keeps the names passed so far.  The
same names remain when the expression is read from right to left: each step up cancels the next
name to its left that no other step up has cancelled, and steps up that find no name come to
nothing.
-/

namespace CommandShell

namespace Path

/-- The names that resolution goes through: those of the current directory, if it begins there,
and those of the expression without the steps in place. -/
def trail (current expression : String) : List String :=
  (if expression = "" ∨ expression.toList.head? = some '/' then [] else components current) ++
    (segments expression).filter fun segment => segment ≠ "" ∧ segment ≠ "."

/-- Read one more name from the right.  The number counts the steps up that have not cancelled a
name yet, and the list holds the names that remain. -/
def cancel (name : String) : Nat × List String → Nat × List String
  | (pending, kept) =>
      if name = ".." then (pending + 1, kept)
      else
        match pending with
        | 0 => (0, name :: kept)
        | fewer + 1 => (fewer, kept)

/-- The names that no step up cancels, steps up that are left over not counted. -/
def surviving (names : List String) : List String :=
  (names.foldr cancel (0, [])).2

/-- What has been read on the right says what becomes of the names passed on the left: the
steps up that are pending take away the last of them, and the names kept come behind the rest. -/
theorem foldl_follow_eq {names : List String} (noDots : "." ∉ names) (passed : List String) :
    names.foldl follow passed =
      (names.foldr cancel (0, [])).2.reverse ++ passed.drop (names.foldr cancel (0, [])).1 := by
  induction names generalizing passed with
  | nil => rfl
  | cons name rest ih =>
      obtain ⟨notDot, restNoDots⟩ := List.ne_and_not_mem_of_not_mem_cons noDots
      rw [List.foldl_cons, ih restNoDots, List.foldr_cons, follow, if_neg (Ne.symm notDot)]
      obtain ⟨pending, kept⟩ := rest.foldr cancel (0, [])
      by_cases isUp : name = ".."
      · simp [cancel, isUp]
      · cases pending with
        | zero => simp [cancel, isUp]
        | succ fewer => simp [cancel, isUp]

/-- Steps in place can be left out. -/
theorem foldl_follow_filter (names passed : List String) :
    (names.filter (· ≠ ".")).foldl follow passed = names.foldl follow passed := by
  rw [List.foldl_filter]
  congr 1
  funext before name
  by_cases isDot : name = "."
  · simp [follow, isDot]
  · simp [isDot]

theorem foldl_follow_origin {current : String} (canonical : IsCanonical current)
    (expression : String) :
    (components expression).foldl follow (origin current expression) =
      (trail current expression).foldl follow [] := by
  have names : (segments expression).filter (fun segment => segment ≠ "" ∧ segment ≠ ".") =
      (components expression).filter (· ≠ ".") := by
    rw [components_eq_filter_segments, List.filter_filter]
    congr 1
    funext segment
    simp [Bool.and_comm]
  rw [trail, names, List.foldl_append, foldl_follow_filter]
  congr 1
  unfold origin
  by_cases fromRoot : startsAtRoot expression
  · rw [if_pos fromRoot, if_pos (startsAtRoot_iff.mp fromRoot)]
    rfl
  · rw [if_neg fromRoot, if_neg fun given => fromRoot (startsAtRoot_iff.mpr given),
      foldl_follow_of_isProperName fun _ => isProperName_of_mem_components canonical,
      List.append_nil]

theorem dot_not_mem_trail {current : String} (canonical : IsCanonical current)
    (expression : String) : "." ∉ trail current expression := by
  rw [trail, List.mem_append, not_or]
  constructor
  · split
    · exact List.not_mem_nil
    · exact fun member => (isProperName_of_mem_components canonical member).2.1 rfl
  · simp

theorem components_resolve_eq_surviving {current : String} (canonical : IsCanonical current)
    (expression : String) :
    components (resolve current expression) = surviving (trail current expression) := by
  rw [components_resolve canonical, foldl_follow_origin canonical,
    foldl_follow_eq (dot_not_mem_trail canonical expression), List.drop_nil, List.append_nil,
    List.reverse_reverse, surviving]

/-- Resolution in a canonical directory gives the canonical path of the names that remain when
each step up cancels a name to its left.  Canonical paths stay as they are, so to resolve a second
time changes nothing, and the expression that repeats the current directory is no exception to the
way that all others are resolved. -/
theorem resolve_cancels_steps_up {current : String} (canonical : IsCanonical current) :
    (∀ expression, IsCanonical (resolve current expression) ∧
      components (resolve current expression) = surviving (trail current expression)) ∧
    (∀ path, IsCanonical path → resolve current path = path) ∧
    (∀ expression, resolve current (resolve current expression) = resolve current expression) ∧
    ∀ expression, resolve current expression =
      render ((components expression).foldl follow (origin current expression)).reverse := by
  have resolved := isCanonical_resolve canonical
  exact ⟨fun expression =>
      ⟨resolved expression, components_resolve_eq_surviving canonical expression⟩,
    fun _ => resolve_of_isCanonical current,
    fun expression => resolve_of_isCanonical current (resolved expression),
    resolve_eq_render canonical⟩

theorem resolve_cancels_steps_up_above_root :
    let expression := "notes/../../.././..//x/y/../z/"
    IsCanonical "/home/work" ∧
      trail "/home/work" expression =
        ["home", "work", "notes", "..", "..", "..", "..", "x", "y", "..", "z"] ∧
      components (resolve "/home/work" expression) = ["x", "z"] ∧
      resolve "/home/work" "/x/z" = "/x/z" := by
  intro expression
  have canonical : IsCanonical "/home/work" := ⟨["home", "work"], by decide, by decide +kernel⟩
  have target : IsCanonical "/x/z" := ⟨["x", "z"], by decide, by decide +kernel⟩
  obtain ⟨cancels, fixed, -, -⟩ := resolve_cancels_steps_up canonical
  have passed : trail "/home/work" expression =
      ["home", "work", "notes", "..", "..", "..", "..", "x", "y", "..", "z"] := by
    decide +kernel
  refine ⟨canonical, passed, ?_, fixed "/x/z" target⟩
  rw [(cancels expression).2, passed]
  rfl

end Path

end CommandShell
