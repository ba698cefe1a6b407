import CommandShell.Proofs.CurrentDirectory
import CommandShell.Proofs.PhysicalWalks

/-!
# Routes

A route is an expression put together from others, with a slash between any two neighbours.
Resolution of a route leads to the same path as resolution of its parts one after the other,
each in the directory that the part before it leads to, if only the first part may begin at the
root.  The change of directory inherits this: what can be reached in two steps is reached in one
step as well.
-/

namespace CommandShell

namespace Path

theorem startsAtRoot_append_slash (front back : String) :
    startsAtRoot (front ++ "/" ++ back) = startsAtRoot front := by
  unfold startsAtRoot
  cases chars : front.toList <;> simp [chars]

theorem origin_append_slash (current front back : String) :
    origin current (front ++ "/" ++ back) = origin current front := by
  rw [origin, startsAtRoot_append_slash, origin]

/-- What one expression has passed is where the next one goes on. -/
theorem resolve_resolve {current : String} (canonical : IsCanonical current)
    (expression : String) {further : String} (relative : ¬ startsAtRoot further) :
    resolve (resolve current expression) further =
      resolve current (expression ++ "/" ++ further) := by
  have goesOn : origin (resolve current expression) further =
      (components expression).foldl follow (origin current expression) := by
    rw [origin, if_neg relative, components_resolve canonical, List.reverse_reverse]
  have within := isCanonical_resolve canonical expression
  calc
    resolve (resolve current expression) further =
        render ((components further).foldl follow
          (origin (resolve current expression) further)).reverse :=
      resolve_eq_render within further
    _ = render ((components further).foldl follow
          ((components expression).foldl follow (origin current expression))).reverse := by
      rw [goesOn]
    _ = resolve current (expression ++ "/" ++ further) := by
      rw [resolve_eq_render canonical, components_append_slash, origin_append_slash,
        List.foldl_append]

/-- The expression that goes along several others. -/
def route (first : String) (others : List String) : String :=
  others.foldl (fun passed next => passed ++ "/" ++ next) first

/-- To go along a route is to go along its parts. -/
theorem resolve_route {current : String} (canonical : IsCanonical current) {others : List String}
    (relative : ∀ other ∈ others, ¬ startsAtRoot other) (first : String) :
    resolve current (route first others) = others.foldl resolve (resolve current first) := by
  induction others generalizing first with
  | nil => rfl
  | cons next rest ih =>
      have nextRelative : ¬ startsAtRoot next := relative next List.mem_cons_self
      have restRelative : ∀ other ∈ rest, ¬ startsAtRoot other :=
        fun other member => relative other (List.mem_cons_of_mem _ member)
      rw [List.foldl_cons, resolve_resolve canonical first nextRelative]
      exact ih restRelative (first ++ "/" ++ next)

end Path

namespace Workspace

open Builtins

/-- Only a change of directory that succeeds has moved anywhere. -/
theorem eq_of_run_cd {workspace moved : Workspace}
    (canonical : Path.IsCanonical workspace.current) (surroundings : Surroundings) {path : String}
    (succeeded : run surroundings (cd [path]) workspace = (.done .silent, moved)) :
    moved = { workspace with current := Path.resolve workspace.current path } := by
  by_cases present : workspace.tree.HasDirectory (Path.resolve workspace.current path)
  · rw [run_cd_of_directory canonical surroundings [] rfl present] at succeeded
    exact (congrArg Prod.snd succeeded).symm
  · rw [run_cd_of_no_directory canonical surroundings [] rfl present] at succeeded
    cases succeeded

/-- Change the directory along several expressions, one after the other. -/
def changes : List String → Routine Unit
  | [] => pure ()
  | step :: rest => do
      let _ ← cd [step]
      changes rest

theorem current_of_run_changes {workspace moved : Workspace}
    (canonical : Path.IsCanonical workspace.current) (surroundings : Surroundings)
    {steps : List String}
    (succeeded : run surroundings (changes steps) workspace = (.done (), moved)) :
    moved.current = steps.foldl Path.resolve workspace.current := by
  induction steps generalizing workspace with
  | nil => exact congrArg (·.2.current) succeeded.symm
  | cons step rest ih =>
      rw [changes, run_bind] at succeeded
      by_cases present : workspace.tree.HasDirectory (Path.resolve workspace.current step)
      · rw [run_cd_of_directory canonical surroundings [] rfl present] at succeeded
        exact ih (Path.isCanonical_resolve canonical step) succeeded
      · rw [run_cd_of_no_directory canonical surroundings [] rfl present] at succeeded
        cases succeeded

/-- Whoever gets along the parts of a route one by one stands where the route leads to. -/
theorem current_of_run_changes_route {workspace moved : Workspace}
    (canonical : Path.IsCanonical workspace.current) (surroundings : Surroundings)
    {first : String} {others : List String}
    (relative : ∀ other ∈ others, ¬ Path.startsAtRoot other)
    (succeeded : run surroundings (changes (first :: others)) workspace = (.done (), moved)) :
    moved.current = Path.resolve workspace.current (Path.route first others) := by
  rw [current_of_run_changes canonical surroundings succeeded, List.foldl_cons,
    Path.resolve_route canonical relative]

/-- Resolution composes, and so does the change of directory: an expression that does not begin
at the root means the same behind a slash as it means in the directory in front of the slash. -/
theorem changes_of_directory_compose {current : String} (canonical : Path.IsCanonical current)
    (expression : String) {further : String} (nonempty : further ≠ "")
    (relative : further.toList.head? ≠ some '/') :
    Path.resolve (Path.resolve current expression) further =
        Path.resolve current (expression ++ "/" ++ further) ∧
      ∀ (surroundings : Surroundings) (workspace moved : Workspace),
        workspace.current = current →
        run surroundings (cd [expression]) workspace = (.done .silent, moved) →
        let twice := run surroundings (cd [further]) moved
        let once := run surroundings (cd [expression ++ "/" ++ further]) workspace
        twice.1 = once.1 ∧ (twice.1 = .done .silent → twice.2 = once.2) := by
  have staysBelow : ¬ Path.startsAtRoot further := by
    rw [Path.startsAtRoot_iff, not_or]
    exact ⟨nonempty, relative⟩
  have composed := Path.resolve_resolve canonical expression staysBelow
  refine ⟨composed, ?_⟩
  rintro surroundings workspace moved rfl succeeded twice once
  have reached := eq_of_run_cd canonical surroundings succeeded
  have movedCanonical : Path.IsCanonical moved.current := by
    rw [reached]
    exact Path.isCanonical_resolve canonical expression
  have resolvedTwice : Path.resolve moved.current further =
      Path.resolve workspace.current (expression ++ "/" ++ further) := by
    rw [reached]
    exact composed
  have sameTree : moved.tree = workspace.tree := by rw [reached]
  unfold twice once
  by_cases present : workspace.tree.HasDirectory
      (Path.resolve workspace.current (expression ++ "/" ++ further))
  · rw [run_cd_of_directory movedCanonical surroundings [] resolvedTwice (sameTree ▸ present),
      run_cd_of_directory canonical surroundings [] rfl present, reached]
    exact ⟨rfl, fun _ => rfl⟩
  · rw [run_cd_of_no_directory movedCanonical surroundings [] resolvedTwice (sameTree ▸ present),
      run_cd_of_no_directory canonical surroundings [] rfl present]
    exact ⟨rfl, nofun⟩

/-- A workspace in the directory `/home`, with two more directories below it. -/
def housed : Workspace :=
  .new "/home" (FileTree.empty.makeDirectories "/" "/home/work/x").2

theorem changes_of_directory_compose_winding :
    let moved := { housed with current := "/home/work" }
    let twice := run ⟨0, [], []⟩ (cd ["../work/x/"]) moved
    Path.IsCanonical "/home" ∧ "../work/x/" ≠ "" ∧ "../work/x/".toList.head? ≠ some '/' ∧
      Path.resolve (Path.resolve "/home" "work//.") "../work/x/" =
        Path.resolve "/home" ("work//." ++ "/" ++ "../work/x/") ∧
      run ⟨0, [], []⟩ (cd ["work//."]) housed = (.done .silent, moved) ∧
      twice.1 = .done .silent ∧ twice.2.current = "/home/work/x" ∧
      twice.2 = (run ⟨0, [], []⟩ (cd ["work//." ++ "/" ++ "../work/x/"]) housed).2 := by
  intro moved twice
  have canonical : Path.IsCanonical "/home" := ⟨["home"], by decide, by decide +kernel⟩
  have nonempty : "../work/x/" ≠ "" := by decide
  have relative : "../work/x/".toList.head? ≠ some '/' := by decide
  obtain ⟨composed, agree⟩ := changes_of_directory_compose canonical "work//." nonempty relative
  have present : housed.tree.HasDirectory "/home/work" :=
    ⟨2, by decide +kernel, by decide +kernel⟩
  have succeeded : run ⟨0, [], []⟩ (cd ["work//."]) housed = (.done .silent, moved) :=
    run_cd_of_directory canonical ⟨0, [], []⟩ [] (by decide +kernel) present
  have second : twice.1 = .done .silent := by decide +kernel
  have arrived : twice.2.current = "/home/work/x" := by decide +kernel
  have same := (agree ⟨0, [], []⟩ housed moved rfl succeeded).2 second
  exact ⟨canonical, nonempty, relative, composed, succeeded, second, arrived, same⟩

end Workspace

end CommandShell
