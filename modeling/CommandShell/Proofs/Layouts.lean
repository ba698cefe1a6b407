import CommandShell.Proofs.Refinement

/-!
# Layouts

A layout lists directories and files that are wanted in a file tree, each behind its parent.
It is laid out one by one: a directory that is there is kept, and a file that is there is
overwritten.  The only thing that can go wrong is that something of another kind is in the way,
and laying a layout out a second time changes nothing.
-/

namespace CommandShell

open PathMap (Item)

/-- A directory or a file that is wanted at a path. -/
structure Fixture where
  path : String
  item : Item
  deriving DecidableEq, Repr

namespace Fixture

variable {fixture : Fixture} {map next : PathMap}

def names (fixture : Fixture) : List String :=
  Path.components fixture.path

/-- Whether nothing is in the way: the path leads nowhere, or to something of the same kind. -/
def Fits (fixture : Fixture) (map : PathMap) : Prop :=
  map.item? fixture.names = none ∨
    (map.item? fixture.names).map Item.kind = some fixture.item.kind

/-- How it is told that something is in the way. -/
def refusal (fixture : Fixture) : Failure :=
  match fixture.item with
  | .directory => .alreadyExists fixture.path
  | .file _ => .notAFile fixture.path

/-- Whether the map has the fixture already, and there is nothing to make. -/
def IsKept (fixture : Fixture) (map : PathMap) : Prop :=
  fixture.item = .directory ∧ map.item? fixture.names = some .directory

/-- The operation that makes a fixture. -/
def operation (fixture : Fixture) (current : String) : FileTree.Operation :=
  match fixture.item with
  | .directory => .makeDirectory current fixture.path
  | .file content => .writeFile current fixture.path content

/-- Whether a fixture has a place in a map: it has a parent, and that is a directory. -/
structure Placed (fixture : Fixture) (map : PathMap) : Prop where
  canonical : Path.IsCanonical fixture.path
  notRoot : fixture.names ≠ []
  parent : map.item? fixture.names.dropLast = some .directory

theorem current_operation (fixture : Fixture) (current : String) :
    (fixture.operation current).current = current := by
  unfold operation
  split <;> rfl

theorem fits_congr (same : next.item? fixture.names = map.item? fixture.names) :
    fixture.Fits next ↔ fixture.Fits map := by
  rw [Fits, Fits, same]

theorem Fits.item_eq_directory (fits : fixture.Fits map)
    (directory : map.item? fixture.names = some .directory) : fixture.item = .directory := by
  rw [Fits, directory] at fits
  cases wanted : fixture.item with
  | directory => rfl
  | file content => simp [wanted, Item.kind] at fits

theorem components_resolve (canonical : Path.IsCanonical fixture.path) (current : String) :
    Path.components (Path.resolve current fixture.path) = fixture.names := by
  rw [Path.resolve_of_isCanonical current canonical, names]

/-- An operation makes its fixture unless there is something in the way. -/
theorem Placed.outcome_operation (placed : fixture.Placed map) (notKept : ¬ fixture.IsKept map)
    (current : String) :
    (fixture.Fits map ∧ map.outcome (fixture.operation current) = .ok ()) ∨
      (¬ fixture.Fits map ∧ map.outcome (fixture.operation current) = .error fixture.refusal) := by
  have here := components_resolve placed.canonical current
  have rendered : Path.render fixture.names = fixture.path :=
    Path.render_components placed.canonical
  cases wanted : fixture.item with
  | directory =>
      simp only [Fits, refusal, operation, wanted, PathMap.outcome, PathMap.perform, here,
        PathMap.makeDirectory, placed.notRoot, placed.parent, rendered]
      rcases present : map.item? fixture.names with _ | _ | content
      · simp [Except.map]
      · exact absurd ⟨wanted, present⟩ notKept
      · simp [Except.map, Item.kind]
  | file content =>
      simp only [Fits, refusal, operation, wanted, PathMap.outcome, PathMap.perform, here,
        PathMap.writeFile, PathMap.openFile, placed.notRoot, placed.parent, rendered]
      rcases present : map.item? fixture.names with _ | _ | old
      · simp [Except.map]
      · simp [Except.map, Item.kind]
      · simp [Except.map, Item.kind]

/-- A fixture that was made is in the map, and nothing else is new there. -/
theorem Placed.itemAfter_operation (placed : fixture.Placed map) (current : String)
    (names : List String) :
    map.itemAfter (fixture.operation current) names =
      if names = fixture.names then some fixture.item else map.item? names := by
  have here := components_resolve placed.canonical current
  unfold operation
  split
  next wanted => rw [PathMap.itemAfter, here, wanted]
  next wanted => rw [PathMap.itemAfter, here, wanted]

end Fixture

namespace FileTree

/-- Make a fixture, unless it is a directory that is there already. -/
def install (tree : FileTree) (current : String) (fixture : Fixture) :
    Except Failure Unit × FileTree :=
  if fixture.item = .directory ∧ tree.isDirectory current fixture.path then (.ok (), tree)
  else
    let (outcome, after) := tree.perform (fixture.operation current)
    (outcome.map fun _ => (), after)

theorem install_directory (tree : FileTree) (current path : String) :
    tree.install current ⟨path, .directory⟩ =
      if tree.isDirectory current path then (.ok (), tree)
      else
        ((tree.makeDirectory current path).1.map fun _ => (),
          (tree.makeDirectory current path).2) := by
  simp only [install, true_and, Fixture.operation, perform]

theorem install_file (tree : FileTree) (current path content : String) :
    tree.install current ⟨path, .file content⟩ =
      ((tree.writeFile current path content).1.map fun _ => (),
        (tree.writeFile current path content).2) := by
  simp only [install, reduceCtorEq, false_and, if_false, Fixture.operation, perform]

/-- Go on with the tree that was left behind, unless there was a failure. -/
def andThen (next : FileTree → Except Failure Unit × FileTree) :
    Except Failure Unit × FileTree → Except Failure Unit × FileTree
  | (.ok (), after) => next after
  | (.error failure, after) => (.error failure, after)

/-- Make the fixtures of a layout one after the other, up to the first that cannot be made. -/
def lay (tree : FileTree) (current : String) : List Fixture → Except Failure Unit × FileTree
  | [] => (.ok (), tree)
  | fixture :: rest => andThen (fun after => after.lay current rest) (tree.install current fixture)

theorem lay_append (tree : FileTree) (current : String) (front back : List Fixture) :
    tree.lay current (front ++ back) =
      andThen (fun after => after.lay current back) (tree.lay current front) := by
  induction front generalizing tree with
  | nil => rfl
  | cons fixture rest ih =>
      rw [List.cons_append, lay, lay]
      rcases tree.install current fixture with ⟨failure | value, after⟩
      · rfl
      · exact ih after

section Install

variable {tree : FileTree} {map : PathMap} {current : String} {fixture : Fixture}

/-- What the installation of a fixture comes to. -/
inductive Installs (tree : FileTree) (map : PathMap) (current : String) (fixture : Fixture) :
    Prop where
  | refused (unfit : ¬ fixture.Fits map) (after : FileTree)
      (result : tree.install current fixture = (.error fixture.refusal, after))
  | installed (fits : fixture.Fits map) (after : FileTree) (next : PathMap)
      (result : tree.install current fixture = (.ok (), after)) (isTree : after.IsTree)
      (represents : after.Represents next)
      (item : ∀ names, next.item? names =
        if names = fixture.names then some fixture.item else map.item? names)

theorem isDirectory_iff_item? (isTree : tree.IsTree) (represents : tree.Represents map)
    (canonical : Path.IsCanonical fixture.path) (current : String) :
    tree.isDirectory current fixture.path ↔ map.item? fixture.names = some .directory := by
  rw [(represents.shows isTree).isDirectory, Fixture.components_resolve canonical]

/-- The step: a fixture is installed exactly if it fits. -/
theorem installs (isTree : tree.IsTree) (represents : tree.Represents map)
    (canonical : Path.IsCanonical current) (placed : fixture.Placed map) :
    tree.Installs map current fixture := by
  have there := isDirectory_iff_item? isTree represents placed.canonical current
  by_cases kept : fixture.IsKept map
  · have still : tree.install current fixture = (.ok (), tree) :=
      if_pos ⟨kept.1, there.mpr kept.2⟩
    refine .installed (.inr ?_) tree map still isTree represents fun names => ?_
    · rw [kept.1, kept.2]
      rfl
    · split
      next here => rw [here, kept.1, kept.2]
      next => rfl
  · have made : tree.install current fixture =
        ((tree.perform (fixture.operation current)).1.map fun _ => (),
          (tree.perform (fixture.operation current)).2) :=
      if_neg fun both => kept ⟨both.1, there.mp both.2⟩
    have canonicalToo : Path.IsCanonical (fixture.operation current).current := by
      rw [fixture.current_operation]
      exact canonical
    obtain ⟨outcome, shown⟩ := refines_perform isTree represents canonicalToo
    rw [outcome] at made
    rcases placed.outcome_operation kept current with ⟨fits, done⟩ | ⟨unfit, failed⟩
    · rw [done] at made
      refine .installed fits _ _ made (isTree.of_perform _) shown fun names => ?_
      rw [PathMap.item?_after, done]
      exact placed.itemAfter_operation current names
    · rw [failed] at made
      exact .refused unfit _ made

end Install

theorem eq_of_node? {left right : FileTree} (same : ∀ id, left.node? id = right.node? id) :
    left = right := by
  cases left
  cases right
  exact congrArg FileTree.mk (Array.ext_getElem? same)

section Shown

variable {tree : FileTree} {map : PathMap} {current path : String}

theorem updateContent_eq_self {id : NodeId} {content : String}
    (known : tree.content? id = some content) :
    (tree.updateContent id fun _ => content) = tree := by
  refine eq_of_node? fun other => ?_
  rw [node?_updateContent]
  split
  next here =>
    subst here
    obtain ⟨node, found, isContent⟩ := Option.bind_eq_some_iff.mp known
    cases node with
    | directory children => cases isContent
    | file old =>
        obtain rfl := Option.some.inj isContent
        rw [found]
        rfl
  next => rfl

theorem updateContent_updateContent (tree : FileTree) (id : NodeId)
    (first second : String → String) :
    (tree.updateContent id first).updateContent id second =
      tree.updateContent id fun content => second (first content) := by
  refine eq_of_node? fun other => ?_
  simp only [node?_updateContent]
  split
  next =>
    cases tree.node? other with
    | none => rfl
    | some node => cases node <;> rfl
  next => rfl

/-- A file with a content is as it was when it is given that content. -/
theorem writeFile_of_shown (isTree : tree.IsTree) (represents : tree.Represents map)
    (canonical : Path.IsCanonical current) {content : String}
    (shown : map.item? (Path.components (Path.resolve current path)) = some (.file content)) :
    ∃ id, tree.writeFile current path content = (.ok id, tree) := by
  obtain ⟨names, areNames, resolved, parts⟩ := resolve_cases canonical path
  rw [parts] at shown
  cases place isTree represents areNames with
  | root => simp [map.root] at shown
  | noDirectory front leaf isName notDirectory failed =>
      have present : map.item? (front ++ [leaf]) ≠ none := by simp [shown]
      exact absurd (map.prefixClosed present) notDirectory
  | taken front leaf parent id item isName directory atParent entry arrives known present =>
      obtain rfl : item = .file content := Option.some.inj (present.symm.trans shown)
      have isContent : tree.content? id = some content := by
        rw [content?_eq_bind_item?, known]
        rfl
      have opened : tree.openFile current path true = (.ok id, tree) := by
        rw [openFile_of_resolve resolved isName]
        simp [atParent, entry, isContent]
      refine ⟨id, ?_⟩
      rw [writeFile, opened]
      simp only [updateContent_eq_self isContent]
  | vacant front leaf parent directory atParent arrives vacant absent =>
      simp [absent] at shown

end Shown

/-- Whether every fixture of a layout has its parent among the given directories or before it
in the layout, and its path for itself. -/
inductive Grounded : List (List String) → List Fixture → Prop where
  | nil (given : List (List String)) : Grounded given []
  | cons {given : List (List String)} {fixture : Fixture} {rest : List Fixture}
      (canonical : Path.IsCanonical fixture.path) (notRoot : fixture.names ≠ [])
      (parent : fixture.names.dropLast ∈ given)
      (alone : ∀ other ∈ rest, other.names ≠ fixture.names)
      (later :
        Grounded (if fixture.item = .directory then fixture.names :: given else given) rest) :
      Grounded given (fixture :: rest)

theorem Grounded.isCanonical {given : List (List String)} {layout : List Fixture}
    (grounded : Grounded given layout) : ∀ fixture ∈ layout, Path.IsCanonical fixture.path := by
  induction grounded with
  | nil given => simp
  | cons canonical notRoot parent alone later ih => exact List.forall_mem_cons.mpr ⟨canonical, ih⟩

/-- Whether a map has the fixtures of a layout, and beside them what another map has. -/
structure Laid (layout : List Fixture) (map next : PathMap) : Prop where
  shown : ∀ fixture ∈ layout, next.item? fixture.names = some fixture.item
  others : ∀ names, (∀ fixture ∈ layout, names ≠ fixture.names) →
    next.item? names = map.item? names

theorem Laid.cons {fixture : Fixture} {rest : List Fixture} {map next final : PathMap}
    (item : ∀ names, next.item? names =
      if names = fixture.names then some fixture.item else map.item? names)
    (alone : ∀ other ∈ rest, other.names ≠ fixture.names) (laid : Laid rest next final) :
    Laid (fixture :: rest) map final where
  shown := by
    refine List.forall_mem_cons.mpr ⟨?_, laid.shown⟩
    rw [laid.others _ fun other member => (alone other member).symm, item, if_pos rfl]
  others names elsewhere := by
    obtain ⟨notHere, notLater⟩ := List.forall_mem_cons.mp elsewhere
    rw [laid.others names notLater, item, if_neg notHere]

/-- What laying out a layout comes to. -/
inductive Laying (tree : FileTree) (map : PathMap) (current : String) (layout : List Fixture) :
    Prop where
  | refused (before : List Fixture) (fixture : Fixture) (behind : List Fixture)
      (split : layout = before ++ fixture :: behind) (fit : ∀ earlier ∈ before, earlier.Fits map)
      (unfit : ¬ fixture.Fits map) (after : FileTree)
      (result : tree.lay current layout = (.error fixture.refusal, after))
  | laid (fit : ∀ fixture ∈ layout, fixture.Fits map) (after : FileTree) (next : PathMap)
      (result : tree.lay current layout = (.ok (), after)) (isTree : after.IsTree)
      (represents : after.Represents next) (isLaid : Laid layout map next)

section Lay

variable {tree : FileTree} {map next : PathMap} {current : String} {given : List (List String)}
  {layout : List Fixture}

/-- The run: a layout is laid out exactly if all of its fixtures fit. -/
theorem laying (isTree : tree.IsTree) (represents : tree.Represents map)
    (canonical : Path.IsCanonical current) (grounded : Grounded given layout)
    (there : ∀ names ∈ given, map.item? names = some .directory) :
    tree.Laying map current layout := by
  induction grounded generalizing tree map with
  | nil given =>
      exact .laid (by simp) tree map rfl isTree represents ⟨by simp, fun _ _ => rfl⟩
  | @cons given fixture rest canonicalPath notRoot parent alone later ih =>
      have placed : fixture.Placed map := ⟨canonicalPath, notRoot, there _ parent⟩
      cases installs isTree represents canonical placed with
      | refused unfit after result =>
          refine .refused [] fixture rest rfl (by simp) unfit after ?_
          rw [lay, result, andThen]
      | installed fits after next result isTree represents item =>
          have onward : tree.lay current (fixture :: rest) = after.lay current rest := by
            rw [lay, result, andThen]
          have untouched : ∀ other ∈ rest, next.item? other.names = map.item? other.names :=
            fun other member => by rw [item, if_neg (alone other member)]
          -- A file is not put where a directory was, so the directories are still there.
          have thereStill : ∀ names ∈ given, next.item? names = some .directory := by
            intro names member
            rw [item]
            split
            next here => rw [fits.item_eq_directory (here ▸ there names member)]
            next => exact there names member
          have thereNow : ∀ names ∈ if fixture.item = .directory then fixture.names :: given
              else given, next.item? names = some .directory := by
            split
            next isDirectory =>
              have new : next.item? fixture.names = some .directory := by
                rw [item, if_pos rfl, isDirectory]
              exact List.forall_mem_cons.mpr ⟨new, thereStill⟩
            next => exact thereStill
          cases ih isTree represents thereNow with
          | refused before blocked behind split fit unfit last failed =>
              subst split
              refine .refused (fixture :: before) blocked behind rfl ?_ ?_ last
                (onward.trans failed)
              · refine List.forall_mem_cons.mpr ⟨fits, fun earlier member => ?_⟩
                exact (Fixture.fits_congr (untouched _ (by simp [member]))).mp (fit earlier member)
              · rwa [Fixture.fits_congr (untouched _ (by simp))] at unfit
          | laid fit last final done isTree represents isLaid =>
              refine .laid ?_ last final (onward.trans done) isTree represents ?_
              · refine List.forall_mem_cons.mpr ⟨fits, fun other member => ?_⟩
                exact (Fixture.fits_congr (untouched other member)).mp (fit other member)
              · exact .cons item alone isLaid

/-- A fixture that is there already is left as it is. -/
theorem install_of_shown (isTree : tree.IsTree) (represents : tree.Represents map)
    (canonical : Path.IsCanonical current) {fixture : Fixture}
    (canonicalPath : Path.IsCanonical fixture.path)
    (shown : map.item? fixture.names = some fixture.item) :
    tree.install current fixture = (.ok (), tree) := by
  have there := isDirectory_iff_item? isTree represents canonicalPath current
  unfold install
  cases wanted : fixture.item with
  | directory =>
      rw [wanted] at shown
      exact if_pos ⟨rfl, there.mpr shown⟩
  | file content =>
      have shownHere : map.item? (Path.components (Path.resolve current fixture.path)) =
          some (.file content) := by
        rw [Fixture.components_resolve canonicalPath, shown, wanted]
      rw [if_neg fun both => Item.noConfusion both.1, Fixture.operation, wanted]
      obtain ⟨id, written⟩ := writeFile_of_shown isTree represents canonical shownHere
      simp only [perform, written, Except.map]

theorem lay_of_shown (isTree : tree.IsTree) (represents : tree.Represents map)
    (canonical : Path.IsCanonical current)
    (canonicalPaths : ∀ fixture ∈ layout, Path.IsCanonical fixture.path)
    (shown : ∀ fixture ∈ layout, map.item? fixture.names = some fixture.item) :
    tree.lay current layout = (.ok (), tree) := by
  induction layout with
  | nil => rfl
  | cons fixture rest ih =>
      obtain ⟨here, later⟩ := List.forall_mem_cons.mp shown
      obtain ⟨isCanonical, othersCanonical⟩ := List.forall_mem_cons.mp canonicalPaths
      rw [lay, install_of_shown isTree represents canonical isCanonical here, andThen]
      exact ih othersCanonical later

end Lay

end FileTree

end CommandShell
