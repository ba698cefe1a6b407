import CommandShell.Proofs.TreeShape

/-!
# Walking the tree along an expression

Resolution works on names and never looks at the tree.  A physical walk does the
opposite: it stands at a node and goes from one node to the next, to an entry at a
name and to the directory that holds the node at a step up.  Every node has one
parent and one path, so wherever the walk arrives, the resolved path leads as well.
-/

namespace CommandShell

namespace Path

/-- What stands between the slashes of an expression, the empty pieces included. -/
def segments (expression : String) : List String :=
  (expression.toList.splitOn '/').map String.ofList

theorem components_eq_filter_segments (expression : String) :
    components expression = (segments expression).filter (· ≠ "") := by
  rw [components, segments, List.filter_map]
  congr 2
  funext piece
  have same : String.ofList piece = "" ↔ piece = [] := by
    rw [← String.toList_inj, String.toList_ofList]
    rfl
  simp [same]

theorem startsAtRoot_iff {expression : String} :
    startsAtRoot expression ↔ expression = "" ∨ expression.toList.head? = some '/' := by
  unfold startsAtRoot
  cases chars : expression.toList with
  | nil =>
      have empty : expression = "" := String.toList_inj.mp chars
      simp [empty]
  | cons first rest =>
      have nonempty : expression ≠ "" := by
        rintro rfl
        cases chars
      simp [nonempty]

/-- In a canonical directory the expression that repeats the directory is no exception. -/
theorem resolve_eq_render {current : String} (canonical : IsCanonical current)
    (expression : String) :
    resolve current expression =
      render ((components expression).foldl follow (origin current expression)).reverse := by
  by_cases same : expression = current
  · obtain ⟨names, proper, rfl⟩ := canonical
    have kept := @foldl_follow_of_isProperName names [] proper
    rw [same, resolve, if_pos rfl, origin, if_pos (startsAtRoot_render names),
      components_render fun name member => (proper name member).1, kept]
    simp
  · rw [resolve, if_neg same]

/-- The names behind a resolved path are those that the expression has passed. -/
theorem components_resolve {current : String} (canonical : IsCanonical current)
    (expression : String) :
    components (resolve current expression) =
      ((components expression).foldl follow (origin current expression)).reverse := by
  rw [resolve_eq_render canonical]
  apply components_render
  intro name member
  refine (isProperName_of_mem_foldl_follow (fun _ => isName_of_mem_components) ?_ name
    (List.mem_reverse.mp member)).1
  intro name member
  unfold origin at member
  split at member
  · cases member
  · exact isProperName_of_mem_components canonical (List.mem_reverse.mp member)

end Path

namespace FileTree

def isEntryOf (tree : FileTree) (id directory : NodeId) : Bool :=
  (tree.children? directory).any fun children => children.values.contains id

/-- The directory that holds a node.  The root lies in itself. -/
def parent? (tree : FileTree) (id : NodeId) : Option NodeId :=
  if id = root then some root
  else (List.range tree.nodeCount).find? (tree.isEntryOf id)

/-- The node that one segment leads to.  Only a directory can be left, to its parent or to
one of its entries. -/
def step? (tree : FileTree) (node : NodeId) (segment : String) : Option NodeId :=
  if segment = "" ∨ segment = "." then some node
  else if tree.kind? node ≠ some .directory then none
  else if segment = ".." then tree.parent? node
  else tree.child? node segment

/-- Where a walk along an expression starts. -/
def walkStart? (tree : FileTree) (current expression : String) : Option NodeId :=
  if expression = "" ∨ expression.toList.head? = some '/' then some root
  else tree.lookup current

/-- The node that a walk from the current directory along an expression ends at. -/
def physicalWalk (tree : FileTree) (current expression : String) : Option NodeId :=
  (tree.walkStart? current expression).bind fun start =>
    (Path.segments expression).foldlM tree.step? start

theorem isEntryOf_iff {tree : FileTree} {id directory : NodeId} :
    tree.isEntryOf id directory ↔ ∃ name, tree.child? directory name = some id := by
  unfold isEntryOf child?
  cases tree.children? directory with
  | none => simp
  | some children =>
      simp only [Option.any_some, NameMap.values, List.contains_eq_mem, List.mem_map,
        decide_eq_true_eq, Option.bind_some, NameMap.find?_eq_some_iff]
      constructor
      · rintro ⟨⟨name, child⟩, member, rfl⟩
        exact ⟨name, member⟩
      · rintro ⟨name, member⟩
        exact ⟨(name, id), member, rfl⟩

namespace IsTree

variable {tree : FileTree}

/-- In a tree of nodes the parent is the only directory that has the node as an entry. -/
theorem parent?_eq_some_iff (isTree : tree.IsTree) {id directory : NodeId}
    (notRoot : id ≠ root) :
    tree.parent? id = some directory ↔ ∃ name, tree.child? directory name = some id := by
  rw [parent?, if_neg notRoot]
  constructor
  · intro found
    exact isEntryOf_iff.mp (List.find?_some found)
  · rintro ⟨name, entry⟩
    have forward := isTree.forward entry
    have inRange : directory ∈ List.range tree.nodeCount :=
      List.mem_range.mpr (Nat.lt_trans forward.1 forward.2)
    cases found : (List.range tree.nodeCount).find? (tree.isEntryOf id) with
    | none =>
        have isEntry := isEntryOf_iff.mpr ⟨name, entry⟩
        exact absurd isEntry (List.find?_eq_none.mp found directory inRange)
    | some other =>
        obtain ⟨otherName, otherEntry⟩ := isEntryOf_iff.mp (List.find?_some found)
        have samePlace : (other, otherName) = (directory, name) :=
          (isTree.linkedOnce notRoot forward.2).unique otherEntry entry
        rw [(Prod.mk.inj samePlace).1]

/-- A step up takes the last name off the way from the root. -/
theorem walk_parent? (isTree : tree.IsTree) {node next : NodeId} {passed : List String}
    (here : tree.walk root passed.reverse = some node) (up : tree.parent? node = some next) :
    tree.walk root passed.tail.reverse = some next := by
  by_cases atRoot : node = root
  · subst atRoot
    have noNames : passed.reverse = [] := isTree.walk_injective here (walk_nil tree root)
    rw [parent?, if_pos rfl] at up
    rw [List.reverse_eq_nil_iff.mp noNames]
    exact up
  · obtain ⟨name, entry⟩ := (isTree.parent?_eq_some_iff atRoot).mp up
    obtain ⟨front, frontArrives⟩ := isTree.exists_walk (lt_nodeCount_of_child? entry)
    have throughParent : tree.walk root (front ++ [name]) = some node :=
      walk_append_singleton_eq_some_iff.mpr ⟨next, frontArrives, entry⟩
    have sameWay : passed.reverse = front ++ [name] := isTree.walk_injective here throughParent
    have sameNames : passed = name :: front.reverse := by
      rw [← List.reverse_reverse passed, sameWay, List.reverse_append]
      rfl
    rw [sameNames, List.tail_cons, List.reverse_reverse]
    exact frontArrives

theorem walk_step? (isTree : tree.IsTree) {node next : NodeId} {passed : List String}
    {segment : String} (named : segment ≠ "")
    (here : tree.walk root passed.reverse = some node)
    (stepped : tree.step? node segment = some next) :
    tree.walk root (Path.follow passed segment).reverse = some next := by
  simp only [step?, named, false_or] at stepped
  unfold Path.follow
  split at stepped
  next dot =>
    rw [if_pos dot, ← stepped]
    exact here
  next notDot =>
    rw [if_neg notDot]
    split at stepped
    next => cases stepped
    next =>
      split at stepped
      next dots =>
        rw [if_pos dots]
        exact isTree.walk_parent? here stepped
      next notDots =>
        rw [if_neg notDots, List.reverse_cons]
        exact walk_append_singleton_eq_some_iff.mpr ⟨node, here, stepped⟩

/-- Wherever a walk arrives, the names that it has passed lead from the root. -/
theorem walk_foldlM_step? (isTree : tree.IsTree) {segments passed : List String}
    {node final : NodeId} (here : tree.walk root passed.reverse = some node)
    (arrives : segments.foldlM tree.step? node = some final) :
    tree.walk root ((segments.filter (· ≠ "")).foldl Path.follow passed).reverse =
      some final := by
  induction segments generalizing node passed with
  | nil =>
      cases arrives
      exact here
  | cons segment rest ih =>
      rw [List.foldlM_cons] at arrives
      obtain ⟨next, stepped, restArrives⟩ := Option.bind_eq_some_iff.mp arrives
      by_cases empty : segment = ""
      · have stays : node = next := by
          rw [step?, if_pos (.inl empty)] at stepped
          exact Option.some.inj stepped
        rw [List.filter_cons_of_neg (by simp [empty])]
        exact ih (stays ▸ here) restArrives
      · rw [List.filter_cons_of_pos (by simp [empty]), List.foldl_cons]
        exact ih (isTree.walk_step? empty here stepped) restArrives

theorem find?_of_physicalWalk (isTree : tree.IsTree) {current expression : String}
    (canonical : Path.IsCanonical current) {final : NodeId}
    (arrives : tree.physicalWalk current expression = some final) :
    tree.find? current expression = some final := by
  obtain ⟨start, started, walked⟩ := Option.bind_eq_some_iff.mp arrives
  have here : tree.walk root (Path.origin current expression).reverse = some start := by
    unfold Path.origin
    rw [walkStart?] at started
    by_cases fromRoot : Path.startsAtRoot expression
    · rw [if_pos (Path.startsAtRoot_iff.mp fromRoot)] at started
      rw [if_pos fromRoot]
      exact started
    · rw [if_neg fun given => fromRoot (Path.startsAtRoot_iff.mpr given)] at started
      rw [if_neg fromRoot, List.reverse_reverse]
      exact started
  rw [find?, lookup, Path.components_resolve canonical, Path.components_eq_filter_segments]
  exact isTree.walk_foldlM_step? here walked

end IsTree

/-- Resolution agrees with walking.  In a reachable tree and a canonical current directory,
whatever node a physical walk along an expression ends at, the expression means that
node. -/
theorem find?_eq_of_physicalWalk {tree : FileTree} (reachable : tree.Reachable)
    {current : String} (canonical : Path.IsCanonical current) {expression : String}
    {final : NodeId} (arrives : tree.physicalWalk current expression = some final) :
    tree.find? current expression = some final :=
  reachable.isTree.find?_of_physicalWalk canonical arrives

/-- Two directories and a file in the second one. -/
def nestedTree : FileTree :=
  let directories := (empty.perform (.makeDirectories "/" "/home/work")).2
  (directories.perform (.writeFile "/home" "work/notes" "text")).2

theorem find?_eq_of_physicalWalk_nestedTree :
    Path.IsCanonical "/home/work" ∧
      nestedTree.physicalWalk "/home/work" "../../..//home/./work/notes/." = some 3 ∧
      nestedTree.find? "/home/work" "../../..//home/./work/notes/." = some 3 := by
  have canonical : Path.IsCanonical "/home/work" :=
    ⟨["home", "work"], by decide, by decide +kernel⟩
  have arrives :
      nestedTree.physicalWalk "/home/work" "../../..//home/./work/notes/." = some 3 := by
    decide +kernel
  exact ⟨canonical, arrives,
    find?_eq_of_physicalWalk ((Reachable.empty.perform _).perform _) canonical arrives⟩

end FileTree

end CommandShell
