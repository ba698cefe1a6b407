import CommandShell.Proofs.Growth
import Mathlib.Data.List.Induction
import Mathlib.Logic.ExistsUnique

/-!
# The shape of file trees

Identifiers of nodes are handed out in ascending order, and a node is linked into
one directory when it is created and never again.  So the links form a tree that
is rooted in the node with the identifier zero, and every node lies at the end of
exactly one walk from the root.
-/

namespace CommandShell

namespace FileTree

/-- A change of a file tree that is asked for by path. -/
inductive Operation where
  | makeDirectory (current path : String)
  | makeDirectories (current path : String)
  | openFile (current path : String) (create : Bool)
  | writeFile (current path content : String)
  deriving DecidableEq, Repr

/-- The directory in which the path of an operation is resolved. -/
def Operation.current : Operation → String
  | makeDirectory current _ => current
  | makeDirectories current _ => current
  | openFile current _ _ => current
  | writeFile current _ _ => current

/-- The outcome of an operation, and the tree after it. -/
def perform (tree : FileTree) : Operation → Except Failure NodeId × FileTree
  | .makeDirectory current path => tree.makeDirectory current path
  | .makeDirectories current path => tree.makeDirectories current path
  | .openFile current path create => tree.openFile current path create
  | .writeFile current path content => tree.writeFile current path content

/-- The trees that operations and appends make of the empty one. -/
inductive Reachable : FileTree → Prop where
  | empty : Reachable empty
  | perform {tree : FileTree} (reached : Reachable tree) (operation : Operation) :
      Reachable (tree.perform operation).2
  | append {tree : FileTree} (reached : Reachable tree) (id : NodeId) (text : String) :
      Reachable (tree.updateContent id (· ++ text))

/-- The trees that operations and any changes of contents make of the empty one. -/
inductive Attainable : FileTree → Prop where
  | empty : Attainable empty
  | perform {tree : FileTree} (attained : Attainable tree) (operation : Operation) :
      Attainable (tree.perform operation).2
  | update {tree : FileTree} (attained : Attainable tree) (id : NodeId)
      (change : String → String) : Attainable (tree.updateContent id change)

theorem Reachable.attainable {tree : FileTree} (reachable : tree.Reachable) :
    tree.Attainable := by
  induction reachable with
  | empty => exact .empty
  | perform _ operation ih => exact ih.perform operation
  | append _ id text ih => exact ih.update id _

/-- The links of the directories form a tree.  Every node but the root is an entry
of one directory under one name, and entries come after their directory. -/
structure IsTree (tree : FileTree) : Prop where
  rootDirectory : tree.kind? root = some .directory
  forward : ∀ {directory id : Nat} {name : String}, tree.child? directory name = some id →
    directory < id ∧ id < tree.nodeCount
  linkedOnce : ∀ {id : Nat}, id ≠ root → id < tree.nodeCount →
    ∃! place : NodeId × String, tree.child? place.1 place.2 = some id
  areNames : ∀ {directory name id}, tree.child? directory name = some id →
    Path.IsName name

theorem growsTo_perform {tree : FileTree} (rootDirectory : tree.kind? root = some .directory)
    (operation : Operation) : tree.GrowsTo (tree.perform operation).2 := by
  cases operation with
  | makeDirectory current path => exact tree.growsTo_makeDirectory current path
  | makeDirectories current path => exact growsTo_makeDirectories rootDirectory current path
  | openFile current path create => exact tree.growsTo_openFile current path create
  | writeFile current path content => exact tree.growsTo_writeFile current path content

theorem child?_empty (directory : NodeId) (name : String) :
    empty.child? directory name = none := by
  cases directory with
  | zero => rfl
  | succ previous => simp [child?, children?, node?, empty]

theorem isTree_empty : IsTree empty where
  rootDirectory := rfl
  forward entry := by simp [child?_empty] at entry
  linkedOnce notRoot present := by
    have atRoot : _ < 1 := present
    exact absurd (Nat.lt_one_iff.mp atRoot) notRoot
  areNames entry := by simp [child?_empty] at entry

namespace IsTree

section Attach

variable {tree : FileTree} {parent : Nat} {name : String} {node : Node}

theorem attach (isTree : tree.IsTree) (vacant : tree.Vacant parent name)
    (bare : node.IsBare) : (tree.attach parent name node).2.IsTree := by
  have inside : parent < tree.nodeCount := vacant.lt_nodeCount
  refine ⟨kind?_attach_of_kind? vacant isTree.rootDirectory, ?_, ?_, ?_⟩
  · intro directory id step entry
    rw [child?_attach_of_vacant vacant bare] at entry
    rw [nodeCount_attach]
    split at entry
    next added =>
      have new : tree.nodeCount = id := Option.some.inj entry
      obtain ⟨rfl, _⟩ := added
      omega
    next =>
      have old := isTree.forward entry
      omega
  · intro id notRoot present
    rw [nodeCount_attach] at present
    by_cases new : id = tree.nodeCount
    · -- No older link leads to the new node, since all of them lead to older nodes.
      refine ⟨(parent, name), ?_, ?_⟩
      · dsimp only
        rw [child?_attach_of_vacant vacant bare, if_pos ⟨rfl, rfl⟩, new]
      · intro place entry
        rw [child?_attach_of_vacant vacant bare] at entry
        split at entry
        next added => exact Prod.ext added.1 added.2
        next =>
          have old := isTree.forward entry
          omega
    · obtain ⟨place, entry, only⟩ := isTree.linkedOnce notRoot (by omega)
      refine ⟨place, child?_attach_of_child? vacant bare entry, ?_⟩
      intro other otherEntry
      apply only
      rw [child?_attach_of_vacant vacant bare] at otherEntry
      split at otherEntry
      next =>
        have isNew : tree.nodeCount = id := Option.some.inj otherEntry
        omega
      next => exact otherEntry
  · intro directory step id entry
    rw [child?_attach_of_vacant vacant bare] at entry
    split at entry
    next added => exact added.2 ▸ vacant.isName
    next => exact isTree.areNames entry

end Attach

theorem updateContent {tree : FileTree} (isTree : tree.IsTree) (id : NodeId)
    (change : String → String) : (tree.updateContent id change).IsTree := by
  have sameChild := tree.child?_updateContent id change
  constructor
  · rw [kind?_updateContent, isTree.rootDirectory]
  · rw [sameChild, nodeCount_updateContent]
    exact isTree.forward
  · rw [sameChild, nodeCount_updateContent]
    exact isTree.linkedOnce
  · rw [sameChild]
    exact isTree.areNames

theorem growsTo {tree after : FileTree} (isTree : tree.IsTree) (grown : tree.GrowsTo after) :
    after.IsTree := by
  induction grown with
  | refl => exact isTree
  | attach _ vacant bare ih => exact ih.attach vacant bare
  | update _ id change ih => exact ih.updateContent id change

theorem of_perform {tree : FileTree} (isTree : tree.IsTree) (operation : Operation) :
    (tree.perform operation).2.IsTree :=
  isTree.growsTo (growsTo_perform isTree.rootDirectory operation)

end IsTree

theorem Attainable.isTree {tree : FileTree} (attainable : tree.Attainable) : tree.IsTree := by
  induction attainable with
  | empty => exact isTree_empty
  | perform _ operation ih => exact ih.of_perform operation
  | update _ id change ih => exact ih.updateContent id change

theorem Reachable.isTree {tree : FileTree} (reachable : tree.Reachable) : tree.IsTree :=
  reachable.attainable.isTree

theorem walk_append_singleton_eq_some_iff {tree : FileTree} {start id : NodeId}
    {front : List String} {name : String} :
    tree.walk start (front ++ [name]) = some id ↔
      ∃ directory, tree.walk start front = some directory ∧
        tree.child? directory name = some id := by
  rw [walk_append_singleton, Option.bind_eq_some_iff]

namespace IsTree

variable {tree : FileTree}

/-- A walk never leaves the tree. -/
theorem lt_nodeCount_of_walk (isTree : tree.IsTree) {start id : NodeId}
    {names : List String} (present : start < tree.nodeCount)
    (arrives : tree.walk start names = some id) : id < tree.nodeCount := by
  induction names generalizing start with
  | nil =>
      cases arrives
      exact present
  | cons name rest ih =>
      rw [walk_cons] at arrives
      obtain ⟨next, entry, restArrives⟩ := Option.bind_eq_some_iff.mp arrives
      exact ih (isTree.forward entry).2 restArrives

theorem root_lt_nodeCount (isTree : tree.IsTree) : root < tree.nodeCount :=
  lt_nodeCount_of_kind? isTree.rootDirectory

theorem lt_nodeCount_of_walk_root (isTree : tree.IsTree) {id : NodeId} {names : List String}
    (arrives : tree.walk root names = some id) : id < tree.nodeCount :=
  isTree.lt_nodeCount_of_walk isTree.root_lt_nodeCount arrives

theorem isName_of_walk (isTree : tree.IsTree) {start id : NodeId} {names : List String}
    (arrives : tree.walk start names = some id) : ∀ name ∈ names, Path.IsName name := by
  induction names generalizing start with
  | nil => simp
  | cons name rest ih =>
      rw [walk_cons] at arrives
      obtain ⟨next, entry, restArrives⟩ := Option.bind_eq_some_iff.mp arrives
      intro other member
      rcases List.mem_cons.mp member with rfl | later
      · exact isTree.areNames entry
      · exact ih restArrives other later

/-- Different walks from the root end at different nodes. -/
theorem walk_injective (isTree : tree.IsTree) {id : NodeId} {names others : List String}
    (arrives : tree.walk root names = some id)
    (othersArrive : tree.walk root others = some id) : names = others := by
  have noEntryIsRoot : ∀ directory name, tree.child? directory name ≠ some root := by
    intro directory name entry
    exact Nat.not_lt_zero directory (isTree.forward entry).1
  induction names using List.reverseRecOn generalizing id others with
  | nil =>
      cases arrives
      cases others using List.reverseRecOn with
      | nil => rfl
      | append_singleton front name =>
          obtain ⟨directory, _, entry⟩ := walk_append_singleton_eq_some_iff.mp othersArrive
          exact absurd entry (noEntryIsRoot directory name)
  | append_singleton front name ih =>
      obtain ⟨directory, frontArrives, entry⟩ := walk_append_singleton_eq_some_iff.mp arrives
      cases others using List.reverseRecOn with
      | nil =>
          cases othersArrive
          exact absurd entry (noEntryIsRoot directory name)
      | append_singleton otherFront otherName =>
          obtain ⟨otherDirectory, otherFrontArrives, otherEntry⟩ :=
            walk_append_singleton_eq_some_iff.mp othersArrive
          have forward := isTree.forward entry
          have notRoot : id ≠ root := Nat.ne_of_gt (Nat.zero_lt_of_lt forward.1)
          have samePlace : (directory, name) = (otherDirectory, otherName) :=
            (isTree.linkedOnce notRoot forward.2).unique entry otherEntry
          obtain ⟨rfl, rfl⟩ := Prod.mk.inj samePlace
          rw [ih frontArrives otherFrontArrives]

theorem exists_walk (isTree : tree.IsTree) {id : NodeId} (present : id < tree.nodeCount) :
    ∃ names, tree.walk root names = some id := by
  induction id using Nat.strongRecOn with
  | ind id ih =>
      by_cases isRoot : id = root
      · exact ⟨[], by rw [isRoot, walk_nil]⟩
      · obtain ⟨⟨directory, name⟩, entry, _⟩ := isTree.linkedOnce isRoot present
        have forward := isTree.forward entry
        obtain ⟨front, frontArrives⟩ := ih directory forward.1 (Nat.lt_trans forward.1 present)
        exact ⟨front ++ [name],
          walk_append_singleton_eq_some_iff.mpr ⟨directory, frontArrives, entry⟩⟩

/-- Every node lies at the end of exactly one written path. -/
theorem existsUnique_lookup (isTree : tree.IsTree) {id : NodeId}
    (present : id < tree.nodeCount) :
    ∃! names, (∀ name ∈ names, Path.IsName name) ∧
      tree.lookup (Path.render names) = some id := by
  obtain ⟨names, arrives⟩ := isTree.exists_walk present
  have areNames := isTree.isName_of_walk arrives
  refine ⟨names, ⟨areNames, ?_⟩, ?_⟩
  · rw [lookup, Path.components_render areNames]
    exact arrives
  · rintro others ⟨otherNames, found⟩
    rw [lookup, Path.components_render otherNames] at found
    exact isTree.walk_injective found arrives

end IsTree

end FileTree

end CommandShell
