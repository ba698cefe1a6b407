import CommandShell.FileTree.Basic

/-!
# How a file tree grows

What the two elementary changes of a file tree, attaching a node and changing
the content of a file, do to its lookups.  A new node shows under its name in
one directory and nowhere else, and a change of content shows in one file.
-/

namespace CommandShell

namespace Node

@[simp]
theorem kind_link (name : String) (child : NodeId) (node : Node) :
    (node.link name child).kind = node.kind := by
  cases node <;> rfl

@[simp]
theorem content?_link (name : String) (child : NodeId) (node : Node) :
    (node.link name child).content? = node.content? := by
  cases node <;> rfl

@[simp]
theorem children?_link (name : String) (child : NodeId) (node : Node) :
    (node.link name child).children? =
      node.children?.map fun children => children.insert name child := by
  cases node <;> rfl

@[simp]
theorem kind_mapContent (update : String → String) (node : Node) :
    (node.mapContent update).kind = node.kind := by
  cases node <;> rfl

@[simp]
theorem children?_mapContent (update : String → String) (node : Node) :
    (node.mapContent update).children? = node.children? := by
  cases node <;> rfl

@[simp]
theorem content?_mapContent (update : String → String) (node : Node) :
    (node.mapContent update).content? = node.content?.map update := by
  cases node <;> rfl

end Node

namespace FileTree

theorem node?_eq_none_iff {tree : FileTree} {id : NodeId} :
    tree.node? id = none ↔ tree.nodeCount ≤ id :=
  Array.getElem?_eq_none_iff

theorem lt_nodeCount_of_node? {tree : FileTree} {id : NodeId} {node : Node}
    (found : tree.node? id = some node) : id < tree.nodeCount := by
  by_cases inside : id < tree.nodeCount
  · exact inside
  · simp [node?_eq_none_iff.mpr (Nat.le_of_not_lt inside)] at found

@[simp]
theorem nodeCount_attach (tree : FileTree) (parent : NodeId) (name : String) (node : Node) :
    (tree.attach parent name node).2.nodeCount = tree.nodeCount + 1 := by
  simp [attach, nodeCount]

/-- Attaching adds one node at the end and one link in its parent. -/
theorem node?_attach {tree : FileTree} {parent : NodeId} (present : parent < tree.nodeCount)
    (name : String) (node : Node) (id : NodeId) :
    (tree.attach parent name node).2.node? id =
      if id = tree.nodeCount then some node
      else if id = parent then (tree.node? id).map (Node.link name tree.nodeCount)
      else tree.node? id := by
  simp only [attach, node?, nodeCount, Array.getElem?_modify, Array.getElem?_push] at *
  by_cases new : id = tree.nodes.size
  · have other : parent ≠ tree.nodes.size := Nat.ne_of_lt present
    simp [new, other]
  · by_cases same : parent = id
    · simp [same, new]
    · simp [same, new, Ne.symm same]

theorem children?_attach {tree : FileTree} {parent : NodeId} (present : parent < tree.nodeCount)
    (name : String) (node : Node) (id : NodeId) :
    (tree.attach parent name node).2.children? id =
      if id = tree.nodeCount then node.children?
      else if id = parent then
        (tree.children? id).map fun children => children.insert name tree.nodeCount
      else tree.children? id := by
  simp only [children?, node?_attach present]
  split
  · rfl
  · split
    · cases tree.node? id <;> simp
    · rfl

/-- A node without entries becomes reachable by one step from its parent, and no
other step changes. -/
theorem child?_attach {tree : FileTree} {parent : NodeId} {children : NameMap NodeId}
    (directory : tree.children? parent = some children) (name : String) {node : Node}
    (bare : node.children? = none ∨ node.children? = some .empty) (id : NodeId)
    (step : String) :
    (tree.attach parent name node).2.child? id step =
      if id = parent ∧ step = name then some tree.nodeCount else tree.child? id step := by
  have present : parent < tree.nodeCount := by
    obtain ⟨parentNode, found, _⟩ := Option.bind_eq_some_iff.mp directory
    exact lt_nodeCount_of_node? found
  simp only [child?, children?_attach present]
  by_cases new : id = tree.nodeCount
  · have other : id ≠ parent := fun same => Nat.ne_of_lt present (same.symm.trans new)
    have absent : tree.children? id = none := by
      simp [children?, node?_eq_none_iff.mpr (Nat.le_of_eq new.symm)]
    rw [if_pos new, if_neg fun both => other both.1, absent]
    rcases bare with none | empty
    · simp [none]
    · simp [empty, NameMap.find?_empty]
  · by_cases same : id = parent
    · subst same
      simp only [new, if_false, if_true, directory, Option.map_some, Option.bind_some,
        NameMap.find?_insert, true_and]
      by_cases named : name = step
      · simp [named]
      · simp [named, Ne.symm named]
    · simp [new, same]

theorem kind?_attach_of_lt {tree : FileTree} {parent id : NodeId}
    (present : parent < tree.nodeCount) (old : id < tree.nodeCount) (name : String)
    (node : Node) : (tree.attach parent name node).2.kind? id = tree.kind? id := by
  rw [kind?, node?_attach present, if_neg (Nat.ne_of_lt old)]
  split
  · cases found : tree.node? id <;> simp [kind?, found]
  · rfl

theorem content?_attach {tree : FileTree} {parent : NodeId} (present : parent < tree.nodeCount)
    (name : String) (node : Node) (id : NodeId) :
    (tree.attach parent name node).2.content? id =
      if id = tree.nodeCount then node.content? else tree.content? id := by
  simp only [content?, node?_attach present]
  split
  · rfl
  · split
    · cases tree.node? id <;> simp
    · rfl

theorem node?_updateContent (tree : FileTree) (id : NodeId) (update : String → String)
    (other : NodeId) :
    (tree.updateContent id update).node? other =
      if id = other then (tree.node? other).map (Node.mapContent update)
      else tree.node? other := by
  simp only [updateContent, node?, Array.getElem?_modify]

@[simp]
theorem nodeCount_updateContent (tree : FileTree) (id : NodeId) (update : String → String) :
    (tree.updateContent id update).nodeCount = tree.nodeCount := by
  simp [updateContent, nodeCount]

@[simp]
theorem kind?_updateContent (tree : FileTree) (id : NodeId) (update : String → String)
    (other : NodeId) : (tree.updateContent id update).kind? other = tree.kind? other := by
  rw [kind?, node?_updateContent]
  split
  · cases found : tree.node? other <;> simp [kind?, found]
  · rfl

@[simp]
theorem children?_updateContent (tree : FileTree) (id : NodeId) (update : String → String)
    (other : NodeId) :
    (tree.updateContent id update).children? other = tree.children? other := by
  rw [children?, node?_updateContent]
  split
  · cases found : tree.node? other <;> simp [children?, found]
  · rfl

theorem content?_updateContent (tree : FileTree) (id : NodeId) (update : String → String)
    (other : NodeId) :
    (tree.updateContent id update).content? other =
      if id = other then (tree.content? other).map update else tree.content? other := by
  rw [content?, node?_updateContent]
  split
  · cases found : tree.node? other <;> simp [content?, found]
  · rfl

end FileTree

end CommandShell
