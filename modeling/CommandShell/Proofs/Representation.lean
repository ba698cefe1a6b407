import CommandShell.Proofs.PathMap

/-!
# File trees that represent path maps

A file tree represents a path map when every walk from the root ends at a node of
the item that the map has there.  Attaching a node and replacing the content of a
file are what `PathMap.put` is on the other side.
-/

namespace CommandShell

/-- What users can tell about a node without its entries. -/
def Node.item : Node → PathMap.Item
  | .directory _ => .directory
  | .file content => .file content

@[simp]
theorem Node.item_link (name : String) (child : NodeId) (node : Node) :
    (node.link name child).item = node.item := by
  cases node <;> rfl

@[simp]
theorem Node.kind_item (node : Node) : node.item.kind = node.kind := by
  cases node <;> rfl

@[simp]
theorem Node.size_item (node : Node) : node.item.size = node.size := by
  cases node <;> rfl

namespace FileTree

open PathMap (Item)

def item? (tree : FileTree) (id : NodeId) : Option Item :=
  (tree.node? id).map Node.item

/-- Whether the walks of the tree end where the map says. -/
def Represents (tree : FileTree) (map : PathMap) : Prop :=
  ∀ names, (tree.walk root names).bind tree.item? = map.item? names

theorem kind?_eq_map_item? (tree : FileTree) (id : NodeId) :
    tree.kind? id = (tree.item? id).map Item.kind := by
  cases found : tree.node? id <;> simp [kind?, item?, found]

theorem content?_eq_bind_item? (tree : FileTree) (id : NodeId) :
    tree.content? id = (tree.item? id).bind Item.content? := by
  cases found : tree.node? id with
  | none => simp [content?, item?, found]
  | some node => cases node <;> simp [content?, item?, found, Node.item, Node.content?,
      Item.content?]

theorem kind?_eq_directory_iff_item? {tree : FileTree} {id : NodeId} :
    tree.kind? id = some .directory ↔ tree.item? id = some .directory := by
  rw [kind?_eq_map_item?]
  rcases tree.item? id with _ | _ | content <;> simp [Item.kind]

theorem item?_isSome {tree : FileTree} {id : NodeId} (present : id < tree.nodeCount) :
    ∃ item, tree.item? id = some item := by
  cases found : tree.node? id with
  | none => exact absurd present (Nat.not_lt_of_le (node?_eq_none_iff.mp found))
  | some node => exact ⟨node.item, by simp [item?, found]⟩

theorem item?_attach {tree : FileTree} {parent : NodeId} {name : String} {node : Node}
    (vacant : tree.Vacant parent name) (id : NodeId) :
    (tree.attach parent name node).2.item? id =
      if id = tree.nodeCount then some node.item else tree.item? id := by
  rw [item?, node?_attach vacant.lt_nodeCount]
  split
  · rfl
  · split
    · cases found : tree.node? id <;> simp [item?, found]
    · rfl

theorem item?_updateContent {tree : FileTree} {id : NodeId} (isFile : tree.kind? id = some .file)
    (content : String) (other : NodeId) :
    (tree.updateContent id fun _ => content).item? other =
      if other = id then some (.file content) else tree.item? other := by
  rw [item?, node?_updateContent]
  by_cases same : id = other
  · subst same
    obtain ⟨node, found, kind⟩ := Option.map_eq_some_iff.mp isFile
    cases node with
    | directory children => simp [Node.kind] at kind
    | file old => simp [found, Node.mapContent, Node.item]
  · simp [same, Ne.symm same, item?]

/-- After attaching one walk more arrives, and no other walk changes. -/
theorem IsTree.walk_attach {tree : FileTree} (isTree : tree.IsTree) {parent : NodeId}
    {front : List String} {name : String} {node : Node}
    (arrives : tree.walk root front = some parent) (vacant : tree.Vacant parent name)
    (bare : node.IsBare) (names : List String) :
    (tree.attach parent name node).2.walk root names =
      if names = front ++ [name] then some tree.nodeCount else tree.walk root names := by
  induction names using List.reverseRecOn with
  | nil => simp
  | append_singleton before step ih =>
      rw [walk_append_singleton, ih, walk_append_singleton]
      by_cases isNew : before = front ++ [name]
      · -- The new node has no entries, and the old tree has no such place at all.
        have longer : before ++ [step] ≠ front ++ [name] := by
          intro same
          have lengths := congrArg List.length same
          simp [isNew] at lengths
        have nothingThere : tree.walk root before = none := by
          rw [isNew, walk_append_singleton, arrives, Option.bind_some, vacant.free]
        rw [if_pos isNew, if_neg longer, nothingThere, Option.bind_some,
          child?_attach_new vacant bare]
        rfl
      · rw [if_neg isNew]
        cases beforeArrives : tree.walk root before with
        | none =>
            have otherPlace : before ++ [step] ≠ front ++ [name] := by
              intro same
              obtain ⟨rfl, _⟩ := List.append_inj' same rfl
              simp [arrives] at beforeArrives
            rw [if_neg otherPlace]
            rfl
        | some id =>
            rw [Option.bind_some, Option.bind_some, child?_attach_of_vacant vacant bare]
            have samePlace : (id = parent ∧ step = name) ↔
                before ++ [step] = front ++ [name] := by
              constructor
              · rintro ⟨rfl, rfl⟩
                rw [isTree.walk_injective beforeArrives arrives]
              · intro same
                obtain ⟨rfl, sameStep⟩ := List.append_inj' same rfl
                rw [beforeArrives] at arrives
                exact ⟨Option.some.inj arrives, List.singleton_inj.mp sameStep⟩
            simp only [samePlace]

theorem walk_updateContent (tree : FileTree) (id : NodeId) (change : String → String) :
    (tree.updateContent id change).walk = tree.walk := by
  funext start names
  rw [walk, walk, child?_updateContent]

namespace Represents

variable {tree : FileTree} {map : PathMap}

theorem item?_of_walk (represents : tree.Represents map) {names : List String} {id : NodeId}
    (arrives : tree.walk root names = some id) : map.item? names = tree.item? id := by
  rw [← represents names, arrives, Option.bind_some]

theorem item?_append (represents : tree.Represents map) {front : List String}
    {parent : NodeId} (arrives : tree.walk root front = some parent) (name : String) :
    map.item? (front ++ [name]) = (tree.child? parent name).bind tree.item? := by
  rw [← represents, walk_append_singleton, arrives, Option.bind_some]

theorem exists_directory (represents : tree.Represents map) {names : List String}
    (directory : map.item? names = some .directory) :
    ∃ id, tree.walk root names = some id ∧ tree.kind? id = some .directory := by
  rw [← represents] at directory
  obtain ⟨id, arrives, item⟩ := Option.bind_eq_some_iff.mp directory
  exact ⟨id, arrives, kind?_eq_directory_iff_item?.mpr item⟩

theorem directoryAt_of_directory (represents : tree.Represents map) {names : List String}
    (areNames : ∀ name ∈ names, Path.IsName name)
    (directory : map.item? names = some .directory) :
    ∃ id, tree.walk root names = some id ∧ tree.directoryAt (Path.render names) = .ok id := by
  obtain ⟨id, arrives, isDirectory⟩ := represents.exists_directory directory
  refine ⟨id, arrives, directoryAt_eq_ok_iff.mpr ⟨?_, isDirectory⟩⟩
  rw [lookup, Path.components_render areNames]
  exact arrives

theorem directoryAt_of_not_directory (represents : tree.Represents map)
    {names : List String} (areNames : ∀ name ∈ names, Path.IsName name)
    (notDirectory : map.item? names ≠ some .directory) :
    tree.directoryAt (Path.render names) = .error (.notADirectory (Path.render names)) := by
  rcases tree.directoryAt_cases (Path.render names) with failed | ⟨id, found⟩
  · exact failed
  · obtain ⟨arrives, isDirectory⟩ := directoryAt_eq_ok_iff.mp found
    rw [lookup, Path.components_render areNames] at arrives
    rw [represents.item?_of_walk arrives] at notDirectory
    exact absurd (kind?_eq_directory_iff_item?.mp isDirectory) notDirectory

theorem attach (represents : tree.Represents map) (isTree : tree.IsTree) {parent : NodeId}
    {front : List String} {name : String} {node : Node}
    (arrives : tree.walk root front = some parent) (vacant : tree.Vacant parent name)
    (bare : node.IsBare) :
    (tree.attach parent name node).2.Represents (map.put (front ++ [name]) node.item) := by
  have directory : map.item? front = some .directory := by
    rw [represents.item?_of_walk arrives]
    exact kind?_eq_directory_iff_item?.mp vacant.isDirectory
  have absent : map.item? (front ++ [name]) = none := by
    rw [represents.item?_append arrives, vacant.free]
    rfl
  have accepts : map.Accepts (front ++ [name]) :=
    PathMap.accepts_append directory (by simp [absent])
  intro names
  rw [PathMap.item?_put accepts, isTree.walk_attach arrives vacant bare]
  split
  · rw [Option.bind_some, item?_attach vacant, if_pos rfl]
  · rw [← represents names]
    cases reached : tree.walk root names with
    | none => rfl
    | some id =>
        have old := isTree.lt_nodeCount_of_walk_root reached
        rw [Option.bind_some, Option.bind_some, item?_attach vacant, if_neg (Nat.ne_of_lt old)]

theorem updateContent (represents : tree.Represents map) (isTree : tree.IsTree)
    {id : NodeId} {names : List String} (arrives : tree.walk root names = some id)
    (isFile : tree.kind? id = some .file) (content : String) :
    (tree.updateContent id fun _ => content).Represents (map.put names (.file content)) := by
  have notDirectory : map.item? names ≠ some .directory := by
    rw [represents.item?_of_walk arrives]
    intro directory
    rw [kind?_eq_directory_iff_item?.mpr directory] at isFile
    simp at isFile
  have accepts : map.Accepts names := by
    cases names using List.reverseRecOn with
    | nil => exact absurd map.root notDirectory
    | append_singleton front name =>
        have present : map.item? (front ++ [name]) ≠ none := by
          obtain ⟨item, known⟩ := item?_isSome (lt_nodeCount_of_kind? isFile)
          rw [represents.item?_of_walk arrives, known]
          simp
        exact PathMap.accepts_append (map.prefixClosed present) notDirectory
  intro others
  rw [PathMap.item?_put accepts, walk_updateContent]
  by_cases same : others = names
  · rw [if_pos same, same, arrives, Option.bind_some, item?_updateContent isFile, if_pos rfl]
  · rw [if_neg same, ← represents others]
    cases reached : tree.walk root others with
    | none => rfl
    | some other =>
        have otherNode : other ≠ id := by
          rintro rfl
          exact same (isTree.walk_injective reached arrives)
        rw [Option.bind_some, Option.bind_some, item?_updateContent isFile, if_neg otherNode]

end Represents

theorem represents_empty : empty.Represents .bare := by
  intro names
  cases names with
  | nil => rfl
  | cons name rest =>
      rw [walk_cons, child?_empty]
      rfl

end FileTree

end CommandShell
