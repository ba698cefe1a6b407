import CommandShell.FileTree.Lemmas
import CommandShell.Proofs.Paths

/-!
# File trees only grow

Every operation on a file tree is a sequence of two kinds of steps: a bare node
is attached where its directory has no entry of that name yet, or the content of
a file is changed.  `FileTree.GrowsTo` says so once.  Whatever both steps keep,
the kinds of nodes and the ends of walks, is thereby kept by every operation.
-/

namespace CommandShell

/-- Whether a node is one that an operation creates. -/
def Node.IsBare (node : Node) : Prop :=
  node = .emptyDirectory ∨ node = .emptyFile

namespace FileTree

theorem kind?_eq_directory_iff {tree : FileTree} {id : NodeId} :
    tree.kind? id = some .directory ↔ ∃ children, tree.children? id = some children := by
  cases found : tree.node? id with
  | none => simp [kind?, children?, found]
  | some node => cases node <;> simp [kind?, children?, found, Node.kind, Node.children?]

theorem kind?_eq_file_iff {tree : FileTree} {id : NodeId} :
    tree.kind? id = some .file ↔ ∃ content, tree.content? id = some content := by
  cases found : tree.node? id with
  | none => simp [kind?, content?, found]
  | some node => cases node <;> simp [kind?, content?, found, Node.kind, Node.content?]

theorem lt_nodeCount_of_kind? {tree : FileTree} {id : NodeId} {kind : NodeKind}
    (known : tree.kind? id = some kind) : id < tree.nodeCount := by
  obtain ⟨node, found, _⟩ := Option.map_eq_some_iff.mp known
  exact lt_nodeCount_of_node? found

theorem exists_kind?_of_lt {tree : FileTree} {id : NodeId} (present : id < tree.nodeCount) :
    ∃ kind, tree.kind? id = some kind := by
  cases found : tree.node? id with
  | none => exact absurd present (Nat.not_lt_of_le (node?_eq_none_iff.mp found))
  | some node => exact ⟨node.kind, by rw [kind?, found, Option.map_some]⟩

theorem lt_nodeCount_of_child? {tree : FileTree} {directory id : NodeId} {name : String}
    (entry : tree.child? directory name = some id) : directory < tree.nodeCount := by
  obtain ⟨children, listed, _⟩ := Option.bind_eq_some_iff.mp entry
  exact lt_nodeCount_of_kind? (kind?_eq_directory_iff.mpr ⟨children, listed⟩)

theorem child?_eq_none_of_nodeCount_le {tree : FileTree} {directory : NodeId}
    (outside : tree.nodeCount ≤ directory) (name : String) :
    tree.child? directory name = none := by
  cases entry : tree.child? directory name with
  | none => rfl
  | some id => exact absurd (lt_nodeCount_of_child? entry) (Nat.not_lt.mpr outside)

theorem child?_updateContent (tree : FileTree) (id : NodeId) (change : String → String) :
    (tree.updateContent id change).child? = tree.child? := by
  funext directory name
  rw [child?, children?_updateContent, child?]

@[simp]
theorem walk_nil (tree : FileTree) (start : NodeId) : tree.walk start [] = some start :=
  rfl

theorem walk_cons (tree : FileTree) (start : NodeId) (name : String) (rest : List String) :
    tree.walk start (name :: rest) = (tree.child? start name).bind (tree.walk · rest) :=
  rfl

theorem walk_append (tree : FileTree) (start : NodeId) (front back : List String) :
    tree.walk start (front ++ back) = (tree.walk start front).bind (tree.walk · back) := by
  rw [walk, List.foldlM_append]
  rfl

theorem walk_append_singleton (tree : FileTree) (start : NodeId) (front : List String)
    (name : String) :
    tree.walk start (front ++ [name]) =
      (tree.walk start front).bind (tree.child? · name) := by
  rw [walk_append]
  cases tree.walk start front with
  | none => rfl
  | some id =>
      rw [Option.bind_some, Option.bind_some, walk_cons]
      cases tree.child? id name <;> rfl

/-- A place for a new entry: a directory that has no entry of the name yet. -/
structure Vacant (tree : FileTree) (directory : NodeId) (name : String) : Prop where
  isDirectory : tree.kind? directory = some .directory
  free : tree.child? directory name = none
  isName : Path.IsName name

section Attach

variable {tree : FileTree} {parent : NodeId} {name : String} {node : Node}

theorem Vacant.lt_nodeCount (vacant : tree.Vacant parent name) : parent < tree.nodeCount :=
  lt_nodeCount_of_kind? vacant.isDirectory

theorem node?_attach_new (vacant : tree.Vacant parent name) :
    (tree.attach parent name node).2.node? tree.nodeCount = some node := by
  rw [node?_attach vacant.lt_nodeCount, if_pos rfl]

theorem kind?_attach_new (vacant : tree.Vacant parent name) :
    (tree.attach parent name node).2.kind? tree.nodeCount = some node.kind := by
  rw [kind?, node?_attach_new vacant, Option.map_some]

theorem child?_attach_of_vacant (vacant : tree.Vacant parent name) (bare : node.IsBare)
    (id : NodeId) (step : String) :
    (tree.attach parent name node).2.child? id step =
      if id = parent ∧ step = name then some tree.nodeCount else tree.child? id step := by
  obtain ⟨children, directory⟩ := kind?_eq_directory_iff.mp vacant.isDirectory
  apply child?_attach directory
  rcases bare with rfl | rfl
  · exact .inr rfl
  · exact .inl rfl

/-- A new node has no entries. -/
theorem child?_attach_new (vacant : tree.Vacant parent name) (bare : node.IsBare)
    (step : String) : (tree.attach parent name node).2.child? tree.nodeCount step = none := by
  have notParent : tree.nodeCount ≠ parent := Nat.ne_of_gt vacant.lt_nodeCount
  rw [child?_attach_of_vacant vacant bare, if_neg fun both => notParent both.1]
  exact child?_eq_none_of_nodeCount_le (Nat.le_refl _) step

theorem kind?_attach_of_kind? (vacant : tree.Vacant parent name) {id : NodeId}
    {kind : NodeKind} (known : tree.kind? id = some kind) :
    (tree.attach parent name node).2.kind? id = some kind := by
  rw [kind?_attach_of_lt vacant.lt_nodeCount (lt_nodeCount_of_kind? known), known]

theorem child?_attach_of_child? (vacant : tree.Vacant parent name) (bare : node.IsBare)
    {directory id : NodeId} {step : String} (entry : tree.child? directory step = some id) :
    (tree.attach parent name node).2.child? directory step = some id := by
  rw [child?_attach_of_vacant vacant bare, if_neg, entry]
  rintro ⟨rfl, rfl⟩
  simp [vacant.free] at entry

end Attach

/-- Whether a tree becomes another one by attaching bare nodes at vacant places
and by changing the contents of files. -/
inductive GrowsTo (tree : FileTree) : FileTree → Prop where
  | refl : GrowsTo tree tree
  | attach {between : FileTree} {parent : NodeId} {name : String} {node : Node}
      (grown : GrowsTo tree between) (vacant : between.Vacant parent name)
      (bare : node.IsBare) : GrowsTo tree (between.attach parent name node).2
  | update {between : FileTree} (grown : GrowsTo tree between) (id : NodeId)
      (change : String → String) : GrowsTo tree (between.updateContent id change)

namespace GrowsTo

variable {tree between after : FileTree}

theorem trans (first : tree.GrowsTo between) (second : between.GrowsTo after) :
    tree.GrowsTo after := by
  induction second with
  | refl => exact first
  | attach _ vacant bare ih => exact ih.attach vacant bare
  | update _ id change ih => exact ih.update id change

theorem of_vacant {parent : NodeId} {name : String} {node : Node}
    (vacant : tree.Vacant parent name) (bare : node.IsBare) :
    tree.GrowsTo (tree.attach parent name node).2 :=
  .attach .refl vacant bare

theorem nodeCount_le (grown : tree.GrowsTo after) : tree.nodeCount ≤ after.nodeCount := by
  induction grown with
  | refl => exact Nat.le_refl _
  | attach _ _ _ ih =>
      rw [nodeCount_attach]
      omega
  | update _ id change ih =>
      rw [nodeCount_updateContent]
      exact ih

theorem kind?_eq_some (grown : tree.GrowsTo after) {id : NodeId} {kind : NodeKind}
    (known : tree.kind? id = some kind) : after.kind? id = some kind := by
  induction grown with
  | refl => exact known
  | attach _ vacant _ ih => exact kind?_attach_of_kind? vacant ih
  | update _ other change ih => rw [kind?_updateContent, ih]

theorem child?_eq_some (grown : tree.GrowsTo after) {directory id : NodeId} {name : String}
    (entry : tree.child? directory name = some id) :
    after.child? directory name = some id := by
  induction grown with
  | refl => exact entry
  | attach _ vacant bare ih => exact child?_attach_of_child? vacant bare ih
  | update _ other change ih =>
      rw [child?_updateContent]
      exact ih

theorem walk_eq_some (grown : tree.GrowsTo after) {start id : NodeId} {names : List String}
    (arrives : tree.walk start names = some id) : after.walk start names = some id := by
  induction names generalizing start with
  | nil => exact arrives
  | cons name rest ih =>
      rw [walk_cons] at arrives
      obtain ⟨next, entry, restArrives⟩ := Option.bind_eq_some_iff.mp arrives
      rw [walk_cons, grown.child?_eq_some entry]
      exact ih restArrives

theorem lookup_eq_some (grown : tree.GrowsTo after) {id : NodeId} {path : String}
    (found : tree.lookup path = some id) : after.lookup path = some id :=
  grown.walk_eq_some found

end GrowsTo

theorem directoryAt_eq_ok_iff {tree : FileTree} {path : String} {id : NodeId} :
    tree.directoryAt path = .ok id ↔
      tree.lookup path = some id ∧ tree.kind? id = some .directory := by
  unfold directoryAt
  cases tree.lookup path with
  | none => simp
  | some found =>
      by_cases isDirectory : tree.kind? found = some .directory
      · simp only [isDirectory, if_true, Except.ok.injEq, Option.some.injEq]
        constructor
        · rintro rfl
          exact ⟨rfl, isDirectory⟩
        · exact fun both => both.1
      · simp only [isDirectory, if_false, Option.some.injEq, reduceCtorEq, false_iff]
        rintro ⟨rfl, same⟩
        exact isDirectory same

theorem directoryAt_cases (tree : FileTree) (path : String) :
    tree.directoryAt path = .error (.notADirectory path) ∨
      ∃ id, tree.directoryAt path = .ok id := by
  unfold directoryAt
  cases tree.lookup path with
  | none => exact .inl rfl
  | some id =>
      by_cases isDirectory : tree.kind? id = some .directory
      · exact .inr ⟨id, if_pos isDirectory⟩
      · exact .inl (if_neg isDirectory)

/-- What there is at the place that a path names.  The operations that create one
entry decide by nothing else. -/
inductive Spot (tree : FileTree) (path : String) : Prop where
  | noLeaf (none : (Path.splitParent path).2 = "")
  | noDirectory (hasLeaf : (Path.splitParent path).2 ≠ "")
      (failed : tree.directoryAt (Path.splitParent path).1 =
        .error (.notADirectory (Path.splitParent path).1))
  | taken (parent id : NodeId) (hasLeaf : (Path.splitParent path).2 ≠ "")
      (directory : tree.directoryAt (Path.splitParent path).1 = .ok parent)
      (entry : tree.child? parent (Path.splitParent path).2 = some id)
  | vacant (parent : NodeId) (hasLeaf : (Path.splitParent path).2 ≠ "")
      (directory : tree.directoryAt (Path.splitParent path).1 = .ok parent)
      (vacant : tree.Vacant parent (Path.splitParent path).2)

theorem spot (tree : FileTree) (path : String) : tree.Spot path := by
  by_cases none : (Path.splitParent path).2 = ""
  · exact .noLeaf none
  rcases tree.directoryAt_cases (Path.splitParent path).1 with failed | ⟨parent, directory⟩
  · exact .noDirectory none failed
  cases entry : tree.child? parent (Path.splitParent path).2 with
  | some id => exact .taken parent id none directory entry
  | none =>
      have isDirectory := (directoryAt_eq_ok_iff.mp directory).2
      exact .vacant parent none directory ⟨isDirectory, entry, Path.isName_leaf none⟩

/-- A free place for an entry at the end of a path. -/
structure FreeEnd (tree : FileTree) (path : String) (parent : NodeId) : Prop where
  hasLeaf : (Path.splitParent path).2 ≠ ""
  directory : tree.directoryAt (Path.splitParent path).1 = .ok parent
  vacant : tree.Vacant parent (Path.splitParent path).2

section Operations

variable {tree : FileTree} {current path : String}

theorem lookup_of_directoryAt {parent id : NodeId} (hasLeaf : (Path.splitParent path).2 ≠ "")
    (directory : tree.directoryAt (Path.splitParent path).1 = .ok parent)
    (entry : tree.child? parent (Path.splitParent path).2 = some id) :
    tree.lookup path = some id := by
  have parentFound := (directoryAt_eq_ok_iff.mp directory).1
  rw [lookup] at parentFound
  rw [lookup, Path.components_eq_append_leaf hasLeaf, walk_append_singleton, parentFound]
  exact entry

/-- A node that is attached where a path ends is what the path leads to. -/
theorem FreeEnd.lookup_attach {parent : NodeId} (free : tree.FreeEnd path parent) {node : Node}
    (bare : node.IsBare) :
    (tree.attach parent (Path.splitParent path).2 node).2.lookup path = some tree.nodeCount := by
  -- The directory is still there, and now it has the entry.
  have grown : tree.GrowsTo (tree.attach parent (Path.splitParent path).2 node).2 :=
    .of_vacant free.vacant bare
  obtain ⟨parentFound, isDirectory⟩ := directoryAt_eq_ok_iff.mp free.directory
  refine lookup_of_directoryAt free.hasLeaf (directoryAt_eq_ok_iff.mpr
    ⟨grown.lookup_eq_some parentFound, grown.kind?_eq_some isDirectory⟩) ?_
  rw [child?_attach_of_vacant free.vacant bare, if_pos ⟨rfl, rfl⟩]

/-- What the creation of a directory comes to.  Whatever it keeps is read off these cases. -/
inductive Creation (tree : FileTree) (current path : String) : Prop where
  | refused (failure : Failure)
      (told : failure = .alreadyExists (Path.resolve current path) ∨
        failure = .notADirectory (Path.splitParent (Path.resolve current path)).1)
      (result : tree.makeDirectory current path = (.error failure, tree))
  | created (parent : NodeId) (free : tree.FreeEnd (Path.resolve current path) parent)
      (result : tree.makeDirectory current path = (.ok tree.nodeCount,
        (tree.attach parent (Path.splitParent (Path.resolve current path)).2
          .emptyDirectory).2))

theorem creation (tree : FileTree) (current path : String) : tree.Creation current path := by
  cases tree.spot (Path.resolve current path) with
  | noLeaf none =>
      refine .refused _ (.inl rfl) ?_
      simp only [makeDirectory, none, if_true]
  | noDirectory hasLeaf failed =>
      refine .refused _ (.inr rfl) ?_
      simp only [makeDirectory, hasLeaf, if_false, failed]
  | taken parent id hasLeaf directory entry =>
      refine .refused _ (.inl rfl) ?_
      simp only [makeDirectory, hasLeaf, if_false, directory, entry]
  | vacant parent hasLeaf directory vacant =>
      refine .created parent ⟨hasLeaf, directory, vacant⟩ ?_
      simp only [makeDirectory, hasLeaf, if_false, directory, vacant.free]
      rfl

/-- What the opening of a file comes to. -/
inductive Opening (tree : FileTree) (current path : String) (create : Bool) : Prop where
  | refused (failure : Failure)
      (told : failure = .notAFile (Path.resolve current path) ∨
        failure = .notADirectory (Path.splitParent (Path.resolve current path)).1)
      (result : tree.openFile current path create = (.error failure, tree))
  | found (id : NodeId) (isFile : tree.kind? id = some .file)
      (leads : tree.lookup (Path.resolve current path) = some id)
      (result : tree.openFile current path create = (.ok id, tree))
  | created (asked : create = true) (parent : NodeId)
      (free : tree.FreeEnd (Path.resolve current path) parent)
      (result : tree.openFile current path create = (.ok tree.nodeCount,
        (tree.attach parent (Path.splitParent (Path.resolve current path)).2 .emptyFile).2))

theorem opening (tree : FileTree) (current path : String) (create : Bool) :
    tree.Opening current path create := by
  cases tree.spot (Path.resolve current path) with
  | noLeaf none =>
      refine .refused _ (.inl rfl) ?_
      simp only [openFile, none, if_true]
  | noDirectory hasLeaf failed =>
      refine .refused _ (.inr rfl) ?_
      simp only [openFile, hasLeaf, if_false, failed]
  | taken parent id hasLeaf directory entry =>
      by_cases isFile : (tree.content? id).isSome
      · refine .found id (kind?_eq_file_iff.mpr (Option.isSome_iff_exists.mp isFile))
          (lookup_of_directoryAt hasLeaf directory entry) ?_
        simp only [openFile, hasLeaf, if_false, directory, entry, isFile, if_true]
      · refine .refused _ (.inl rfl) ?_
        simp only [openFile, hasLeaf, if_false, directory, entry, isFile, Bool.false_eq_true]
  | vacant parent hasLeaf directory vacant =>
      cases create with
      | true =>
          refine .created rfl parent ⟨hasLeaf, directory, vacant⟩ ?_
          simp only [openFile, hasLeaf, if_false, directory, vacant.free, if_true]
          rfl
      | false =>
          refine .refused _ (.inl rfl) ?_
          simp only [openFile, hasLeaf, if_false, directory, vacant.free, Bool.false_eq_true]

theorem growsTo_makeDirectory (tree : FileTree) (current path : String) :
    tree.GrowsTo (tree.makeDirectory current path).2 := by
  cases tree.creation current path with
  | refused failure told result =>
      rw [result]
      exact .refl
  | created parent free result =>
      rw [result]
      exact .of_vacant free.vacant (.inl rfl)

theorem growsTo_openFile (tree : FileTree) (current path : String) (create : Bool) :
    tree.GrowsTo (tree.openFile current path create).2 := by
  cases tree.opening current path create with
  | refused failure told result =>
      rw [result]
      exact .refl
  | found id isFile leads result =>
      rw [result]
      exact .refl
  | created asked parent free result =>
      rw [result]
      exact .of_vacant free.vacant (.inr rfl)

section Opened

variable {create : Bool} {id : NodeId} {failure : Failure} {after : FileTree}

/-- An opened node is a file. -/
theorem kind?_of_openFile (opened : tree.openFile current path create = (.ok id, after)) :
    after.kind? id = some .file := by
  cases tree.opening current path create with
  | refused failure told result =>
      rw [result] at opened
      cases opened
  | found id isFile leads result =>
      rw [result] at opened
      cases opened
      exact isFile
  | created asked parent free result =>
      rw [result] at opened
      cases opened
      exact kind?_attach_new free.vacant

/-- The path of an opened file leads to it. -/
theorem find?_of_openFile (opened : tree.openFile current path create = (.ok id, after)) :
    after.find? current path = some id := by
  cases tree.opening current path create with
  | refused failure told result =>
      rw [result] at opened
      cases opened
  | found id isFile leads result =>
      rw [result] at opened
      cases opened
      exact leads
  | created asked parent free result =>
      rw [result] at opened
      cases opened
      exact free.lookup_attach (.inr rfl)

/-- An opening that fails leaves the tree as it is. -/
theorem eq_of_openFile_error
    (failed : tree.openFile current path create = (.error failure, after)) : after = tree := by
  cases tree.opening current path create with
  | refused failure told result =>
      rw [result] at failed
      exact (Prod.mk.inj failed).2.symm
  | found id isFile leads result =>
      rw [result] at failed
      cases failed
  | created asked parent free result =>
      rw [result] at failed
      cases failed

end Opened

theorem growsTo_writeFile (tree : FileTree) (current path content : String) :
    tree.GrowsTo (tree.writeFile current path content).2 := by
  have grown := tree.growsTo_openFile current path true
  unfold writeFile
  split
  next id opened result =>
    rw [result] at grown
    exact grown.update id _
  next => exact grown

/-- Creating directories from a directory on grows the tree, and where it succeeds
it ends at a directory behind the names. -/
theorem makeDirectoriesFrom_spec {directory : NodeId} {passed names : List String}
    (isDirectory : tree.kind? directory = some .directory)
    (areNames : ∀ name ∈ names, Path.IsName name) :
    tree.GrowsTo (tree.makeDirectoriesFrom directory passed names).2 ∧
      ∀ id, (tree.makeDirectoriesFrom directory passed names).1 = .ok id →
        (tree.makeDirectoriesFrom directory passed names).2.walk directory names = some id ∧
        (tree.makeDirectoriesFrom directory passed names).2.kind? id = some .directory := by
  induction names generalizing tree directory passed with
  | nil =>
      refine ⟨.refl, fun id same => ?_⟩
      cases same
      exact ⟨rfl, isDirectory⟩
  | cons name rest ih =>
      have restNames : ∀ other ∈ rest, Path.IsName other :=
        fun other member => areNames other (List.mem_cons_of_mem _ member)
      unfold makeDirectoriesFrom
      cases entry : tree.child? directory name with
      | none =>
          have vacant : tree.Vacant directory name :=
            ⟨isDirectory, entry, areNames name List.mem_cons_self⟩
          have newDirectory :
              (tree.attach directory name .emptyDirectory).2.kind? tree.nodeCount =
                some .directory := kind?_attach_new vacant
          have newEntry :
              (tree.attach directory name .emptyDirectory).2.child? directory name =
                some tree.nodeCount := by
            rw [child?_attach_of_vacant vacant (.inl rfl), if_pos ⟨rfl, rfl⟩]
          obtain ⟨restGrows, restArrives⟩ := @ih _ _ (passed ++ [name]) newDirectory restNames
          refine ⟨(GrowsTo.of_vacant vacant (.inl rfl)).trans restGrows, fun id same => ?_⟩
          obtain ⟨arrives, kind⟩ := restArrives id same
          refine ⟨?_, kind⟩
          rw [walk_cons]
          exact Option.bind_eq_some_iff.mpr
            ⟨tree.nodeCount, restGrows.child?_eq_some newEntry, arrives⟩
      | some next =>
          by_cases nextDirectory : tree.kind? next = some .directory
          · simp only [nextDirectory, if_true]
            obtain ⟨restGrows, restArrives⟩ :=
              @ih _ _ (passed ++ [name]) nextDirectory restNames
            refine ⟨restGrows, fun id same => ?_⟩
            obtain ⟨arrives, kind⟩ := restArrives id same
            refine ⟨?_, kind⟩
            rw [walk_cons]
            exact Option.bind_eq_some_iff.mpr
              ⟨next, restGrows.child?_eq_some entry, arrives⟩
          · simp only [nextDirectory, if_false]
            exact ⟨.refl, fun id same => by simp at same⟩

theorem growsTo_makeDirectories (rootDirectory : tree.kind? root = some .directory)
    (current path : String) : tree.GrowsTo (tree.makeDirectories current path).2 :=
  (makeDirectoriesFrom_spec rootDirectory fun _ => Path.isName_of_mem_components).1

end Operations

end FileTree

end CommandShell
