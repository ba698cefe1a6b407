import CommandShell.Lists
import CommandShell.Proofs.TreeShape

/-!
# Access without missing nodes

The operations on file trees once more, with every access by identifier checked:
they stop with `none` where a node is read that does not exist, and where a node
is attached to anything but a directory.  On a tree that operations have reached
nothing stops, and the checked operations do what the plain ones do.
-/

namespace CommandShell

namespace FileTree

/-- The entry with a name in a node that has to exist. -/
def childChecked (tree : FileTree) (directory : NodeId) (name : String) :
    Option (Option NodeId) :=
  (tree.node? directory).map fun node =>
    node.children?.bind fun children => children.find? name

def walkChecked (tree : FileTree) (start : NodeId) : List String → Option (Option NodeId)
  | [] => some (some start)
  | name :: rest => do
      match ← tree.childChecked start name with
      | none => return none
      | some id => tree.walkChecked id rest

def lookupChecked (tree : FileTree) (path : String) : Option (Option NodeId) :=
  tree.walkChecked root (Path.components path)

/-- The rows of a directory, whose entries all have to exist. -/
def entriesChecked (tree : FileTree) (id : NodeId) : Option (Option (List Entry)) :=
  match tree.children? id with
  | none => some none
  | some children =>
      (children.entries.mapM fun entry : String × NodeId =>
        (tree.node? entry.2).map fun node =>
          (⟨entry.1, node.kind, node.size⟩ : Entry)).map some

/-- Attach a node to a parent that has to be a directory. -/
def attachChecked (tree : FileTree) (parent : NodeId) (name : String) (node : Node) :
    Option (NodeId × FileTree) :=
  if tree.kind? parent = some .directory then some (tree.attach parent name node) else none

def directoryAtChecked (tree : FileTree) (path : String) :
    Option (Except Failure NodeId) := do
  match ← tree.lookupChecked path with
  | some id =>
      if tree.kind? id = some .directory then return .ok id
      else return .error (.notADirectory path)
  | none => return .error (.notADirectory path)

def makeDirectoryChecked (tree : FileTree) (current path : String) :
    Option (Except Failure NodeId × FileTree) :=
  let resolved := Path.resolve current path
  let (parentPath, leaf) := Path.splitParent resolved
  if leaf = "" then some (.error (.alreadyExists resolved), tree)
  else do
    match ← tree.directoryAtChecked parentPath with
    | .error failure => return (.error failure, tree)
    | .ok parent =>
        match ← tree.childChecked parent leaf with
        | some _ => return (.error (.alreadyExists resolved), tree)
        | none =>
            let (id, grown) ← tree.attachChecked parent leaf .emptyDirectory
            return (.ok id, grown)

def makeDirectoriesFromChecked (tree : FileTree) (directory : NodeId)
    (passed : List String) : List String → Option (Except Failure NodeId × FileTree)
  | [] => some (.ok directory, tree)
  | name :: rest => do
      let reached := passed ++ [name]
      match ← tree.childChecked directory name with
      | none =>
          let (id, grown) ← tree.attachChecked directory name .emptyDirectory
          grown.makeDirectoriesFromChecked id reached rest
      | some id =>
          if tree.kind? id = some .directory then
            tree.makeDirectoriesFromChecked id reached rest
          else return (.error (.notADirectory (Path.render reached)), tree)

def openFileChecked (tree : FileTree) (current path : String) (create : Bool) :
    Option (Except Failure NodeId × FileTree) :=
  let resolved := Path.resolve current path
  let (parentPath, leaf) := Path.splitParent resolved
  if leaf = "" then some (.error (.notAFile resolved), tree)
  else do
    match ← tree.directoryAtChecked parentPath with
    | .error failure => return (.error failure, tree)
    | .ok parent =>
        match ← tree.childChecked parent leaf with
        | some id =>
            if (tree.content? id).isSome then return (.ok id, tree)
            else return (.error (.notAFile resolved), tree)
        | none =>
            if create then
              let (id, grown) ← tree.attachChecked parent leaf .emptyFile
              return (.ok id, grown)
            else return (.error (.notAFile resolved), tree)

def writeFileChecked (tree : FileTree) (current path content : String) :
    Option (Except Failure NodeId × FileTree) := do
  match ← tree.openFileChecked current path true with
  | (.ok id, opened) => return (.ok id, opened.updateContent id fun _ => content)
  | failed => return failed

/-- An operation with every access checked. -/
def performChecked (tree : FileTree) : Operation → Option (Except Failure NodeId × FileTree)
  | .makeDirectory current path => tree.makeDirectoryChecked current path
  | .makeDirectories current path =>
      tree.makeDirectoriesFromChecked root [] (Path.components (Path.resolve current path))
  | .openFile current path create => tree.openFileChecked current path create
  | .writeFile current path content => tree.writeFileChecked current path content

theorem childChecked_of_lt {tree : FileTree} {directory : NodeId}
    (present : directory < tree.nodeCount) (name : String) :
    tree.childChecked directory name = some (tree.child? directory name) := by
  cases found : tree.node? directory with
  | none => exact absurd present (Nat.not_lt_of_le (node?_eq_none_iff.mp found))
  | some node => simp [childChecked, child?, children?, found]

theorem attachChecked_of_vacant {tree : FileTree} {parent : NodeId} {name : String}
    (vacant : tree.Vacant parent name) (node : Node) :
    tree.attachChecked parent name node = some (tree.attach parent name node) :=
  if_pos vacant.isDirectory

namespace IsTree

variable {tree : FileTree}

theorem walkChecked_eq (isTree : tree.IsTree) {start : NodeId}
    (present : start < tree.nodeCount) (names : List String) :
    tree.walkChecked start names = some (tree.walk start names) := by
  induction names generalizing start with
  | nil => rfl
  | cons name rest ih =>
      rw [walkChecked, childChecked_of_lt present, walk_cons]
      cases entry : tree.child? start name with
      | none => rfl
      | some id => exact ih (isTree.forward entry).2

theorem lookupChecked_eq (isTree : tree.IsTree) (path : String) :
    tree.lookupChecked path = some (tree.lookup path) :=
  isTree.walkChecked_eq isTree.root_lt_nodeCount _

theorem entriesChecked_eq (isTree : tree.IsTree) (id : NodeId) :
    tree.entriesChecked id = some (tree.entries? id) := by
  unfold entriesChecked entries?
  cases listed : tree.children? id with
  | none => rfl
  | some children =>
      have readable : ∀ entry ∈ children.entries,
          ((tree.node? entry.2).map fun node =>
            (⟨entry.1, node.kind, node.size⟩ : Entry)).isSome := by
        intro entry member
        have linked : tree.child? id entry.1 = some entry.2 := by
          rw [child?, listed]
          exact children.find?_eq_some_iff.mpr member
        cases found : tree.node? entry.2 with
        | some node => rfl
        | none =>
            have present := (isTree.forward linked).2
            exact absurd present (Nat.not_lt_of_le (node?_eq_none_iff.mp found))
      simp only [List.mapM_eq_some_filterMap readable, Option.map_some]

theorem directoryAtChecked_eq (isTree : tree.IsTree) (path : String) :
    tree.directoryAtChecked path = some (tree.directoryAt path) := by
  rw [directoryAtChecked, directoryAt, isTree.lookupChecked_eq]
  cases tree.lookup path with
  | none => rfl
  | some id =>
      change (if _ then _ else _) = some (if _ then _ else _)
      split <;> rfl

theorem childChecked_of_directoryAt {path : String} {parent : NodeId}
    (directory : tree.directoryAt path = .ok parent) (name : String) :
    tree.childChecked parent name = some (tree.child? parent name) :=
  childChecked_of_lt (lt_nodeCount_of_kind? (directoryAt_eq_ok_iff.mp directory).2) name

theorem makeDirectoryChecked_eq (isTree : tree.IsTree) (current path : String) :
    tree.makeDirectoryChecked current path = some (tree.makeDirectory current path) := by
  unfold makeDirectoryChecked makeDirectory
  cases tree.spot (Path.resolve current path) with
  | noLeaf none => simp only [none, if_true]
  | noDirectory hasLeaf failed =>
      simp only [hasLeaf, if_false, isTree.directoryAtChecked_eq, failed]
      rfl
  | taken parent id hasLeaf directory entry =>
      simp only [hasLeaf, if_false, isTree.directoryAtChecked_eq, directory, entry]
      simp [childChecked_of_directoryAt directory, entry]
  | vacant parent hasLeaf directory vacant =>
      simp only [hasLeaf, if_false, isTree.directoryAtChecked_eq, directory, vacant.free]
      simp [childChecked_of_directoryAt directory, vacant.free, attachChecked_of_vacant vacant]

theorem openFileChecked_eq (isTree : tree.IsTree) (current path : String) (create : Bool) :
    tree.openFileChecked current path create = some (tree.openFile current path create) := by
  unfold openFileChecked openFile
  cases tree.spot (Path.resolve current path) with
  | noLeaf none => simp only [none, if_true]
  | noDirectory hasLeaf failed =>
      simp only [hasLeaf, if_false, isTree.directoryAtChecked_eq, failed]
      rfl
  | taken parent id hasLeaf directory entry =>
      simp only [hasLeaf, if_false, isTree.directoryAtChecked_eq, directory, entry]
      simp only [childChecked_of_directoryAt directory, entry, Option.bind_eq_bind,
        Option.bind_some]
      split <;> rfl
  | vacant parent hasLeaf directory vacant =>
      simp only [hasLeaf, if_false, isTree.directoryAtChecked_eq, directory, vacant.free]
      cases create <;>
        simp [childChecked_of_directoryAt directory, vacant.free,
          attachChecked_of_vacant vacant]

theorem writeFileChecked_eq (isTree : tree.IsTree) (current path content : String) :
    tree.writeFileChecked current path content =
      some (tree.writeFile current path content) := by
  rw [writeFileChecked, writeFile, isTree.openFileChecked_eq]
  rcases tree.openFile current path true with ⟨failure | id, opened⟩ <;> rfl

theorem makeDirectoriesFromChecked_eq (isTree : tree.IsTree) {directory : NodeId}
    (passed : List String) {names : List String}
    (isDirectory : tree.kind? directory = some .directory)
    (areNames : ∀ name ∈ names, Path.IsName name) :
    tree.makeDirectoriesFromChecked directory passed names =
      some (tree.makeDirectoriesFrom directory passed names) := by
  induction names generalizing tree directory passed with
  | nil => rfl
  | cons name rest ih =>
      have restNames : ∀ other ∈ rest, Path.IsName other :=
        fun other member => areNames other (List.mem_cons_of_mem _ member)
      rw [makeDirectoriesFromChecked, makeDirectoriesFrom,
        childChecked_of_lt (lt_nodeCount_of_kind? isDirectory)]
      cases entry : tree.child? directory name with
      | none =>
          have vacant : tree.Vacant directory name :=
            ⟨isDirectory, entry, areNames name List.mem_cons_self⟩
          have grownTree := isTree.attach vacant (.inl rfl)
          simp only [attachChecked_of_vacant vacant, Option.bind_eq_bind, Option.bind_some]
          exact ih grownTree _ (kind?_attach_new vacant) restNames
      | some id =>
          simp only [Option.bind_eq_bind, Option.bind_some]
          split
          next nextDirectory => exact ih isTree _ nextDirectory restNames
          next => rfl

theorem performChecked_eq (isTree : tree.IsTree) (operation : Operation) :
    tree.performChecked operation = some (tree.perform operation) := by
  cases operation with
  | makeDirectory current path => exact isTree.makeDirectoryChecked_eq current path
  | makeDirectories current path =>
      exact isTree.makeDirectoriesFromChecked_eq [] isTree.rootDirectory
        fun _ => Path.isName_of_mem_components
  | openFile current path create => exact isTree.openFileChecked_eq current path create
  | writeFile current path content => exact isTree.writeFileChecked_eq current path content

end IsTree

/-- The links of every reachable tree form a tree rooted in the first node.  Every
node has exactly one path, and no access by identifier misses its node. -/
theorem rooted_tree_of_reachable {tree : FileTree} (reachable : tree.Reachable) :
    tree.IsTree ∧
      (∀ id < tree.nodeCount, ∃! names, (∀ name ∈ names, Path.IsName name) ∧
        tree.lookup (Path.render names) = some id) ∧
      (∀ path, tree.lookupChecked path = some (tree.lookup path)) ∧
      (∀ id, tree.entriesChecked id = some (tree.entries? id)) ∧
      ∀ operation, tree.performChecked operation = some (tree.perform operation) := by
  have isTree := reachable.isTree
  exact ⟨isTree, fun _ => isTree.existsUnique_lookup, isTree.lookupChecked_eq,
    isTree.entriesChecked_eq, isTree.performChecked_eq⟩

/-- A tree made from a current directory that is not canonical, with a file that was
appended to. -/
def sampleTree : FileTree :=
  let directories := (empty.perform (.makeDirectories "a//b" "a//b")).2
  let files := (directories.perform (.writeFile "a//b" "c" "text")).2
  files.updateContent 3 (· ++ " and more")

theorem rooted_tree_of_sampleTree :
    sampleTree.content? 3 = some "text and more" ∧
      sampleTree.IsTree ∧
      (∀ id < sampleTree.nodeCount, ∃! names, (∀ name ∈ names, Path.IsName name) ∧
        sampleTree.lookup (Path.render names) = some id) ∧
      (∀ path, sampleTree.lookupChecked path = some (sampleTree.lookup path)) ∧
      (∀ id, sampleTree.entriesChecked id = some (sampleTree.entries? id)) ∧
      ∀ operation, sampleTree.performChecked operation = some (sampleTree.perform operation) :=
  ⟨by decide +kernel,
    rooted_tree_of_reachable (((Reachable.empty.perform _).perform _).append 3 " and more")⟩

end FileTree

end CommandShell
