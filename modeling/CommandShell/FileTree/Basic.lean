import CommandShell.Failure
import CommandShell.NameMap
import CommandShell.Path.Basic

/-!
# File trees

A file tree stores every node once, in the order of creation, and a directory
refers to its entries by their places in that order.  Nodes are never removed,
so an identifier stays valid for the life of the tree.

An operation that may change the tree returns the tree together with its
outcome, also when it fails.
-/

namespace CommandShell

/-- The place of a node in the order of creation. -/
abbrev NodeId := Nat

/-- What a node is. -/
inductive NodeKind where
  | directory
  | file
  deriving DecidableEq, Repr

/-- The letter that stands for a kind of node in a listing. -/
def NodeKind.tag : NodeKind → String
  | directory => "d"
  | file => "f"

/-- A directory with its entries or a file with its content. -/
inductive Node where
  | directory (children : NameMap NodeId)
  | file (content : String)
  deriving DecidableEq, Repr

/-- One row of a directory listing. -/
structure Entry where
  name : String
  kind : NodeKind
  /-- The length of a file in bytes.  A directory has no length of its own. -/
  size : Nat
  deriving DecidableEq, Repr

/-- A directory without entries. -/
def Node.emptyDirectory : Node := .directory .empty

/-- A file without content. -/
def Node.emptyFile : Node := .file ""

/-- The kind of a node. -/
def Node.kind : Node → NodeKind
  | .directory _ => .directory
  | .file _ => .file

/-- The size that a listing shows for a node. -/
def Node.size : Node → Nat
  | .directory _ => 0
  | .file content => content.utf8ByteSize

/-- The entries of a directory. -/
def Node.children? : Node → Option (NameMap NodeId)
  | .directory children => some children
  | .file _ => none

/-- The content of a file. -/
def Node.content? : Node → Option String
  | .directory _ => none
  | .file content => some content

/-- Add an entry to a directory.  A file has no entries to add to. -/
def Node.link (name : String) (child : NodeId) : Node → Node
  | .directory children => .directory (children.insert name child)
  | .file content => .file content

/-- Change the content of a file.  A directory has no content to change. -/
def Node.mapContent (update : String → String) : Node → Node
  | .directory children => .directory children
  | .file content => .file (update content)

/-- The nodes of a file system in the order of creation, the root first. -/
structure FileTree where
  nodes : Array Node
  deriving DecidableEq, Repr

namespace FileTree

/-- The identifier of the root directory. -/
def root : NodeId := 0

/-- The tree that consists of an empty root directory. -/
def empty : FileTree where
  nodes := #[.emptyDirectory]

instance : Inhabited FileTree := ⟨empty⟩

/-- The number of nodes, the root included. -/
def nodeCount (tree : FileTree) : Nat :=
  tree.nodes.size

/-- The node with an identifier. -/
def node? (tree : FileTree) (id : NodeId) : Option Node :=
  tree.nodes[id]?

/-- The kind of the node with an identifier. -/
def kind? (tree : FileTree) (id : NodeId) : Option NodeKind :=
  (tree.node? id).map Node.kind

/-- The entries of a directory node. -/
def children? (tree : FileTree) (id : NodeId) : Option (NameMap NodeId) :=
  (tree.node? id).bind Node.children?

/-- The content of a file node. -/
def content? (tree : FileTree) (id : NodeId) : Option String :=
  (tree.node? id).bind Node.content?

/-- The entry with a name in a directory node. -/
def child? (tree : FileTree) (directory : NodeId) (name : String) : Option NodeId :=
  (tree.children? directory).bind fun children => children.find? name

/-- The node that a walk from `start` along `names` ends at.  The walk fails at
a missing entry and at a file that it would have to descend into. -/
def walk (tree : FileTree) (start : NodeId) (names : List String) : Option NodeId :=
  names.foldlM tree.child? start

/-- The node at an absolute path, taken as it stands. -/
def lookup (tree : FileTree) (path : String) : Option NodeId :=
  tree.walk root (Path.components path)

/-- The node that `path` means in the directory `current`. -/
def find? (tree : FileTree) (current path : String) : Option NodeId :=
  tree.lookup (Path.resolve current path)

/-- Whether `path` means a directory. -/
def isDirectory (tree : FileTree) (current path : String) : Bool :=
  (tree.find? current path).bind tree.kind? = some .directory

/-- The directory at an absolute path. -/
def directoryAt (tree : FileTree) (path : String) : Except Failure NodeId :=
  match tree.lookup path with
  | some id => if tree.kind? id = some .directory then .ok id else .error (.notADirectory path)
  | none => .error (.notADirectory path)

/-- The entries of a directory node in the order of their names. -/
def entries? (tree : FileTree) (id : NodeId) : Option (List Entry) :=
  (tree.children? id).map fun children =>
    children.entries.filterMap fun (name, child) =>
      (tree.node? child).map fun node => ⟨name, node.kind, node.size⟩

/-- The entries of the directory that `path` means. -/
def list (tree : FileTree) (current path : String) : Except Failure (List Entry) :=
  let resolved := Path.resolve current path
  match (tree.lookup resolved).bind tree.entries? with
  | some entries => .ok entries
  | none => .error (.notADirectory resolved)

/-- Append a node and make it an entry of the directory `parent`. -/
def attach (tree : FileTree) (parent : NodeId) (name : String) (node : Node) :
    NodeId × FileTree :=
  (tree.nodeCount,
    { nodes := (tree.nodes.push node).modify parent (Node.link name tree.nodeCount) })

/-- Replace the content of a file node.  Nothing happens to a directory. -/
def updateContent (tree : FileTree) (id : NodeId) (update : String → String) : FileTree where
  nodes := tree.nodes.modify id (Node.mapContent update)

/-- Create an empty directory.  Its parent has to exist and its name has to be
free. -/
def makeDirectory (tree : FileTree) (current path : String) :
    Except Failure NodeId × FileTree :=
  let resolved := Path.resolve current path
  let (parentPath, leaf) := Path.splitParent resolved
  if leaf = "" then (.error (.alreadyExists resolved), tree)
  else
    match tree.directoryAt parentPath with
    | .error failure => (.error failure, tree)
    | .ok parent =>
        match tree.child? parent leaf with
        | some _ => (.error (.alreadyExists resolved), tree)
        | none =>
            let (id, grown) := tree.attach parent leaf .emptyDirectory
            (.ok id, grown)

/-- Walk on from a directory along names, and create the directories that are
missing.  `passed` are the names that lead to the directory from the root; a
file in the way is reported by its path. -/
def makeDirectoriesFrom (tree : FileTree) (directory : NodeId) (passed : List String) :
    List String → Except Failure NodeId × FileTree
  | [] => (.ok directory, tree)
  | name :: rest =>
      let reached := passed ++ [name]
      match tree.child? directory name with
      | none =>
          let (id, grown) := tree.attach directory name .emptyDirectory
          grown.makeDirectoriesFrom id reached rest
      | some id =>
          if tree.kind? id = some .directory then tree.makeDirectoriesFrom id reached rest
          else (.error (.notADirectory (Path.render reached)), tree)

/-- Create a directory together with its missing ancestors.  Directories that
are already there are kept. -/
def makeDirectories (tree : FileTree) (current path : String) :
    Except Failure NodeId × FileTree :=
  tree.makeDirectoriesFrom root [] (Path.components (Path.resolve current path))

/-- The file that `path` means, created empty if it is missing and `create`
asks for it. -/
def openFile (tree : FileTree) (current path : String) (create : Bool) :
    Except Failure NodeId × FileTree :=
  let resolved := Path.resolve current path
  let (parentPath, leaf) := Path.splitParent resolved
  if leaf = "" then (.error (.notAFile resolved), tree)
  else
    match tree.directoryAt parentPath with
    | .error failure => (.error failure, tree)
    | .ok parent =>
        match tree.child? parent leaf with
        | some id =>
            if (tree.content? id).isSome then (.ok id, tree)
            else (.error (.notAFile resolved), tree)
        | none =>
            if create then
              let (id, grown) := tree.attach parent leaf .emptyFile
              (.ok id, grown)
            else (.error (.notAFile resolved), tree)

/-- Give the file that `path` means the content `content`, and create it if it
is missing. -/
def writeFile (tree : FileTree) (current path content : String) :
    Except Failure NodeId × FileTree :=
  match tree.openFile current path true with
  | (.ok id, opened) => (.ok id, opened.updateContent id fun _ => content)
  | failed => failed

end FileTree

end CommandShell
