import CommandShell.Proofs.Refinement

/-!
# Listings agree with lookups

A listing reads the entries of one directory in the order of their names, a lookup walks from the
root along the names of a path.  Both see the same: a directory lists a name exactly if the path
of the directory with the name behind it leads somewhere, with the kind and the length of the
node it leads to.
-/

namespace CommandShell

namespace Path

/-- A path with a name behind it has the name as its last component. -/
theorem components_append_name (path : String) {name : String} (isName : IsName name) :
    components (path ++ "/" ++ name) = components path ++ [name] := by
  rw [components_append_slash, components_of_isName isName]

end Path

namespace FileTree

variable {tree : FileTree} {current path : String}

theorem lookup_append_name {directory : NodeId} (found : tree.lookup path = some directory)
    {name : String} (isName : Path.IsName name) :
    tree.lookup (path ++ "/" ++ name) = tree.child? directory name := by
  rw [lookup] at found
  rw [lookup, Path.components_append_name path isName, walk_append_singleton, found,
    Option.bind_some]

/-- The length of a node in bytes, as far as it has a content. -/
def byteLength (tree : FileTree) (id : NodeId) : Nat :=
  match tree.content? id with
  | some content => content.utf8ByteSize
  | none => 0

theorem byteLength_eq_size {id : NodeId} {item : PathMap.Item} (known : tree.item? id = some item) :
    tree.byteLength id = item.size := by
  rw [byteLength, content?_eq_bind_item?, known, Option.bind_some]
  cases item <;> rfl

/-- A row of a listing tells the kind and the length of a node that there is. -/
theorem exists_item_iff (child : Option NodeId) (row : Entry) :
    (∃ item, child.bind tree.item? = some item ∧ row.kind = item.kind ∧ row.size = item.size) ↔
      ∃ id, child = some id ∧ tree.kind? id = some row.kind ∧ row.size = tree.byteLength id := by
  constructor
  · rintro ⟨item, known, sameKind, sameSize⟩
    obtain ⟨id, rfl, itemKnown⟩ := Option.bind_eq_some_iff.mp known
    refine ⟨id, rfl, ?_, ?_⟩
    · rw [kind?_eq_map_item?, itemKnown, Option.map_some, sameKind]
    · rw [byteLength_eq_size itemKnown, sameSize]
  · rintro ⟨id, rfl, sameKind, sameSize⟩
    rw [kind?_eq_map_item?] at sameKind
    obtain ⟨item, known, kind⟩ := Option.map_eq_some_iff.mp sameKind
    exact ⟨item, known, kind.symm, sameSize.trans (byteLength_eq_size known)⟩

/-- What a listing of a directory shows. -/
structure ListsEntries (tree : FileTree) (path : String) (rows : List Entry) : Prop where
  ascending : rows.Pairwise fun earlier later => earlier.name < later.name
  areNames : ∀ row ∈ rows, Path.IsName row.name
  members : ∀ row : Entry, Path.IsName row.name → (row ∈ rows ↔
    ∃ id, tree.lookup (path ++ "/" ++ row.name) = some id ∧
      tree.kind? id = some row.kind ∧ row.size = tree.byteLength id)

/-- Listings agree with lookups.  On every tree that operations and changes of contents have made,
a listing succeeds exactly if its path leads to a directory, and otherwise tells that it does not.
The rows stand in ascending order of their names, by code points.  There is a row with a name, a
kind and a size exactly if the path with the name behind it leads to a node of the kind, where the
size is the length of a file in bytes and zero for a directory. -/
theorem listing_agrees_with_lookups (attainable : tree.Attainable) (current path : String) :
    let resolved := Path.resolve current path
    ((∃ rows, tree.list current path = .ok rows) ↔
      (tree.lookup resolved).bind tree.kind? = some .directory) ∧
    (∀ failure, tree.list current path = .error failure →
      failure = .notADirectory resolved) ∧
    ∀ rows, tree.list current path = .ok rows → tree.ListsEntries resolved rows := by
  intro resolved
  by_cases isDirectory : (tree.lookup resolved).bind tree.kind? = some .directory
  · obtain ⟨id, found, kind⟩ := Option.bind_eq_some_iff.mp isDirectory
    obtain ⟨rows, listed, ascending, members⟩ := list_of_directory found kind
    rw [listed]
    refine ⟨iff_of_true ⟨rows, rfl⟩ isDirectory, nofun, ?_⟩
    rintro _ ⟨⟩
    refine ⟨ascending, fun row member => ?_, fun row isName => ?_⟩
    · obtain ⟨child, entry, -⟩ := (exists_item_iff _ row).mp ((members row).mp member)
      exact attainable.isTree.areNames entry
    · rw [members, exists_item_iff, lookup_append_name found isName]
  · rw [list_of_not_directory isDirectory]
    refine ⟨iff_of_false nofun isDirectory, ?_, nofun⟩
    rintro _ ⟨⟩
    rfl

/-- A directory with entries that were not made in the order of their names. -/
def shelfTree : FileTree :=
  let directories := (empty.perform (.makeDirectories "/" "docs/z")).2
  let files := (directories.perform (.writeFile "/docs" "é" "né")).2
  (files.perform (.openFile "/docs" "B" true)).2

theorem listing_agrees_with_lookups_shelf :
    let rows : List Entry := [⟨"B", .file, 0⟩, ⟨"z", .directory, 0⟩, ⟨"é", .file, 3⟩]
    shelfTree.Attainable ∧ shelfTree.list "/docs/z" ".." = .ok rows ∧
      shelfTree.ListsEntries "/docs" rows ∧
      shelfTree.list "/docs" "é" = .error (.notADirectory "/docs/é") := by
  intro rows
  have attainable : shelfTree.Attainable :=
    ((Attainable.empty.perform _).perform _).perform _
  have listed : shelfTree.list "/docs/z" ".." = .ok rows := by decide +kernel
  have resolved : Path.resolve "/docs/z" ".." = "/docs" := by decide +kernel
  obtain ⟨-, -, shown⟩ := listing_agrees_with_lookups attainable "/docs/z" ".."
  rw [resolved] at shown
  exact ⟨attainable, listed, shown rows listed, by decide +kernel⟩

end FileTree

end CommandShell
