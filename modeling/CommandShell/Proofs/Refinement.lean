import CommandShell.Proofs.PathMapLaws
import CommandShell.Proofs.Representation

/-!
# Operations on file trees refine those on path maps

In canonical directories every operation on a file tree succeeds or fails as the
path map says, with the same failure, and afterwards the tree represents the map
after the operation.  So after any operations every lookup answers as the map.
-/

namespace CommandShell

namespace FileTree

/-- Whether an operation on a tree comes out as on a path map: where the map fails
the tree fails alike and stays as it is, and otherwise the node at the names is
handed out and the tree represents the new map. -/
def Simulates (tree : FileTree) (names : List String) (answer : Except Failure PathMap)
    (result : Except Failure NodeId × FileTree) : Prop :=
  match answer with
  | .ok next => ∃ id, result.1 = .ok id ∧ result.2.walk root names = some id ∧
      result.2.Represents next
  | .error failure => result = (.error failure, tree)

section Operations

variable {tree : FileTree} {map : PathMap} {current path : String}

theorem resolve_cases (canonical : Path.IsCanonical current) (path : String) :
    ∃ names, (∀ name ∈ names, Path.IsName name) ∧
      Path.resolve current path = Path.render names ∧
      Path.components (Path.resolve current path) = names := by
  obtain ⟨names, proper, resolved⟩ := Path.isCanonical_resolve canonical path
  have areNames : ∀ name ∈ names, Path.IsName name :=
    fun name member => (proper name member).1
  exact ⟨names, areNames, resolved, by rw [resolved, Path.components_render areNames]⟩

theorem makeDirectory_of_resolve {front : List String} {leaf : String}
    (resolved : Path.resolve current path = Path.render (front ++ [leaf]))
    (isName : Path.IsName leaf) :
    tree.makeDirectory current path =
      match tree.directoryAt (Path.render front) with
      | .error failure => (.error failure, tree)
      | .ok parent =>
          match tree.child? parent leaf with
          | some _ => (.error (.alreadyExists (Path.render (front ++ [leaf]))), tree)
          | none =>
              (.ok tree.nodeCount, (tree.attach parent leaf .emptyDirectory).2) := by
  simp only [makeDirectory, resolved, Path.splitParent_render front isName, isName.1, if_false]
  rfl

theorem openFile_of_resolve {front : List String} {leaf : String} {create : Bool}
    (resolved : Path.resolve current path = Path.render (front ++ [leaf]))
    (isName : Path.IsName leaf) :
    tree.openFile current path create =
      match tree.directoryAt (Path.render front) with
      | .error failure => (.error failure, tree)
      | .ok parent =>
          match tree.child? parent leaf with
          | some id =>
              if (tree.content? id).isSome then (.ok id, tree)
              else (.error (.notAFile (Path.render (front ++ [leaf]))), tree)
          | none =>
              if create then (.ok tree.nodeCount, (tree.attach parent leaf .emptyFile).2)
              else (.error (.notAFile (Path.render (front ++ [leaf]))), tree) := by
  simp only [openFile, resolved, Path.splitParent_render front isName, isName.1, if_false]
  rfl

theorem walk_attach_new (isTree : tree.IsTree) {parent : NodeId} {front : List String}
    {name : String} {node : Node} (arrives : tree.walk root front = some parent)
    (vacant : tree.Vacant parent name) (bare : node.IsBare) :
    (tree.attach parent name node).2.walk root (front ++ [name]) = some tree.nodeCount := by
  rw [isTree.walk_attach arrives vacant bare, if_pos rfl]

/-- What there is at a list of names, in a tree and in the map that it represents. -/
inductive Place (tree : FileTree) (map : PathMap) : List String → Prop where
  | root : Place tree map []
  | noDirectory (front : List String) (leaf : String) (isName : Path.IsName leaf)
      (notDirectory : map.item? front ≠ some .directory)
      (failed : tree.directoryAt (Path.render front) =
        .error (.notADirectory (Path.render front))) : Place tree map (front ++ [leaf])
  | taken (front : List String) (leaf : String) (parent id : NodeId) (item : PathMap.Item)
      (isName : Path.IsName leaf) (directory : map.item? front = some .directory)
      (atParent : tree.directoryAt (Path.render front) = .ok parent)
      (entry : tree.child? parent leaf = some id)
      (arrives : tree.walk FileTree.root (front ++ [leaf]) = some id)
      (known : tree.item? id = some item) (present : map.item? (front ++ [leaf]) = some item) :
      Place tree map (front ++ [leaf])
  | vacant (front : List String) (leaf : String) (parent : NodeId)
      (directory : map.item? front = some .directory)
      (atParent : tree.directoryAt (Path.render front) = .ok parent)
      (arrives : tree.walk FileTree.root front = some parent)
      (vacant : tree.Vacant parent leaf) (absent : map.item? (front ++ [leaf]) = none) :
      Place tree map (front ++ [leaf])

theorem place (isTree : tree.IsTree) (represents : tree.Represents map)
    {names : List String} (areNames : ∀ name ∈ names, Path.IsName name) :
    Place tree map names := by
  cases names using List.reverseRecOn with
  | nil => exact .root
  | append_singleton front leaf =>
      have isName : Path.IsName leaf := areNames leaf (by simp)
      have frontNames : ∀ name ∈ front, Path.IsName name :=
        fun name member => areNames name (List.mem_append_left _ member)
      by_cases directory : map.item? front = some .directory
      · obtain ⟨parent, arrives, atParent⟩ :=
          represents.directoryAt_of_directory frontNames directory
        have below := represents.item?_append arrives leaf
        cases entry : tree.child? parent leaf with
        | some id =>
            obtain ⟨item, known⟩ := item?_isSome (isTree.forward entry).2
            have there : tree.walk root (front ++ [leaf]) = some id :=
              walk_append_singleton_eq_some_iff.mpr ⟨parent, arrives, entry⟩
            rw [entry, Option.bind_some, known] at below
            exact .taken front leaf parent id item isName directory atParent entry there known
              below
        | none =>
            have isDirectory := (directoryAt_eq_ok_iff.mp atParent).2
            rw [entry, Option.bind_none] at below
            exact .vacant front leaf parent directory atParent arrives
              ⟨isDirectory, entry, isName⟩ below
      · exact .noDirectory front leaf isName directory
          (represents.directoryAt_of_not_directory frontNames directory)

theorem simulates_makeDirectory (isTree : tree.IsTree) (represents : tree.Represents map)
    (canonical : Path.IsCanonical current) (path : String) :
    tree.Simulates (Path.components (Path.resolve current path))
      (map.makeDirectory (Path.components (Path.resolve current path)))
      (tree.makeDirectory current path) := by
  obtain ⟨names, areNames, resolved, parts⟩ := resolve_cases canonical path
  rw [parts]
  cases place isTree represents areNames with
  | root =>
      simp only [makeDirectory, resolved]
      rfl
  | noDirectory front leaf isName notDirectory failed =>
      rw [makeDirectory_of_resolve resolved isName]
      simp [PathMap.makeDirectory, notDirectory, failed, Simulates]
  | taken front leaf parent id item isName directory atParent entry arrives known present =>
      rw [makeDirectory_of_resolve resolved isName]
      simp [PathMap.makeDirectory, directory, present, atParent, entry, Simulates]
  | vacant front leaf parent directory atParent arrives vacant absent =>
      rw [makeDirectory_of_resolve resolved vacant.isName]
      have created := walk_attach_new isTree arrives vacant (.inl rfl)
      have shown := represents.attach isTree arrives vacant (.inl rfl)
      simp only [PathMap.makeDirectory, List.append_eq_nil_iff, List.cons_ne_self, and_false,
        if_false, List.dropLast_concat, directory, absent, atParent, vacant.free, ne_eq,
        not_true_eq_false, Simulates]
      exact ⟨_, rfl, created, shown⟩

theorem simulates_openFile (isTree : tree.IsTree) (represents : tree.Represents map)
    (canonical : Path.IsCanonical current) (path : String) (create : Bool) :
    tree.Simulates (Path.components (Path.resolve current path))
      (map.openFile (Path.components (Path.resolve current path)) create)
      (tree.openFile current path create) := by
  obtain ⟨names, areNames, resolved, parts⟩ := resolve_cases canonical path
  rw [parts]
  cases place isTree represents areNames with
  | root =>
      simp only [openFile, resolved]
      rfl
  | noDirectory front leaf isName notDirectory failed =>
      rw [openFile_of_resolve resolved isName]
      simp [PathMap.openFile, notDirectory, failed, Simulates]
  | taken front leaf parent id item isName directory atParent entry arrives known present =>
      rw [openFile_of_resolve resolved isName]
      cases item with
      | directory =>
          simp [PathMap.openFile, directory, present, atParent, entry, Simulates,
            content?_eq_bind_item?, known, PathMap.Item.content?]
      | file content =>
          simp [PathMap.openFile, directory, present, atParent, entry, Simulates,
            content?_eq_bind_item?, known, PathMap.Item.content?, arrives, represents]
  | vacant front leaf parent directory atParent arrives vacant absent =>
      rw [openFile_of_resolve resolved vacant.isName]
      have created := walk_attach_new isTree arrives vacant (.inr rfl)
      have shown := represents.attach isTree arrives vacant (.inr rfl)
      cases create with
      | false =>
          simp [PathMap.openFile, directory, absent, atParent, vacant.free, Simulates]
      | true =>
          simp only [PathMap.openFile, List.append_eq_nil_iff, List.cons_ne_self, and_false,
            if_false, List.dropLast_concat, directory, absent, atParent, vacant.free, ne_eq,
            not_true_eq_false, if_true, Simulates]
          exact ⟨_, rfl, created, shown⟩

theorem simulates_writeFile (isTree : tree.IsTree) (represents : tree.Represents map)
    (canonical : Path.IsCanonical current) (path content : String) :
    tree.Simulates (Path.components (Path.resolve current path))
      (map.writeFile (Path.components (Path.resolve current path)) content)
      (tree.writeFile current path content) := by
  have opening := simulates_openFile isTree represents canonical path true
  have openedTree := isTree.growsTo (tree.growsTo_openFile current path true)
  rw [PathMap.writeFile, writeFile]
  cases answer : map.openFile (Path.components (Path.resolve current path)) true with
  | error failure =>
      rw [answer] at opening
      have failed : tree.openFile current path true = (.error failure, tree) := opening
      rw [failed]
      rfl
  | ok next =>
      rw [answer] at opening
      obtain ⟨id, succeeded, arrives, shown⟩ := opening
      cases result : tree.openFile current path true with
      | mk outcome opened =>
          rw [result] at succeeded arrives shown openedTree
          dsimp only at succeeded arrives shown openedTree
          rw [succeeded] at result ⊢
          have isFile := kind?_of_openFile result
          refine ⟨id, rfl, ?_, shown.updateContent openedTree arrives isFile content⟩
          rw [walk_updateContent]
          exact arrives

theorem simulates_makeDirectoriesFrom (isTree : tree.IsTree)
    (represents : tree.Represents map) {directory : NodeId} {passed names : List String}
    (arrives : tree.walk root passed = some directory)
    (isDirectory : tree.kind? directory = some .directory)
    (areNames : ∀ name ∈ names, Path.IsName name) :
    tree.Simulates (passed ++ names) (map.makeEach (PathMap.beginnings passed names))
      (tree.makeDirectoriesFrom directory passed names) := by
  have here : map.item? passed = some .directory := by
    rw [represents.item?_of_walk arrives]
    exact kind?_eq_directory_iff_item?.mp isDirectory
  induction names generalizing tree map directory passed with
  | nil =>
      rw [PathMap.beginnings_nil, List.append_nil, PathMap.makeEach_cons_of_directory _ here]
      exact ⟨directory, rfl, arrives, represents⟩
  | cons name rest ih =>
      have restNames : ∀ other ∈ rest, Path.IsName other :=
        fun other member => areNames other (List.mem_cons_of_mem _ member)
      have regroup : passed ++ name :: rest = (passed ++ [name]) ++ rest := by simp
      have below := represents.item?_append arrives name
      rw [PathMap.beginnings_cons, PathMap.makeEach_cons_of_directory _ here, regroup,
        makeDirectoriesFrom]
      cases entry : tree.child? directory name with
      | none =>
          have vacant : tree.Vacant directory name :=
            ⟨isDirectory, entry, areNames name List.mem_cons_self⟩
          rw [entry, Option.bind_none] at below
          have accepts : map.Accepts (passed ++ [name]) :=
            PathMap.accepts_append here (by simp [below])
          have newDirectory :
              (tree.attach directory name .emptyDirectory).2.kind? tree.nodeCount =
                some .directory := kind?_attach_new vacant
          have onward := ih (isTree.attach vacant (.inl rfl))
            (represents.attach isTree arrives vacant (.inl rfl))
            (walk_attach_new isTree arrives vacant (.inl rfl)) newDirectory restNames
            (PathMap.item?_put_self accepts .directory)
          -- Nothing below the new directory can be in the way, in neither of the maps.
          obtain ⟨last, before, after⟩ :=
            PathMap.makeEach_beginnings_of_absent below accepts rest
          change Simulates _ _ ((map.put (passed ++ [name]) .directory).makeEach _) _ at onward
          rw [after] at onward
          rw [before]
          exact onward
      | some next =>
          obtain ⟨item, known⟩ := item?_isSome (isTree.forward entry).2
          rw [entry, Option.bind_some, known] at below
          by_cases nextDirectory : tree.kind? next = some .directory
          · simp only [nextDirectory, if_true]
            have nextHere : map.item? (passed ++ [name]) = some .directory := by
              rw [below, ← known]
              exact kind?_eq_directory_iff_item?.mp nextDirectory
            exact ih isTree represents
              (walk_append_singleton_eq_some_iff.mpr ⟨directory, arrives, entry⟩)
              nextDirectory restNames nextHere
          · have notDirectory : item ≠ .directory := by
              rintro rfl
              exact nextDirectory (kind?_eq_directory_iff_item?.mpr known)
            rw [PathMap.makeEach_beginnings_of_file
              (PathMap.hasFile_of_not_directory below notDirectory)]
            simp only [nextDirectory, if_false]
            rfl

theorem simulates_perform (isTree : tree.IsTree) (represents : tree.Represents map)
    {operation : Operation} (canonical : Path.IsCanonical operation.current) :
    ∃ names, tree.Simulates names (map.perform operation) (tree.perform operation) := by
  cases operation with
  | makeDirectory current path =>
      exact ⟨_, simulates_makeDirectory isTree represents canonical path⟩
  | makeDirectories current path =>
      refine ⟨Path.components (Path.resolve current path), ?_⟩
      have areNames : ∀ name ∈ Path.components (Path.resolve current path),
          Path.IsName name := fun _ => Path.isName_of_mem_components
      have along := simulates_makeDirectoriesFrom isTree represents (walk_nil tree root)
        isTree.rootDirectory areNames
      rw [PathMap.beginnings_from_root] at along
      exact along
  | openFile current path create =>
      exact ⟨_, simulates_openFile isTree represents canonical path create⟩
  | writeFile current path content =>
      exact ⟨_, simulates_writeFile isTree represents canonical path content⟩

/-- The step of the refinement, with the outcome and the map after it apart. -/
theorem refines_perform (isTree : tree.IsTree) (represents : tree.Represents map)
    {operation : Operation} (canonical : Path.IsCanonical operation.current) :
    (tree.perform operation).1.map (fun _ => ()) = map.outcome operation ∧
      (tree.perform operation).2.Represents (map.after operation) := by
  obtain ⟨names, simulates⟩ := simulates_perform isTree represents canonical
  unfold PathMap.outcome PathMap.after
  cases answer : map.perform operation with
  | ok next =>
      rw [answer] at simulates
      obtain ⟨id, succeeded, -, shown⟩ := simulates
      rw [succeeded]
      exact ⟨rfl, shown⟩
  | error failure =>
      rw [answer] at simulates
      have failed : tree.perform operation = (.error failure, tree) := simulates
      rw [failed]
      exact ⟨rfl, represents⟩

/-- The outcomes of operations one after the other, and the tree after them. -/
def performAll (tree : FileTree) : List Operation → List (Except Failure NodeId) × FileTree
  | [] => ([], tree)
  | operation :: rest =>
      let (outcome, after) := tree.perform operation
      let (outcomes, last) := after.performAll rest
      (outcome :: outcomes, last)

theorem represents_performAll (isTree : tree.IsTree) (represents : tree.Represents map)
    {operations : List Operation}
    (canonical : ∀ operation ∈ operations, Path.IsCanonical operation.current) :
    (tree.performAll operations).1.map (·.map fun _ => ()) = (map.performAll operations).1 ∧
      (tree.performAll operations).2.IsTree ∧
      (tree.performAll operations).2.Represents (map.performAll operations).2 := by
  induction operations generalizing tree map with
  | nil => exact ⟨rfl, isTree, represents⟩
  | cons operation rest ih =>
      obtain ⟨isCanonical, restCanonical⟩ := List.forall_mem_cons.mp canonical
      obtain ⟨outcome, shown⟩ := refines_perform isTree represents isCanonical
      obtain ⟨outcomes, lastTree, last⟩ := ih (isTree.of_perform operation) shown restCanonical
      rw [PathMap.performAll_cons]
      refine ⟨?_, lastTree, last⟩
      simp only [performAll, List.map_cons, outcome, outcomes]

/-- Whether everything that can be asked of a tree by path is answered as the map
says. -/
structure Shows (tree : FileTree) (map : PathMap) : Prop where
  lookup : ∀ path, (tree.lookup path).bind tree.item? = map.item? (Path.components path)
  lookup_isSome : ∀ path,
    (tree.lookup path).isSome = (map.item? (Path.components path)).isSome
  find : ∀ current path, (tree.find? current path).bind tree.item? =
    map.item? (Path.components (Path.resolve current path))
  find_isSome : ∀ current path, (tree.find? current path).isSome =
    (map.item? (Path.components (Path.resolve current path))).isSome
  isDirectory : ∀ current path, tree.isDirectory current path = true ↔
    map.item? (Path.components (Path.resolve current path)) = some .directory
  list : ∀ current path,
    map.item? (Path.components (Path.resolve current path)) = some .directory →
      ∃ rows, tree.list current path = .ok rows ∧
        (rows.Pairwise fun earlier later => earlier.name < later.name) ∧
        ∀ row, row ∈ rows ↔ ∃ item,
          map.item? (Path.components (Path.resolve current path) ++ [row.name]) = some item ∧
            row.kind = item.kind ∧ row.size = item.size
  list_failed : ∀ current path,
    map.item? (Path.components (Path.resolve current path)) ≠ some .directory →
      tree.list current path = .error (.notADirectory (Path.resolve current path))

theorem entries?_eq_some {id : NodeId} {children : NameMap NodeId}
    (listed : tree.children? id = some children) :
    ∃ rows, tree.entries? id = some rows ∧
      (rows.Pairwise fun earlier later => earlier.name < later.name) ∧
      ∀ row : Entry, row ∈ rows ↔ ∃ item,
        (tree.child? id row.name).bind tree.item? = some item ∧
          row.kind = item.kind ∧ row.size = item.size := by
  refine ⟨_, by rw [entries?, listed, Option.map_some], ?_, ?_⟩
  · apply List.Pairwise.filterMap _ _ children.ascending
    intro earlier later before row isRow other isOther
    obtain ⟨_, _, rfl⟩ := Option.map_eq_some_iff.mp isRow
    obtain ⟨_, _, rfl⟩ := Option.map_eq_some_iff.mp isOther
    exact before
  · intro row
    rw [List.mem_filterMap]
    constructor
    · rintro ⟨⟨name, child⟩, member, isRow⟩
      obtain ⟨node, found, rfl⟩ := Option.map_eq_some_iff.mp isRow
      have entry : tree.child? id name = some child := by
        rw [child?, listed]
        exact children.find?_eq_some_iff.mpr member
      refine ⟨node.item, ?_, node.kind_item.symm, node.size_item.symm⟩
      rw [entry, Option.bind_some, item?, found, Option.map_some]
    · rintro ⟨item, known, sameKind, sameSize⟩
      obtain ⟨child, entry, childItem⟩ := Option.bind_eq_some_iff.mp known
      obtain ⟨node, found, rfl⟩ := Option.map_eq_some_iff.mp childItem
      rw [child?, listed] at entry
      refine ⟨(row.name, child), children.find?_eq_some_iff.mp entry, ?_⟩
      rw [Node.kind_item] at sameKind
      rw [Node.size_item] at sameSize
      dsimp only
      rw [found, Option.map_some, ← sameKind, ← sameSize]

theorem list_of_directory {id : NodeId} (found : tree.find? current path = some id)
    (isDirectory : tree.kind? id = some .directory) :
    ∃ rows, tree.list current path = .ok rows ∧
      (rows.Pairwise fun earlier later => earlier.name < later.name) ∧
      ∀ row : Entry, row ∈ rows ↔ ∃ item,
        (tree.child? id row.name).bind tree.item? = some item ∧
          row.kind = item.kind ∧ row.size = item.size := by
  obtain ⟨children, listed⟩ := kind?_eq_directory_iff.mp isDirectory
  obtain ⟨rows, entries, ascending, members⟩ := entries?_eq_some listed
  refine ⟨rows, ?_, ascending, members⟩
  rw [find?] at found
  simp only [list, found, Option.bind_some, entries]

theorem list_of_not_directory
    (notDirectory : (tree.find? current path).bind tree.kind? ≠ some .directory) :
    tree.list current path = .error (.notADirectory (Path.resolve current path)) := by
  rw [find?] at notDirectory
  cases found : tree.lookup (Path.resolve current path) with
  | none => simp only [list, found, Option.bind_none]
  | some id =>
      rw [found, Option.bind_some] at notDirectory
      have noChildren : tree.children? id = none := by
        cases listed : tree.children? id with
        | none => rfl
        | some children => exact absurd (kind?_eq_directory_iff.mpr ⟨children, listed⟩) notDirectory
      simp only [list, found, Option.bind_some, entries?, noChildren, Option.map_none]

theorem Represents.shows (isTree : tree.IsTree) (represents : tree.Represents map) :
    tree.Shows map := by
  have lookup : ∀ path, (tree.lookup path).bind tree.item? = map.item? (Path.components path) :=
    fun path => represents (Path.components path)
  have lookup_isSome : ∀ path,
      (tree.lookup path).isSome = (map.item? (Path.components path)).isSome := by
    intro path
    rw [← lookup path]
    cases found : tree.lookup path with
    | none => rfl
    | some id =>
        obtain ⟨item, known⟩ := item?_isSome (isTree.lt_nodeCount_of_walk_root found)
        rw [Option.bind_some, known]
        rfl
  refine ⟨lookup, lookup_isSome, fun current path => lookup _,
    fun current path => lookup_isSome _, ?_, ?_, ?_⟩
  · intro current path
    rw [← lookup, isDirectory, find?, decide_eq_true_iff]
    cases tree.lookup (Path.resolve current path) with
    | none => simp
    | some id => exact kind?_eq_directory_iff_item?
  · intro current path directory
    obtain ⟨id, arrives, isDirectory⟩ := represents.exists_directory directory
    obtain ⟨rows, listed, ascending, members⟩ := list_of_directory arrives isDirectory
    refine ⟨rows, listed, ascending, fun row => ?_⟩
    rw [members, represents.item?_append arrives]
  · intro current path notDirectory
    apply list_of_not_directory
    intro isDirectory
    obtain ⟨id, found, kind⟩ := Option.bind_eq_some_iff.mp isDirectory
    apply notDirectory
    rw [represents.item?_of_walk found]
    exact kind?_eq_directory_iff_item?.mp kind

end Operations

/-- Operations on a new file tree, in canonical directories, come out as on the map
with nothing but the root, and afterwards every question gets the answer of the map.
The map changes with each operation that succeeds only where its path leads. -/
theorem performAll_refines_pathMap {operations : List Operation}
    (canonical : ∀ operation ∈ operations, Path.IsCanonical operation.current) :
    (empty.performAll operations).1.map (·.map fun _ => ()) =
        (PathMap.bare.performAll operations).1 ∧
      (empty.performAll operations).2.Shows (PathMap.bare.performAll operations).2 ∧
      ∀ (map next : PathMap) (operation : Operation), map.perform operation = .ok next →
        ∀ names, next.item? names = map.itemAfter operation names := by
  obtain ⟨outcomes, isTree, represents⟩ :=
    represents_performAll isTree_empty represents_empty canonical
  exact ⟨outcomes, represents.shows isTree, fun _ _ _ => PathMap.item?_perform⟩

/-- Operations that meet the root, a missing directory and a file in the way. -/
def sampleOperations : List Operation :=
  [.makeDirectory "/" "..", .makeDirectories "/" "home//ada/.", .writeFile "/home" "ada/x" "text",
    .makeDirectories "/home/ada" "x/y/z", .openFile "/home" "ada" true,
    .makeDirectory "/home/ada" "../bob/docs"]

theorem sampleOperations_refine :
    (∀ operation ∈ sampleOperations, Path.IsCanonical operation.current) ∧
      (empty.performAll sampleOperations).1.map (·.map fun _ => ()) =
        [.error (.alreadyExists "/"), .ok (), .ok (), .error (.notADirectory "/home/ada/x"),
          .error (.notAFile "/home/ada"), .error (.notADirectory "/home/bob")] ∧
      (empty.performAll sampleOperations).2.Shows
        (PathMap.bare.performAll sampleOperations).2 := by
  have canonical : ∀ operation ∈ sampleOperations, Path.IsCanonical operation.current := by
    have top : Path.IsCanonical "/" := ⟨[], by simp, rfl⟩
    have home : Path.IsCanonical "/home" := ⟨["home"], by decide, by decide⟩
    have ada : Path.IsCanonical "/home/ada" := ⟨["home", "ada"], by decide, by decide⟩
    simp [sampleOperations, Operation.current, top, home, ada]
  exact ⟨canonical, by decide +kernel, (performAll_refines_pathMap canonical).2.1⟩

end FileTree

end CommandShell
