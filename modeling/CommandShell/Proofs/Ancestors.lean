import CommandShell.Proofs.FailedOperations
import CommandShell.Proofs.Refinement

/-!
# Directories with their ancestors

To create a directory with its ancestors is to create the directories along its path one by
one, each by its own path from the root, and not to care which of them fail.  The two go
different ways: one walks on from directory to directory, the other begins at the root each
time.  They part neither at a directory that is there already nor at a file in the way, and
they hand out the same identifiers.
-/

namespace CommandShell

namespace FileTree

variable {tree : FileTree} {directory : NodeId} {passed names : List String}

theorem child?_eq_none_of_not_directory {id : NodeId}
    (notDirectory : tree.kind? id ≠ some .directory) (name : String) :
    tree.child? id name = none := by
  cases listed : tree.children? id with
  | none =>
      rw [child?, listed]
      rfl
  | some children => exact absurd (kind?_eq_directory_iff.mpr ⟨children, listed⟩) notDirectory

/-- What lies in no directory is not there. -/
theorem walk_append_singleton_eq_none
    (noDirectory : (tree.walk root passed).bind tree.kind? ≠ some .directory) (name : String) :
    tree.walk root (passed ++ [name]) = none := by
  rw [walk_append_singleton]
  cases arrives : tree.walk root passed with
  | none => rfl
  | some id =>
      rw [arrives] at noDirectory
      exact child?_eq_none_of_not_directory noDirectory name

section Places

/-- The places along the names, each behind the names passed before. -/
def placesAlong (passed names : List String) : List (List String) :=
  names.inits.tail.map (passed ++ ·)

theorem placesAlong_cons (passed : List String) (name : String) (rest : List String) :
    placesAlong passed (name :: rest) =
      (passed ++ [name]) :: placesAlong (passed ++ [name]) rest := by
  cases rest with
  | nil => rfl
  | cons next more => simp [placesAlong, Function.comp_def]

theorem length_lt_of_mem_placesAlong {place : List String}
    (member : place ∈ placesAlong passed names) : passed.length < place.length := by
  induction names generalizing passed with
  | nil => cases member
  | cons name rest ih =>
      rw [placesAlong_cons] at member
      rcases List.mem_cons.mp member with rfl | later
      · simp
      · have longer := ih later
        rw [List.length_append] at longer
        omega

end Places

/-- The tree after attempts to create directories one after the other. -/
def makeEach (tree : FileTree) (paths : List String) : FileTree :=
  paths.foldl (fun grown path => (grown.makeDirectory "/" path).2) tree

section Render

variable {name : String} (proper : ∀ other ∈ passed ++ [name], Path.IsProperName other)

include proper

theorem makeDirectory_render :
    (tree.makeDirectory "/" (Path.render (passed ++ [name]))).2 =
      match tree.directoryAt (Path.render passed) with
      | .error _ => tree
      | .ok parent =>
          match tree.child? parent name with
          | some _ => tree
          | none => (tree.attach parent name .emptyDirectory).2 := by
  have isName : Path.IsName name := (proper name (by simp)).1
  rw [makeDirectory_of_resolve
    (Path.resolve_of_isCanonical "/" (Path.isCanonical_render proper)) isName]
  rcases tree.directoryAt (Path.render passed) with failure | parent
  · rfl
  · dsimp only
    cases tree.child? parent name <;> rfl

/-- In a directory that is there, a missing entry is created and any other is left. -/
theorem makeDirectory_render_of_walk (arrives : tree.walk root passed = some directory)
    (isDirectory : tree.kind? directory = some .directory) :
    (tree.makeDirectory "/" (Path.render (passed ++ [name]))).2 =
      match tree.child? directory name with
      | some _ => tree
      | none => (tree.attach directory name .emptyDirectory).2 := by
  have areNames : ∀ other ∈ passed, Path.IsName other :=
    fun other member => (proper other (List.mem_append_left _ member)).1
  have atParent : tree.directoryAt (Path.render passed) = .ok directory := by
    rw [directoryAt_eq_ok_iff, lookup, Path.components_render areNames]
    exact ⟨arrives, isDirectory⟩
  rw [makeDirectory_render proper, atParent]

/-- Where there is no directory nothing can be created. -/
theorem makeDirectory_render_of_no_directory
    (noDirectory : (tree.walk root passed).bind tree.kind? ≠ some .directory) :
    (tree.makeDirectory "/" (Path.render (passed ++ [name]))).2 = tree := by
  have areNames : ∀ other ∈ passed, Path.IsName other :=
    fun other member => (proper other (List.mem_append_left _ member)).1
  rw [makeDirectory_render proper]
  rcases tree.directoryAt_cases (Path.render passed) with failed | ⟨id, found⟩
  · rw [failed]
  · obtain ⟨arrives, isDirectory⟩ := directoryAt_eq_ok_iff.mp found
    rw [lookup, Path.components_render areNames] at arrives
    rw [arrives] at noDirectory
    exact absurd isDirectory noDirectory

end Render

theorem makeEach_of_no_directory
    (noDirectory : (tree.walk root passed).bind tree.kind? ≠ some .directory)
    (proper : ∀ name ∈ passed ++ names, Path.IsProperName name) :
    tree.makeEach ((placesAlong passed names).map Path.render) = tree := by
  induction names generalizing passed with
  | nil => rfl
  | cons name rest ih =>
      have regroup : passed ++ name :: rest = (passed ++ [name]) ++ rest := by simp
      rw [regroup] at proper
      have here : ∀ other ∈ passed ++ [name], Path.IsProperName other :=
        fun other member => proper other (List.mem_append_left _ member)
      rw [placesAlong_cons, List.map_cons, makeEach, List.foldl_cons,
        makeDirectory_render_of_no_directory here noDirectory]
      refine ih ?_ proper
      rw [walk_append_singleton_eq_none noDirectory]
      exact nofun

/-- From a directory on, the one walk and the many come to the same tree. -/
theorem makeEach_eq_makeDirectoriesFrom (isTree : tree.IsTree)
    (arrives : tree.walk root passed = some directory)
    (isDirectory : tree.kind? directory = some .directory)
    (proper : ∀ name ∈ passed ++ names, Path.IsProperName name) :
    tree.makeEach ((placesAlong passed names).map Path.render) =
      (tree.makeDirectoriesFrom directory passed names).2 := by
  induction names generalizing tree directory passed with
  | nil => rfl
  | cons name rest ih =>
      have regroup : passed ++ name :: rest = (passed ++ [name]) ++ rest := by simp
      rw [regroup] at proper
      have here : ∀ other ∈ passed ++ [name], Path.IsProperName other :=
        fun other member => proper other (List.mem_append_left _ member)
      rw [placesAlong_cons, List.map_cons, makeEach, List.foldl_cons,
        makeDirectory_render_of_walk here arrives isDirectory]
      cases entry : tree.child? directory name with
      | none =>
          have vacant : tree.Vacant directory name :=
            ⟨isDirectory, entry, (here name (by simp)).1⟩
          rw [makeDirectoriesFrom_of_free entry]
          exact ih (isTree.attach vacant (.inl rfl))
            (walk_attach_new isTree arrives vacant (.inl rfl)) (kind?_attach_new vacant) proper
      | some next =>
          have nextArrives : tree.walk root (passed ++ [name]) = some next :=
            walk_append_singleton_eq_some_iff.mpr ⟨directory, arrives, entry⟩
          by_cases nextDirectory : tree.kind? next = some .directory
          · rw [makeDirectoriesFrom_of_directory entry nextDirectory]
            exact ih isTree nextArrives nextDirectory proper
          · -- A file is in the way, and the walks that begin at the root do not get past it.
            rw [makeDirectoriesFrom_of_file entry nextDirectory]
            refine makeEach_of_no_directory ?_ proper
            rw [nextArrives]
            exact nextDirectory

/-- As many nodes are created as places were missing along the way. -/
theorem nodeCount_makeDirectoriesFrom (isTree : tree.IsTree)
    (arrives : tree.walk root passed = some directory)
    (isDirectory : tree.kind? directory = some .directory)
    (areNames : ∀ name ∈ names, Path.IsName name) {id : NodeId}
    (made : (tree.makeDirectoriesFrom directory passed names).1 = .ok id) :
    (tree.makeDirectoriesFrom directory passed names).2.nodeCount =
      tree.nodeCount + (placesAlong passed names).countP fun place =>
        (tree.walk root place).isNone := by
  induction names generalizing tree directory passed with
  | nil => rfl
  | cons name rest ih =>
      obtain ⟨isName, restNames⟩ := List.forall_mem_cons.mp areNames
      have here : tree.walk root (passed ++ [name]) = tree.child? directory name := by
        rw [walk_append_singleton, arrives, Option.bind_some]
      rw [placesAlong_cons, List.countP_cons, here]
      cases entry : tree.child? directory name with
      | none =>
          have vacant : tree.Vacant directory name := ⟨isDirectory, entry, isName⟩
          rw [makeDirectoriesFrom_of_free entry] at made ⊢
          -- The new directory itself is not among the places behind it.
          have further : ∀ place ∈ placesAlong (passed ++ [name]) rest,
              (tree.attach directory name .emptyDirectory).2.walk root place =
                tree.walk root place := by
            intro place member
            rw [isTree.walk_attach arrives vacant (.inl rfl), if_neg]
            rintro rfl
            exact Nat.lt_irrefl _ (length_lt_of_mem_placesAlong member)
          rw [ih (isTree.attach vacant (.inl rfl))
            (walk_attach_new isTree arrives vacant (.inl rfl)) (kind?_attach_new vacant)
            restNames made, nodeCount_attach,
            List.countP_congr fun place member => by rw [further place member]]
          simp only [Option.isNone_none, if_true]
          omega
      | some next =>
          by_cases nextDirectory : tree.kind? next = some .directory
          · rw [makeDirectoriesFrom_of_directory entry nextDirectory] at made ⊢
            exact ih isTree (walk_append_singleton_eq_some_iff.mpr ⟨directory, arrives, entry⟩)
              nextDirectory restNames made
          · rw [makeDirectoriesFrom_of_file entry nextDirectory] at made
            cases made

/-- Where all directories are there, none is created. -/
theorem makeDirectoriesFrom_of_walk {id : NodeId}
    (arrives : tree.walk directory names = some id)
    (isDirectory : tree.kind? id = some .directory) :
    tree.makeDirectoriesFrom directory passed names = (.ok id, tree) := by
  induction names generalizing directory passed with
  | nil =>
      cases arrives
      rfl
  | cons name rest ih =>
      rw [walk_cons] at arrives
      obtain ⟨next, entry, restArrives⟩ := Option.bind_eq_some_iff.mp arrives
      have nextDirectory : tree.kind? next = some .directory := by
        by_contra notDirectory
        cases rest with
        | nil =>
            cases restArrives
            exact notDirectory isDirectory
        | cons other more =>
            rw [walk_cons, child?_eq_none_of_not_directory notDirectory] at restArrives
            cases restArrives
      rw [makeDirectoriesFrom_of_directory entry nextDirectory]
      exact ih restArrives

/-- A directory that was created with its ancestors is where its path leads. -/
theorem IsTree.found_of_makeDirectories (isTree : tree.IsTree) {current path : String}
    {id : NodeId} (made : (tree.makeDirectories current path).1 = .ok id) :
    (tree.makeDirectories current path).2.lookup (Path.resolve current path) = some id ∧
      (tree.makeDirectories current path).2.kind? id = some .directory :=
  (makeDirectoriesFrom_spec isTree.rootDirectory fun _ => Path.isName_of_mem_components).2 id made

/-- Creating a directory with its ancestors a second time comes out as the first time. -/
theorem IsTree.makeDirectories_again (isTree : tree.IsTree) (current path : String) :
    (tree.makeDirectories current path).2.makeDirectories current path =
      tree.makeDirectories current path := by
  rcases made : tree.makeDirectories current path with ⟨failure | id, after⟩
  · obtain rfl := (blocked_of_makeDirectories isTree made).1
    exact made
  · obtain ⟨found, isDirectory⟩ :=
      isTree.found_of_makeDirectories (congrArg Prod.fst made)
    rw [made] at found isDirectory
    exact makeDirectoriesFrom_of_walk found isDirectory

/-- To create a directory with its ancestors is to create the directories along its path from
the shortest to the longest, whatever becomes of each: on every tree that operations and
changes of contents have made, both leave the very same tree.  If the directory is created, its
path leads to it, and there is one more node for each path along the way that led nowhere.  A
second time it comes out the same and changes nothing. -/
theorem makeDirectories_along_path (attainable : tree.Attainable) {current : String}
    (canonical : Path.IsCanonical current) (path : String) :
    let resolved := Path.resolve current path
    let ancestors := (Path.components resolved).inits.tail.map Path.render
    let made := tree.makeDirectories current path
    ancestors.foldl (fun grown ancestor => (grown.makeDirectory "/" ancestor).2) tree = made.2 ∧
      (∀ id, made.1 = .ok id → made.2.lookup resolved = some id ∧
        made.2.kind? id = some .directory ∧
        made.2.nodeCount =
          tree.nodeCount + ancestors.countP fun ancestor => (tree.lookup ancestor).isNone) ∧
      made.2.makeDirectories current path = made := by
  intro resolved ancestors made
  have isTree := attainable.isTree
  have proper : ∀ name ∈ Path.components resolved, Path.IsProperName name :=
    fun _ => Path.isProperName_of_mem_components (Path.isCanonical_resolve canonical path)
  have areNames : ∀ name ∈ Path.components resolved, Path.IsName name :=
    fun name member => (proper name member).1
  have places : ancestors = (placesAlong [] (Path.components resolved)).map Path.render := by
    simp [ancestors, placesAlong]
  refine ⟨?_, fun id succeeded => ?_, isTree.makeDirectories_again current path⟩
  · rw [places]
    exact makeEach_eq_makeDirectoriesFrom isTree (walk_nil tree root) isTree.rootDirectory proper
  · obtain ⟨found, isDirectory⟩ := isTree.found_of_makeDirectories succeeded
    refine ⟨found, isDirectory, ?_⟩
    have counted := nodeCount_makeDirectoriesFrom isTree (walk_nil tree root)
      isTree.rootDirectory areNames succeeded
    rw [places, List.countP_map]
    refine counted.trans (congrArg _ (List.countP_congr fun place member => ?_))
    have placeNames : ∀ name ∈ place, Path.IsName name := by
      obtain ⟨front, begins, rfl⟩ := List.mem_map.mp member
      have within := (List.mem_inits _ _).mp (List.mem_of_mem_tail begins)
      exact fun name inPlace => areNames name (within.subset inPlace)
    rw [Function.comp_apply, lookup, Path.components_render placeNames]

theorem makeDirectories_along_path_cramped :
    crampedTree.Attainable ∧ Path.IsCanonical "/a/b" ∧
      (crampedTree.makeDirectories "/a/b" "../c//d").1 = .ok 5 ∧
      (crampedTree.makeDirectories "/a/b" "notes/c").1 = .error (.notADirectory "/a/b/notes") ∧
      crampedTree.makeEach ["/a", "/a/c", "/a/c/d"] =
        (crampedTree.makeDirectories "/a/b" "../c//d").2 ∧
      crampedTree.makeEach ["/a", "/a/b", "/a/b/notes", "/a/b/notes/c"] =
        (crampedTree.makeDirectories "/a/b" "notes/c").2 ∧
      (crampedTree.makeDirectories "/a/b" "../c//d").2.lookup "/a/c/d" = some 5 ∧
      (crampedTree.makeDirectories "/a/b" "../c//d").2.nodeCount = crampedTree.nodeCount + 2 := by
  have canonical : Path.IsCanonical "/a/b" := ⟨["a", "b"], by decide, by decide⟩
  have free : (Path.components (Path.resolve "/a/b" "../c//d")).inits.tail.map Path.render =
      ["/a", "/a/c", "/a/c/d"] := by decide +kernel
  have blocked : (Path.components (Path.resolve "/a/b" "notes/c")).inits.tail.map Path.render =
      ["/a", "/a/b", "/a/b/notes", "/a/b/notes/c"] := by decide +kernel
  have succeeded : (crampedTree.makeDirectories "/a/b" "../c//d").1 = .ok 5 := by decide +kernel
  obtain ⟨same, created, -⟩ :=
    makeDirectories_along_path attainable_crampedTree canonical "../c//d"
  obtain ⟨sameBlocked, -, -⟩ :=
    makeDirectories_along_path attainable_crampedTree canonical "notes/c"
  obtain ⟨found, -, counted⟩ := created 5 succeeded
  rw [free] at same counted
  rw [blocked] at sameBlocked
  have resolved : Path.resolve "/a/b" "../c//d" = "/a/c/d" := by decide +kernel
  rw [resolved] at found
  exact ⟨attainable_crampedTree, canonical, succeeded, by decide +kernel, same, sameBlocked, found,
    counted⟩

end FileTree

end CommandShell
