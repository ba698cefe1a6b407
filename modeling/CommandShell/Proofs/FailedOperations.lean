import CommandShell.Proofs.TreeShape

/-!
# Operations that fail

An operation on a file tree that fails has changed nothing.  Most operations attach their one
node at the very end.  Only the creation of a directory with its ancestors attaches nodes
while it walks, and it could not take them back; but a directory that was just created has no
entries, so behind it nothing can be in the way any more.
-/

namespace CommandShell

namespace FileTree

variable {tree after : FileTree} {current path : String} {failure : Failure}

theorem isUserFacing_of_openFile {create : Bool}
    (failed : tree.openFile current path create = (.error failure, after)) :
    failure.isUserFacing := by
  cases tree.opening current path create with
  | refused refusal told result =>
      rw [result] at failed
      cases failed
      rcases told with rfl | rfl <;> rfl
  | found id isFile leads result =>
      rw [result] at failed
      cases failed
  | created asked parent free result =>
      rw [result] at failed
      cases failed

/-- A directory that cannot be created leaves the tree as it is. -/
theorem refused_of_makeDirectory
    (failed : tree.makeDirectory current path = (.error failure, after)) :
    failure.isUserFacing ∧ after = tree := by
  cases tree.creation current path with
  | refused refusal told result =>
      rw [result] at failed
      cases failed
      rcases told with rfl | rfl <;> exact ⟨rfl, rfl⟩
  | created parent free result =>
      rw [result] at failed
      cases failed

theorem isUserFacing_of_list (failed : tree.list current path = .error failure) :
    failure.isUserFacing := by
  unfold list at failed
  dsimp only at failed
  split at failed
  next => cases failed
  next =>
    cases failed
    rfl

theorem eq_of_writeFile_error {content : String}
    (failed : tree.writeFile current path content = (.error failure, after)) : after = tree := by
  unfold writeFile at failed
  split at failed
  next => cases failed
  next => exact eq_of_openFile_error failed

section Walking

variable {directory next : NodeId} {passed names rest : List String} {name : String}

theorem makeDirectoriesFrom_of_free (free : tree.child? directory name = none) :
    tree.makeDirectoriesFrom directory passed (name :: rest) =
      (tree.attach directory name .emptyDirectory).2.makeDirectoriesFrom tree.nodeCount
        (passed ++ [name]) rest := by
  rw [makeDirectoriesFrom, free]
  rfl

theorem makeDirectoriesFrom_of_directory (entry : tree.child? directory name = some next)
    (isDirectory : tree.kind? next = some .directory) :
    tree.makeDirectoriesFrom directory passed (name :: rest) =
      tree.makeDirectoriesFrom next (passed ++ [name]) rest := by
  simp only [makeDirectoriesFrom, entry, if_pos isDirectory]

theorem makeDirectoriesFrom_of_file (entry : tree.child? directory name = some next)
    (notDirectory : tree.kind? next ≠ some .directory) :
    tree.makeDirectoriesFrom directory passed (name :: rest) =
      (.error (.notADirectory (Path.render (passed ++ [name]))), tree) := by
  simp only [makeDirectoriesFrom, entry, if_neg notDirectory]

/-- Nothing is in the way of new directories below a directory without entries. -/
theorem makeDirectoriesFrom_eq_ok (isDirectory : tree.kind? directory = some .directory)
    (childless : ∀ name, tree.child? directory name = none)
    (areNames : ∀ name ∈ names, Path.IsName name) :
    ∃ id, (tree.makeDirectoriesFrom directory passed names).1 = .ok id := by
  induction names generalizing tree directory passed with
  | nil => exact ⟨directory, rfl⟩
  | cons name rest ih =>
      have vacant : tree.Vacant directory name :=
        ⟨isDirectory, childless name, areNames name List.mem_cons_self⟩
      rw [makeDirectoriesFrom_of_free (childless name)]
      apply ih
      · exact kind?_attach_new vacant
      · exact child?_attach_new vacant (.inl rfl)
      · exact fun other member => areNames other (List.mem_cons_of_mem _ member)

/-- Behind a directory that is missing all directories can be created. -/
theorem makeDirectoriesFrom_eq_ok_of_free
    (isDirectory : tree.kind? directory = some .directory)
    (free : tree.child? directory name = none)
    (areNames : ∀ other ∈ name :: rest, Path.IsName other) :
    ∃ id, (tree.makeDirectoriesFrom directory passed (name :: rest)).1 = .ok id := by
  obtain ⟨isName, restNames⟩ := List.forall_mem_cons.mp areNames
  have vacant : tree.Vacant directory name := ⟨isDirectory, free, isName⟩
  rw [makeDirectoriesFrom_of_free free]
  exact makeDirectoriesFrom_eq_ok (kind?_attach_new vacant)
    (child?_attach_new vacant (.inl rfl)) restNames

/-- If the walk fails, then at a file that was there before, and it has created nothing. -/
theorem blocked_of_makeDirectoriesFrom (isTree : tree.IsTree)
    (isDirectory : tree.kind? directory = some .directory)
    (areNames : ∀ name ∈ names, Path.IsName name)
    (failed : tree.makeDirectoriesFrom directory passed names = (.error failure, after)) :
    after = tree ∧ ∃ front id, front <+: names ∧ tree.walk directory front = some id ∧
      tree.kind? id = some .file ∧ failure = .notADirectory (Path.render (passed ++ front)) := by
  induction names generalizing directory passed with
  | nil => cases failed
  | cons name rest ih =>
      have restNames : ∀ other ∈ rest, Path.IsName other :=
        fun other member => areNames other (List.mem_cons_of_mem _ member)
      cases entry : tree.child? directory name with
      | none =>
          have made : ∃ id, (tree.makeDirectoriesFrom directory passed (name :: rest)).1 = .ok id :=
            makeDirectoriesFrom_eq_ok_of_free isDirectory entry areNames
          rw [failed] at made
          cases made.choose_spec
      | some next =>
          by_cases nextDirectory : tree.kind? next = some .directory
          · rw [makeDirectoriesFrom_of_directory entry nextDirectory] at failed
            obtain ⟨same, front, id, begins, arrives, isFile, told⟩ :=
              ih nextDirectory restNames failed
            refine ⟨same, name :: front, id, List.cons_prefix_cons.mpr ⟨rfl, begins⟩, ?_, isFile,
              ?_⟩
            · rw [walk_cons, entry]
              exact arrives
            · rw [told, List.append_assoc]
              rfl
          · rw [makeDirectoriesFrom_of_file entry nextDirectory] at failed
            cases failed
            obtain ⟨kind, known⟩ := exists_kind?_of_lt (isTree.forward entry).2
            have isFile : tree.kind? next = some .file := by
              cases kind with
              | directory => exact absurd known nextDirectory
              | file => exact known
            refine ⟨rfl, [name], next, List.cons_prefix_cons.mpr ⟨rfl, List.nil_prefix⟩, ?_,
              isFile, rfl⟩
            rw [walk_cons, entry]
            rfl

/-- Once the walk has created a directory it cannot fail any more. -/
theorem makeDirectoriesFrom_append_eq_ok {front back : List String}
    (isDirectory : tree.kind? directory = some .directory)
    (areNames : ∀ name ∈ front ++ back, Path.IsName name)
    (created : (tree.makeDirectoriesFrom directory passed front).2 ≠ tree) :
    ∃ id, (tree.makeDirectoriesFrom directory passed (front ++ back)).1 = .ok id := by
  induction front generalizing directory passed with
  | nil => exact absurd rfl created
  | cons name rest ih =>
      cases entry : tree.child? directory name with
      | none => exact makeDirectoriesFrom_eq_ok_of_free isDirectory entry areNames
      | some next =>
          rw [List.cons_append] at areNames ⊢
          by_cases nextDirectory : tree.kind? next = some .directory
          · rw [makeDirectoriesFrom_of_directory entry nextDirectory] at created ⊢
            exact ih nextDirectory (List.forall_mem_cons.mp areNames).2 created
          · rw [makeDirectoriesFrom_of_file entry nextDirectory] at created
            exact absurd rfl created

end Walking

theorem blocked_of_makeDirectories (isTree : tree.IsTree)
    (failed : tree.makeDirectories current path = (.error failure, after)) :
    after = tree ∧ ∃ front id, front <+: Path.components (Path.resolve current path) ∧
      tree.walk root front = some id ∧ tree.kind? id = some .file ∧
      failure = .notADirectory (Path.render front) :=
  blocked_of_makeDirectoriesFrom isTree isTree.rootDirectory
    (fun _ => Path.isName_of_mem_components) failed

/-- The step: an operation that fails leaves the tree as it is. -/
theorem IsTree.eq_of_perform_error (isTree : tree.IsTree) {operation : Operation}
    (failed : tree.perform operation = (.error failure, after)) : after = tree := by
  cases operation with
  | makeDirectory current path =>
      rw [perform] at failed
      exact (refused_of_makeDirectory failed).2
  | makeDirectories current path =>
      rw [perform] at failed
      exact (blocked_of_makeDirectories isTree failed).1
  | openFile current path create =>
      rw [perform] at failed
      exact eq_of_openFile_error failed
  | writeFile current path content =>
      rw [perform] at failed
      exact eq_of_writeFile_error failed

/-- All or nothing.  On every tree that operations and changes of contents have made, with any
paths, an operation that fails leaves the very same tree.  The creation of a directory with its
ancestors fails only at a file that was there before, and never behind a directory that it has
created itself. -/
theorem failed_operation_changes_nothing (attainable : tree.Attainable) :
    (∀ operation failure, (tree.perform operation).1 = .error failure →
      (tree.perform operation).2 = tree) ∧
    (∀ current path failure, (tree.makeDirectories current path).1 = .error failure →
      ∃ front id, front <+: Path.components (Path.resolve current path) ∧
        tree.walk root front = some id ∧ tree.kind? id = some .file ∧
        failure = .notADirectory (Path.render front)) ∧
    ∀ current path front back, Path.components (Path.resolve current path) = front ++ back →
      (tree.makeDirectoriesFrom root [] front).2 ≠ tree →
        ∃ id, (tree.makeDirectories current path).1 = .ok id := by
  have isTree := attainable.isTree
  refine ⟨fun operation failure failed => ?_, fun current path failure failed => ?_,
    fun current path front back split created => ?_⟩
  · exact isTree.eq_of_perform_error (Prod.ext failed rfl)
  · exact (blocked_of_makeDirectories isTree (Prod.ext failed rfl)).2
  · have areNames : ∀ name ∈ front ++ back, Path.IsName name := by
      intro name member
      rw [← split] at member
      exact Path.isName_of_mem_components member
    rw [makeDirectories, split]
    exact makeDirectoriesFrom_append_eq_ok isTree.rootDirectory areNames created

/-- A tree with a file, made in a directory whose path is not canonical. -/
def crampedTree : FileTree :=
  let directories := (empty.perform (.makeDirectories "/" "a/b")).2
  let files := (directories.perform (.writeFile "a//b" "notes" "text")).2
  files.updateContent 3 fun _ => "other text"

theorem attainable_crampedTree : crampedTree.Attainable :=
  ((Attainable.empty.perform _).perform _).update 3 _

theorem failed_operation_changes_nothing_cramped :
    crampedTree.Attainable ∧ crampedTree.content? 3 = some "other text" ∧
      (crampedTree.perform (.makeDirectories "/a/b/" "./notes/c/d")).1 =
        .error (.notADirectory "/a/b/notes") ∧
      (crampedTree.perform (.makeDirectories "/a/b/" "./notes/c/d")).2 = crampedTree ∧
      (crampedTree.makeDirectoriesFrom root [] ["a", "c"]).2 ≠ crampedTree ∧
      ∃ id, (crampedTree.makeDirectories "/a" "c/notes/d").1 = .ok id := by
  obtain ⟨unchanged, -, clear⟩ := failed_operation_changes_nothing attainable_crampedTree
  have failed : (crampedTree.perform (.makeDirectories "/a/b/" "./notes/c/d")).1 =
      .error (.notADirectory "/a/b/notes") := by decide +kernel
  have created : (crampedTree.makeDirectoriesFrom root [] ["a", "c"]).2 ≠ crampedTree := by
    decide +kernel
  exact ⟨attainable_crampedTree, by decide +kernel, failed, unchanged _ _ failed, created,
    clear "/a" "c/notes/d" ["a", "c"] ["notes", "d"] (by decide +kernel) created⟩

end FileTree

end CommandShell
