import CommandShell.Proofs.Ancestors

/-!
# What a change of a file tree reaches

A change of a file tree reaches the place that its path names, and no other.  New links lie in
vacant places, so they neither hide nor redirect an older walk, and whatever lies elsewhere keeps
its identifier and its content.
-/

namespace CommandShell

namespace FileTree

def Operation.path : Operation → String
  | makeDirectory _ path => path
  | makeDirectories _ path => path
  | openFile _ path _ => path
  | writeFile _ path _ => path

/-- The names that lead to the place of an operation. -/
def Operation.target (operation : Operation) : List String :=
  Path.components (Path.resolve operation.current operation.path)

/-- Whether an operation that succeeds leaves a node at the end of the names. -/
def Operation.Occupies (operation : Operation) (names : List String) : Prop :=
  match operation with
  | makeDirectories _ _ => names <+: operation.target
  | _ => names = operation.target

instance (operation : Operation) (names : List String) :
    Decidable (operation.Occupies names) :=
  match operation with
  | .makeDirectories _ _ => inferInstanceAs (Decidable (names <+: _))
  | .makeDirectory _ _ | .openFile _ _ _ | .writeFile _ _ _ =>
      inferInstanceAs (Decidable (names = _))

/-- A change of a file tree: an operation, or text put behind the content of a file. -/
inductive Change where
  | operate (operation : Operation)
  | append (id : NodeId) (text : String)

/-- The tree after a change, whatever its outcome. -/
def apply (tree : FileTree) : Change → FileTree
  | .operate operation => (tree.perform operation).2
  | .append id text => tree.updateContent id (· ++ text)

/-- The file that a change writes to. -/
def written? (tree : FileTree) : Change → Option NodeId
  | .operate (.writeFile current path content) =>
      (tree.writeFile current path content).1.toOption
  | .operate _ => none
  | .append id _ => some id

/-- Whether a change leaves a node at the end of the names. -/
def Reaches (tree : FileTree) (names : List String) : Change → Prop
  | .operate operation =>
      (∃ id, (tree.perform operation).1 = .ok id) ∧ operation.Occupies names
  | .append _ _ => False

/-- Whether a tree has grown into another one at certain places alone, and of its nodes at most
one has another content there. -/
structure GrowsAt (tree : FileTree) (places : List String → Prop) (written : Option NodeId)
    (after : FileTree) : Prop where
  grown : tree.GrowsTo after
  present : ∀ names, (after.walk root names).isSome ↔
    (tree.walk root names).isSome ∨ places names
  content : ∀ id < tree.nodeCount, written ≠ some id → after.content? id = tree.content? id

namespace GrowsAt

variable {tree between after : FileTree} {places further : List String → Prop}
  {written : Option NodeId}

theorem still (tree : FileTree)
    (old : ∀ names, places names → (tree.walk root names).isSome) :
    tree.GrowsAt places written tree where
  grown := .refl
  present names := (or_iff_left_of_imp (old names)).symm
  content _ _ _ := rfl

theorem trans (first : tree.GrowsAt places written between)
    (second : between.GrowsAt further written after) :
    tree.GrowsAt (fun names => places names ∨ further names) written after where
  grown := first.grown.trans second.grown
  present names := by rw [second.present, first.present, or_assoc]
  content id old notWritten := by
    have inBetween : id < between.nodeCount :=
      Nat.lt_of_lt_of_le old first.grown.nodeCount_le
    rw [second.content id inBetween notWritten, first.content id old notWritten]

theorem congr (growsAt : tree.GrowsAt places written after)
    (same : ∀ names, (tree.walk root names).isSome ∨ places names ↔
      (tree.walk root names).isSome ∨ further names) :
    tree.GrowsAt further written after :=
  { growsAt with present := fun names => (growsAt.present names).trans (same names) }

theorem updateContent (growsAt : tree.GrowsAt places none after) (id : NodeId)
    (change : String → String) :
    tree.GrowsAt places (some id) (after.updateContent id change) where
  grown := growsAt.grown.update id change
  present names := by
    rw [walk_updateContent]
    exact growsAt.present names
  content other old notWritten := by
    have different : id ≠ other := fun same => notWritten (congrArg some same)
    rw [content?_updateContent, if_neg different]
    exact growsAt.content other old nofun

theorem attach (isTree : tree.IsTree) {parent : NodeId} {front : List String} {name : String}
    {node : Node} (arrives : tree.walk root front = some parent)
    (vacant : tree.Vacant parent name) (bare : node.IsBare) :
    tree.GrowsAt (· = front ++ [name]) none (tree.attach parent name node).2 where
  grown := .of_vacant vacant bare
  present names := by
    rw [isTree.walk_attach arrives vacant bare]
    by_cases new : names = front ++ [name]
    · simp [new]
    · simp [new]
  content id old _ := by
    rw [content?_attach vacant.lt_nodeCount, if_neg (Nat.ne_of_lt old)]

end GrowsAt

section Operations

variable {tree after : FileTree} {current path : String} {id : NodeId}

theorem FreeEnd.growsAt (isTree : tree.IsTree) {parent : NodeId}
    (free : tree.FreeEnd path parent) {node : Node} (bare : node.IsBare) :
    tree.GrowsAt (· = Path.components path) none
      (tree.attach parent (Path.splitParent path).2 node).2 := by
  rw [Path.components_eq_append_leaf free.hasLeaf]
  exact .attach isTree (directoryAt_eq_ok_iff.mp free.directory).1 free.vacant bare

theorem growsAt_of_makeDirectory (isTree : tree.IsTree)
    (made : tree.makeDirectory current path = (.ok id, after)) :
    tree.GrowsAt (· = Path.components (Path.resolve current path)) none after := by
  cases tree.creation current path with
  | refused failure told result =>
      rw [result] at made
      cases made
  | created parent free result =>
      rw [result] at made
      cases made
      exact free.growsAt isTree (.inl rfl)

theorem growsAt_of_openFile (isTree : tree.IsTree) {create : Bool}
    (opened : tree.openFile current path create = (.ok id, after)) :
    tree.GrowsAt (· = Path.components (Path.resolve current path)) none after := by
  cases tree.opening current path create with
  | refused failure told result =>
      rw [result] at opened
      cases opened
  | found file isFile leads result =>
      rw [result] at opened
      cases opened
      apply GrowsAt.still
      rintro names rfl
      exact Option.isSome_of_eq_some leads
  | created asked parent free result =>
      rw [result] at opened
      cases opened
      exact free.growsAt isTree (.inr rfl)

theorem growsAt_of_writeFile (isTree : tree.IsTree) {content : String}
    (wrote : tree.writeFile current path content = (.ok id, after)) :
    tree.GrowsAt (· = Path.components (Path.resolve current path)) (some id) after := by
  unfold writeFile at wrote
  split at wrote
  next file opened result =>
    cases wrote
    exact (growsAt_of_openFile isTree result).updateContent id _
  next failed => exact absurd wrote (failed id after)

/-- Behind a directory the walk occupies the places along the names. -/
theorem growsAt_of_makeDirectoriesFrom (isTree : tree.IsTree) {directory : NodeId}
    {passed names : List String} (arrives : tree.walk root passed = some directory)
    (isDirectory : tree.kind? directory = some .directory)
    (areNames : ∀ name ∈ names, Path.IsName name)
    (made : tree.makeDirectoriesFrom directory passed names = (.ok id, after)) :
    tree.GrowsAt (· ∈ PathMap.beginnings passed names) none after := by
  have here : (tree.walk root passed).isSome := Option.isSome_of_eq_some arrives
  induction names generalizing tree directory passed with
  | nil =>
      cases made
      apply GrowsAt.still
      rw [PathMap.beginnings_nil]
      rintro place member
      rwa [List.mem_singleton.mp member]
  | cons name rest ih =>
      obtain ⟨isName, restNames⟩ := List.forall_mem_cons.mp areNames
      rw [PathMap.beginnings_cons]
      cases entry : tree.child? directory name with
      | none =>
          have vacant : tree.Vacant directory name := ⟨isDirectory, entry, isName⟩
          have nextArrives := walk_attach_new isTree arrives vacant (.inl rfl)
          rw [makeDirectoriesFrom_of_free entry] at made
          have onward := ih (isTree.attach vacant (.inl rfl)) nextArrives
            (kind?_attach_new vacant) restNames made (Option.isSome_of_eq_some nextArrives)
          apply ((GrowsAt.attach isTree arrives vacant (.inl rfl)).trans onward).congr
          -- The new place is the first of those behind it, and the one before it is old.
          obtain ⟨further, begins⟩ := PathMap.beginnings_eq_cons (passed ++ [name]) rest
          intro place
          by_cases atPassed : place = passed
          · simp [atPassed, here]
          · simp [atPassed, begins]
      | some next =>
          by_cases nextDirectory : tree.kind? next = some .directory
          · have nextArrives : tree.walk root (passed ++ [name]) = some next :=
              walk_append_singleton_eq_some_iff.mpr ⟨directory, arrives, entry⟩
            rw [makeDirectoriesFrom_of_directory entry nextDirectory] at made
            have onward := ih isTree nextArrives nextDirectory restNames made
              (Option.isSome_of_eq_some nextArrives)
            apply onward.congr
            intro place
            by_cases atPassed : place = passed
            · simp [atPassed, here]
            · simp [atPassed]
          · rw [makeDirectoriesFrom_of_file entry nextDirectory] at made
            cases made

theorem growsAt_of_makeDirectories (isTree : tree.IsTree)
    (made : tree.makeDirectories current path = (.ok id, after)) :
    tree.GrowsAt (· <+: Path.components (Path.resolve current path)) none after := by
  have along := growsAt_of_makeDirectoriesFrom isTree (walk_nil tree root)
    isTree.rootDirectory (fun _ => Path.isName_of_mem_components) made
  simpa only [PathMap.beginnings_from_root, List.mem_inits] using along

theorem growsAt_of_perform (isTree : tree.IsTree) {operation : Operation}
    (done : tree.perform operation = (.ok id, after)) :
    tree.GrowsAt operation.Occupies (tree.written? (.operate operation)) after := by
  cases operation with
  | makeDirectory current path =>
      rw [perform] at done
      exact growsAt_of_makeDirectory isTree done
  | makeDirectories current path =>
      rw [perform] at done
      exact growsAt_of_makeDirectories isTree done
  | openFile current path create =>
      rw [perform] at done
      exact growsAt_of_openFile isTree done
  | writeFile current path content =>
      rw [perform] at done
      rw [written?, done]
      exact growsAt_of_writeFile isTree done

end Operations

variable {tree : FileTree}

theorem IsTree.growsAt_apply (isTree : tree.IsTree) (change : Change) :
    tree.GrowsAt (tree.Reaches · change) (tree.written? change) (tree.apply change) := by
  cases change with
  | append id text => exact (GrowsAt.still tree nofun).updateContent id _
  | operate operation =>
      rcases result : tree.perform operation with ⟨failure | id, after⟩
      · obtain rfl := isTree.eq_of_perform_error result
        rw [apply, result]
        apply GrowsAt.still
        rintro names ⟨⟨id, succeeded⟩, -⟩
        rw [result] at succeeded
        cases succeeded
      · rw [apply, result]
        apply (growsAt_of_perform isTree result).congr
        intro names
        simp [Reaches, result]

/-- A change stays at its target.  On every tree that operations and changes of contents have made,
with any paths and whatever the outcome, each path that led to a node leads to the same node
afterwards, of the same kind and with the same content, unless it is the file that is written.  No
node goes away, and a path that led nowhere leads somewhere only where the operation succeeds and
the path names its place, or lies on the way to it when the ancestors are created as well. -/
theorem changes_stay_at_target (attainable : tree.Attainable) (change : Change) :
    (∀ path id, tree.lookup path = some id →
      (tree.apply change).lookup path = some id ∧
      (tree.apply change).kind? id = tree.kind? id ∧
      (tree.written? change ≠ some id →
        (tree.apply change).content? id = tree.content? id)) ∧
    tree.nodeCount ≤ (tree.apply change).nodeCount ∧
    ∀ path, ((tree.apply change).lookup path).isSome ↔
      (tree.lookup path).isSome ∨ tree.Reaches (Path.components path) change := by
  have isTree := attainable.isTree
  have growsAt := isTree.growsAt_apply change
  refine ⟨fun path id found => ?_, growsAt.grown.nodeCount_le,
    fun path => growsAt.present (Path.components path)⟩
  have old := isTree.lt_nodeCount_of_walk_root found
  obtain ⟨kind, known⟩ := exists_kind?_of_lt old
  have sameKind : (tree.apply change).kind? id = tree.kind? id := by
    rw [known, growsAt.grown.kind?_eq_some known]
  exact ⟨growsAt.grown.lookup_eq_some found, sameKind, growsAt.content id old⟩

theorem changes_stay_at_target_cramped :
    let created := crampedTree.apply (.operate (.makeDirectories "/a" "b/../c//d"))
    let written := crampedTree.apply (.operate (.writeFile "/a" "b/notes" "new text"))
    crampedTree.Attainable ∧ crampedTree.lookup "/a/b/notes" = some 3 ∧
      created.lookup "/a/b/notes" = some 3 ∧ created.content? 3 = some "other text" ∧
      (created.lookup "/a/c").isSome ∧ ¬ (created.lookup "/a/c/e").isSome ∧
      written.lookup "/a/b/notes" = some 3 ∧ written.kind? 3 = some .file ∧
      written.content? 3 = some "new text" := by
  intro created written
  have found : crampedTree.lookup "/a/b/notes" = some 3 := by decide +kernel
  obtain ⟨stable, -, present⟩ :=
    changes_stay_at_target attainable_crampedTree (.operate (.makeDirectories "/a" "b/../c//d"))
  obtain ⟨writtenStable, -, -⟩ :=
    changes_stay_at_target attainable_crampedTree (.operate (.writeFile "/a" "b/notes" "new text"))
  obtain ⟨still, -, kept⟩ := stable "/a/b/notes" 3 found
  obtain ⟨writtenStill, sameKind, -⟩ := writtenStable "/a/b/notes" 3 found
  refine ⟨attainable_crampedTree, found, still, ?_, ?_, ?_, writtenStill, ?_, by decide +kernel⟩
  · rw [kept nofun]
    decide +kernel
  · rw [present]
    exact .inr ⟨⟨5, by decide +kernel⟩, by decide +kernel⟩
  · rw [present]
    rintro (old | ⟨-, beyond⟩)
    · exact absurd old (by decide +kernel)
    · exact absurd beyond (by decide +kernel)
  · rw [sameKind]
    decide +kernel

end FileTree

end CommandShell
