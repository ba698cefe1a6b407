import CommandShell.Proofs.Renamings
import CommandShell.Proofs.Targets

/-!
# Operations that do not depend on each other

An operation that creates or writes one entry looks at two places, the one at the end of its path
and the directory above it, and changes the first of them at most.  So two such operations whose
places lie neither at nor below each other can change their order: both come out as before, and
what they leave behind differs in the identifiers alone.
-/

namespace CommandShell

namespace FileTree

/-- Whether an operation creates no entry but the one at its own place. -/
def Operation.IsSingle : Operation → Prop
  | makeDirectories _ _ => False
  | _ => True

/-- Whether the place of neither operation lies at or below the place of the other. -/
structure Operation.Apart (first second : Operation) : Prop where
  notBelow : ¬ first.target <+: second.target
  notAbove : ¬ second.target <+: first.target

theorem Operation.Apart.symm {first second : Operation} (apart : first.Apart second) :
    second.Apart first where
  notBelow := apart.notAbove
  notAbove := apart.notBelow

end FileTree

namespace PathMap

open FileTree (Operation)

/-- Whether two maps have the same at some names and in the directory above. -/
structure AgreeAround (map other : PathMap) (names : List String) : Prop where
  here : map.item? names = other.item? names
  above : map.item? names.dropLast = other.item? names.dropLast

section Single

variable {map other : PathMap} {names : List String} {operation : Operation}

theorem itemAfter_of_ne (single : operation.IsSingle) (elsewhere : names ≠ operation.target) :
    map.itemAfter operation names = map.item? names := by
  cases operation with
  | makeDirectories => exact single.elim
  | makeDirectory current path => exact if_neg elsewhere
  | openFile current path create => exact if_neg fun both => elsewhere both.1
  | writeFile current path content => exact if_neg elsewhere

theorem item?_after_of_ne (single : operation.IsSingle) (elsewhere : names ≠ operation.target) :
    (map.after operation).item? names = map.item? names := by
  rw [item?_after, itemAfter_of_ne single elsewhere]
  split <;> rfl

theorem makeDirectory_congr (agree : map.AgreeAround other names) :
    (map.makeDirectory names).map (fun _ => ()) =
      (other.makeDirectory names).map fun _ => () := by
  simp only [makeDirectory, agree.here, agree.above]
  split
  · rfl
  · split
    · rfl
    · split <;> rfl

theorem openFile_congr (agree : map.AgreeAround other names) (create : Bool) :
    (map.openFile names create).map (fun _ => ()) =
      (other.openFile names create).map fun _ => () := by
  simp only [openFile, agree.here, agree.above]
  split
  · rfl
  · split
    · rfl
    · rcases other.item? names with _ | _ | content
      · cases create <;> rfl
      · rfl
      · rfl

/-- A file is written exactly where it can be opened. -/
theorem map_writeFile (map : PathMap) (names : List String) (content : String) :
    (map.writeFile names content).map (fun _ => ()) =
      (map.openFile names true).map fun _ => () := by
  unfold writeFile
  cases map.openFile names true <;> rfl

theorem outcome_congr (single : operation.IsSingle)
    (agree : map.AgreeAround other operation.target) :
    map.outcome operation = other.outcome operation := by
  cases operation with
  | makeDirectories => exact single.elim
  | makeDirectory current path => exact makeDirectory_congr agree
  | openFile current path create => exact openFile_congr agree create
  | writeFile current path content =>
      calc
        map.outcome (.writeFile current path content) =
            (map.openFile _ true).map fun _ => () := map_writeFile map _ content
        _ = (other.openFile _ true).map fun _ => () := openFile_congr agree true
        _ = other.outcome (.writeFile current path content) :=
          (map_writeFile other _ content).symm

theorem itemAfter_congr (single : operation.IsSingle)
    (here : map.item? operation.target = other.item? operation.target) :
    map.itemAfter operation operation.target = other.itemAfter operation operation.target := by
  cases operation with
  | makeDirectories => exact single.elim
  | makeDirectory current path => exact (if_pos rfl).trans (if_pos rfl).symm
  | openFile current path create => exact if_congr (by rw [here]) rfl here
  | writeFile current path content => exact (if_pos rfl).trans (if_pos rfl).symm

theorem item?_after_congr (single : operation.IsSingle)
    (agree : map.AgreeAround other operation.target) :
    (map.after operation).item? operation.target =
      (other.after operation).item? operation.target := by
  rw [item?_after, item?_after, outcome_congr single agree, itemAfter_congr single agree.here,
    agree.here]

end Single

section Apart

variable {first second : Operation} (firstSingle : first.IsSingle)
  (secondSingle : second.IsSingle) (apart : first.Apart second)

include secondSingle apart

/-- An operation changes nothing around the place of another one apart from it. -/
theorem agreeAround_after (map : PathMap) :
    (map.after second).AgreeAround map first.target := by
  constructor
  · apply item?_after_of_ne secondSingle
    intro same
    apply apart.notBelow
    rw [same]
  · apply item?_after_of_ne secondSingle
    intro same
    apply apart.notAbove
    rw [← same]
    exact List.dropLast_prefix _

include firstSingle

theorem outcome_after (map : PathMap) :
    (map.after second).outcome first = map.outcome first :=
  outcome_congr firstSingle (agreeAround_after secondSingle apart map)

/-- What the first operation leaves at its place does not depend on the order. -/
theorem item?_after_after_target (map : PathMap) :
    ((map.after first).after second).item? first.target =
      ((map.after second).after first).item? first.target := by
  have elsewhere : first.target ≠ second.target := by
    intro same
    apply apart.notBelow
    rw [same]
  rw [item?_after_of_ne secondSingle elsewhere]
  exact (item?_after_congr firstSingle (agreeAround_after secondSingle apart map)).symm

theorem item?_after_after_comm (map : PathMap) (names : List String) :
    ((map.after first).after second).item? names =
      ((map.after second).after first).item? names := by
  by_cases atFirst : names = first.target
  · rw [atFirst]
    exact item?_after_after_target firstSingle secondSingle apart map
  · by_cases atSecond : names = second.target
    · rw [atSecond]
      exact (item?_after_after_target secondSingle firstSingle apart.symm map).symm
    · rw [item?_after_of_ne secondSingle atSecond, item?_after_of_ne firstSingle atFirst,
        item?_after_of_ne firstSingle atFirst, item?_after_of_ne secondSingle atSecond]

end Apart

end PathMap

namespace FileTree

variable {tree : FileTree}

/-- Operations that create or write single entries, at places of which neither lies at or below
the other, commute on every tree that operations and changes of contents have made.  In either
order each comes out the same, with the same failure if it fails, every path leads to the same in
the end, and the two trees are equal up to a renaming of their nodes. -/
theorem independent_operations_commute (attainable : tree.Attainable)
    {first second : Operation} (firstSingle : first.IsSingle) (secondSingle : second.IsSingle)
    (firstCanonical : Path.IsCanonical first.current)
    (secondCanonical : Path.IsCanonical second.current) (apart : first.Apart second) :
    let forward := (tree.perform first).2.perform second
    let backward := (tree.perform second).2.perform first
    (tree.perform first).1.map (fun _ => ()) = backward.1.map (fun _ => ()) ∧
      (tree.perform second).1.map (fun _ => ()) = forward.1.map (fun _ => ()) ∧
      (∀ path, (forward.2.lookup path).bind forward.2.item? =
        (backward.2.lookup path).bind backward.2.item?) ∧
      ∃ rename : Fin forward.2.nodeCount ≃ Fin backward.2.nodeCount, IsRenaming rename := by
  intro forward backward
  have isTree := attainable.isTree
  have represents := isTree.represents_pathMap
  obtain ⟨firstOutcome, afterFirst⟩ := refines_perform isTree represents firstCanonical
  obtain ⟨secondOutcome, afterSecond⟩ := refines_perform isTree represents secondCanonical
  obtain ⟨forwardOutcome, afterBoth⟩ :=
    refines_perform (isTree.of_perform first) afterFirst secondCanonical
  obtain ⟨backwardOutcome, afterBothBackward⟩ :=
    refines_perform (isTree.of_perform second) afterSecond firstCanonical
  have sameItems := PathMap.item?_after_after_comm firstSingle secondSingle apart isTree.pathMap
  have alsoAfterBoth : backward.2.Represents ((isTree.pathMap.after first).after second) :=
    fun names => (afterBothBackward names).trans (sameItems names).symm
  refine ⟨?_, ?_, fun path => ?_, ?_⟩
  · rw [firstOutcome, backwardOutcome]
    exact (PathMap.outcome_after firstSingle secondSingle apart _).symm
  · rw [secondOutcome, forwardOutcome]
    exact (PathMap.outcome_after secondSingle firstSingle apart.symm _).symm
  · exact (afterBoth _).trans (alsoAfterBoth _).symm
  · exact exists_isRenaming ((isTree.of_perform first).of_perform second)
      ((isTree.of_perform second).of_perform first) afterBoth alsoAfterBoth

theorem independent_operations_commute_swapped :
    let directory : Operation := .makeDirectory "/a" "c"
    let file : Operation := .writeFile "/a/b" "more" "text"
    let forward := ((crampedTree.perform directory).2.perform file).2
    let backward := ((crampedTree.perform file).2.perform directory).2
    crampedTree.Attainable ∧ directory.IsSingle ∧ file.IsSingle ∧ directory.Apart file ∧
      Path.IsCanonical directory.current ∧ Path.IsCanonical file.current ∧
      forward.lookup "/a/c" = some 4 ∧ backward.lookup "/a/c" = some 5 ∧
      (forward.lookup "/a/b/more").bind forward.item? =
        (backward.lookup "/a/b/more").bind backward.item? ∧
      ∃ rename : Fin forward.nodeCount ≃ Fin backward.nodeCount, IsRenaming rename := by
  intro directory file forward backward
  have inA : Path.IsCanonical "/a" := ⟨["a"], by decide, by decide⟩
  have inB : Path.IsCanonical "/a/b" := ⟨["a", "b"], by decide, by decide⟩
  have directorySingle : directory.IsSingle := trivial
  have fileSingle : file.IsSingle := trivial
  have apart : directory.Apart file := ⟨by decide +kernel, by decide +kernel⟩
  obtain ⟨-, -, samePaths, renamed⟩ :=
    independent_operations_commute attainable_crampedTree directorySingle fileSingle inA inB apart
  exact ⟨attainable_crampedTree, directorySingle, fileSingle, apart, inA, inB, by decide +kernel,
    by decide +kernel, samePaths "/a/b/more", renamed⟩

end FileTree

end CommandShell
