import CommandShell.Proofs.Representation

/-!
# Trees that differ in their identifiers alone

Every tree of nodes represents one map from paths, and the map knows nothing of identifiers.  Two
trees that represent the same map have the same nodes under other identifiers: the nodes that lie
at the end of the same walk correspond to each other.
-/

namespace CommandShell

namespace FileTree

theorem finite_walks {tree : FileTree} (isTree : tree.IsTree) :
    {names | (tree.walk root names).bind tree.item? ≠ none}.Finite := by
  -- Different walks end at different nodes, and there are finitely many nodes.
  apply Set.Finite.of_finite_image (f := tree.walk root)
  · apply ((Set.finite_lt_nat tree.nodeCount).image some).subset
    rintro _ ⟨names, present, rfl⟩
    obtain ⟨item, known⟩ := Option.ne_none_iff_exists'.mp present
    obtain ⟨id, arrives, -⟩ := Option.bind_eq_some_iff.mp known
    have inside := isTree.lt_nodeCount_of_walk_root arrives
    exact ⟨id, inside, arrives.symm⟩
  · intro names present others _ same
    obtain ⟨item, known⟩ := Option.ne_none_iff_exists'.mp present
    obtain ⟨id, arrives, -⟩ := Option.bind_eq_some_iff.mp known
    exact isTree.walk_injective arrives (same ▸ arrives)

/-- The map from paths that a tree of nodes represents. -/
def IsTree.pathMap {tree : FileTree} (isTree : tree.IsTree) : PathMap where
  item? names := (tree.walk root names).bind tree.item?
  root := kind?_eq_directory_iff_item?.mp isTree.rootDirectory
  prefixClosed := by
    intro front name present
    rw [walk_append_singleton] at present
    cases arrives : tree.walk root front with
    | none => simp [arrives] at present
    | some directory =>
        rw [arrives, Option.bind_some] at present
        cases entry : tree.child? directory name with
        | none => simp [entry] at present
        | some id =>
            obtain ⟨children, listed, -⟩ := Option.bind_eq_some_iff.mp entry
            apply kind?_eq_directory_iff_item?.mp
            exact kind?_eq_directory_iff.mpr ⟨children, listed⟩
  finite := finite_walks isTree

theorem IsTree.represents_pathMap {tree : FileTree} (isTree : tree.IsTree) :
    tree.Represents isTree.pathMap :=
  fun _ => rfl

/-- Whether two trees differ by nothing but the identifiers of their nodes. -/
structure IsRenaming {first second : FileTree}
    (rename : Fin first.nodeCount ≃ Fin second.nodeCount) : Prop where
  root : ∀ id, (rename id : Nat) = root ↔ (id : Nat) = root
  item : ∀ id, second.item? (rename id) = first.item? id
  child : ∀ directory name id,
    second.child? (rename directory) name = some (rename id : Nat) ↔
      first.child? directory name = some (id : Nat)

/-- Whether two nodes lie at the end of the same walk, each in its tree. -/
def SamePlace (first second : FileTree) (id other : Nat) : Prop :=
  ∃ names, first.walk root names = some id ∧ second.walk root names = some other

namespace SamePlace

variable {first second : FileTree} {id other : Nat}

theorem symm (same : first.SamePlace second id other) : second.SamePlace first other id := by
  obtain ⟨names, arrives, otherArrives⟩ := same
  exact ⟨names, otherArrives, arrives⟩

theorem unique (isTree : first.IsTree) (same : first.SamePlace second id other) {another : Nat}
    (sameToo : first.SamePlace second id another) : another = other := by
  obtain ⟨names, arrives, otherArrives⟩ := same
  obtain ⟨more, moreArrives, anotherArrives⟩ := sameToo
  obtain rfl := isTree.walk_injective arrives moreArrives
  exact Option.some.inj (anotherArrives.symm.trans otherArrives)

theorem eq_root (isTree : first.IsTree) (same : first.SamePlace second id other)
    (atRoot : id = root) : other = root := by
  subst atRoot
  exact unique isTree ⟨[], rfl, rfl⟩ same

theorem item? {map : PathMap} (represents : first.Represents map)
    (otherRepresents : second.Represents map) (same : first.SamePlace second id other) :
    second.item? other = first.item? id := by
  obtain ⟨names, arrives, otherArrives⟩ := same
  rw [← represents.item?_of_walk arrives, otherRepresents.item?_of_walk otherArrives]

theorem child? (isTree : first.IsTree) {directory otherDirectory : Nat} {name : String}
    (sameDirectory : first.SamePlace second directory otherDirectory)
    (same : first.SamePlace second id other) (entry : first.child? directory name = some id) :
    second.child? otherDirectory name = some other := by
  obtain ⟨front, frontArrives, otherFrontArrives⟩ := sameDirectory
  obtain ⟨names, arrives, otherArrives⟩ := same
  have through : first.walk root (front ++ [name]) = some id :=
    walk_append_singleton_eq_some_iff.mpr ⟨directory, frontArrives, entry⟩
  obtain rfl := isTree.walk_injective arrives through
  rw [walk_append_singleton, otherFrontArrives] at otherArrives
  exact otherArrives

end SamePlace

section Renaming

variable {first second : FileTree} {map : PathMap}

theorem exists_samePlace (firstTree : first.IsTree) (secondTree : second.IsTree)
    (represents : first.Represents map) (otherRepresents : second.Represents map)
    (id : Fin first.nodeCount) :
    ∃ other : Fin second.nodeCount, first.SamePlace second id other := by
  obtain ⟨names, arrives⟩ := firstTree.exists_walk id.isLt
  obtain ⟨item, known⟩ := item?_isSome id.isLt
  have present : (second.walk root names).bind second.item? = some item := by
    rw [otherRepresents, represents.item?_of_walk arrives, known]
  obtain ⟨other, otherArrives, -⟩ := Option.bind_eq_some_iff.mp present
  have inside := secondTree.lt_nodeCount_of_walk_root otherArrives
  exact ⟨⟨other, inside⟩, names, arrives, otherArrives⟩

/-- Trees that represent the same map are equal up to a renaming. -/
theorem exists_isRenaming (firstTree : first.IsTree) (secondTree : second.IsTree)
    (represents : first.Represents map) (otherRepresents : second.Represents map) :
    ∃ rename : Fin first.nodeCount ≃ Fin second.nodeCount, IsRenaming rename := by
  choose there toThere using
    exists_samePlace firstTree secondTree represents otherRepresents
  choose back toBack using exists_samePlace secondTree firstTree otherRepresents represents
  let rename : Fin first.nodeCount ≃ Fin second.nodeCount :=
    { toFun := there
      invFun := back
      left_inv := fun id =>
        Fin.ext ((toThere id).symm.unique secondTree (toBack (there id)))
      right_inv := fun other =>
        Fin.ext ((toBack other).symm.unique firstTree (toThere (back other))) }
  refine ⟨rename, ?_, ?_, ?_⟩
  · exact fun id => ⟨(toThere id).symm.eq_root secondTree, (toThere id).eq_root firstTree⟩
  · exact fun id => (toThere id).item? represents otherRepresents
  · intro directory name id
    constructor
    · exact (toThere directory).symm.child? secondTree (toThere id).symm
    · exact (toThere directory).child? firstTree (toThere id)

end Renaming

end FileTree

end CommandShell
