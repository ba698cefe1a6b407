import CommandShell.Lists

/-!
# Maps from names to values

A directory maps the names of its entries to nodes and a registry maps the
names of commands to commands.  Both are listed in the code-point order of the
names, so a name map keeps its entries in that order.
-/

namespace CommandShell

/-- A finite map from names to values, held in ascending order of the names. -/
structure NameMap (α : Type) where
  entries : List (String × α)
  ascending : entries.Pairwise fun earlier later => earlier.1 < later.1
  deriving DecidableEq, Repr

namespace NameMap

variable {α : Type}

/-- The map without entries. -/
def empty : NameMap α where
  entries := []
  ascending := .nil

instance : Inhabited (NameMap α) := ⟨empty⟩

/-- The names of the map in ascending order. -/
def names (map : NameMap α) : List String :=
  map.entries.map Prod.fst

/-- The values of the map in ascending order of their names. -/
def values (map : NameMap α) : List α :=
  map.entries.map Prod.snd

/-- The number of names. -/
def size (map : NameMap α) : Nat :=
  map.entries.length

/-- The value under a name. -/
def find? (map : NameMap α) (name : String) : Option α :=
  map.entries.lookup name

/-- Whether the map has the name. -/
def contains (map : NameMap α) (name : String) : Bool :=
  (map.find? name).isSome

/-- Put an entry at its place in an ascending list, in the stead of one with
the same name. -/
def place (name : String) (value : α) : List (String × α) → List (String × α)
  | [] => [(name, value)]
  | entry :: rest =>
      if entry.1 < name then entry :: place name value rest
      else if entry.1 = name then (name, value) :: rest
      else (name, value) :: entry :: rest

theorem mem_of_mem_place {name : String} {value : α} {entry : String × α}
    {entries : List (String × α)} (member : entry ∈ place name value entries) :
    entry = (name, value) ∨ entry ∈ entries := by
  induction entries with
  | nil => simpa [place] using member
  | cons first rest ih =>
      simp only [place] at member
      split at member
      · rcases List.mem_cons.mp member with rfl | later
        · exact .inr List.mem_cons_self
        · exact (ih later).imp_right (List.mem_cons_of_mem first)
      · split at member
        · exact (List.mem_cons.mp member).imp_right (List.mem_cons_of_mem first)
        · exact List.mem_cons.mp member

theorem ascending_place (name : String) (value : α) {entries : List (String × α)}
    (ascending : entries.Pairwise fun earlier later => earlier.1 < later.1) :
    (place name value entries).Pairwise
      fun earlier later => earlier.1 < later.1 := by
  induction entries with
  | nil => simp [place]
  | cons first rest ih =>
      obtain ⟨below, restAscending⟩ := List.pairwise_cons.mp ascending
      rw [place]
      split
      next before =>
        refine List.pairwise_cons.mpr ⟨fun entry member => ?_, ih restAscending⟩
        rcases mem_of_mem_place member with rfl | kept
        · exact before
        · exact below entry kept
      next notBefore =>
        split
        next same => exact List.pairwise_cons.mpr ⟨same ▸ below, restAscending⟩
        next different =>
          have after : name < first.1 := by
            rcases Std.lt_trichotomy first.1 name with before | same | after
            · exact absurd before notBefore
            · exact absurd same different
            · exact after
          refine List.pairwise_cons.mpr ⟨fun entry member => ?_, ascending⟩
          rcases List.mem_cons.mp member with rfl | later
          · exact after
          · exact String.lt_trans after (below entry later)

/-- The map with `value` under `name`, whatever was there before. -/
def insert (map : NameMap α) (name : String) (value : α) : NameMap α where
  entries := place name value map.entries
  ascending := ascending_place name value map.ascending

theorem lookup_place (name other : String) (value : α) (entries : List (String × α)) :
    (place name value entries).lookup other =
      if other = name then some value else entries.lookup other := by
  induction entries with
  | nil => simp [place, List.lookup_cons_eq_if]
  | cons first rest ih =>
      simp only [place]
      split
      next before =>
        simp only [List.lookup_cons_eq_if, beq_iff_eq, ih]
        by_cases same : other = first.1
        · have different : other ≠ name := by
            rintro rfl
            exact String.lt_irrefl _ (same ▸ before)
          simp [← same, different]
        · simp [same]
      next =>
        split
        next same =>
          simp only [List.lookup_cons_eq_if, beq_iff_eq, same]
          split <;> rfl
        next => simp [List.lookup_cons_eq_if]

theorem find?_empty (name : String) : (empty : NameMap α).find? name = none := rfl

theorem find?_insert (map : NameMap α) (name other : String) (value : α) :
    (map.insert name value).find? other =
      if name = other then some value else map.find? other :=
  (lookup_place name other value map.entries).trans
    (ite_congr (propext eq_comm) (fun _ => rfl) fun _ => rfl)

/-- A lookup finds exactly the entries of the map. -/
theorem find?_eq_some_iff (map : NameMap α) {name : String} {value : α} :
    map.find? name = some value ↔ (name, value) ∈ map.entries := by
  rw [find?, List.lookup_eq_some_iff]
  constructor
  · rintro ⟨front, back, split, -⟩
    rw [split]
    exact List.mem_append_right front List.mem_cons_self
  · intro member
    obtain ⟨front, back, split⟩ := List.append_of_mem member
    have ascending := map.ascending
    rw [split] at ascending
    refine ⟨front, back, split, fun entry earlier => bne_iff_ne.mpr fun same => ?_⟩
    have below : entry.1 < name :=
      (List.pairwise_append.mp ascending).2.2 entry earlier (name, value) List.mem_cons_self
    exact String.lt_irrefl name (same ▸ below)

end NameMap

end CommandShell
