import CommandShell.Proofs.TreeShape
import Mathlib.Data.Set.Finite.Basic

/-!
# File systems as maps from paths

The view of a file system that its users have: a finite map from lists of names to
directories and files, in which everything lies in directories.  The operations
say in terms of the map alone when they fail, in which words, and what they add.
-/

namespace CommandShell

/-- What a path leads to. -/
inductive PathMap.Item where
  | directory
  | file (content : String)
  deriving DecidableEq, Repr

/-- A finite map from lists of names to items, in which every item but the root
lies in a directory. -/
structure PathMap where
  item? : List String → Option PathMap.Item
  root : item? [] = some .directory
  prefixClosed : ∀ {front : List String} {name : String},
    item? (front ++ [name]) ≠ none → item? front = some .directory
  finite : {names | item? names ≠ none}.Finite

namespace PathMap

def Item.kind : Item → NodeKind
  | directory => .directory
  | file _ => .file

def Item.content? : Item → Option String
  | directory => none
  | file content => some content

def Item.size : Item → Nat
  | directory => 0
  | file content => content.utf8ByteSize

/-- The map that consists of the root directory. -/
def bare : PathMap where
  item? names := if names = [] then some .directory else none
  root := rfl
  prefixClosed present := by simp at present
  finite := by
    apply (Set.finite_singleton ([] : List String)).subset
    intro names present
    by_contra notRoot
    exact present (if_neg notRoot)

/-- Whether an item can be put at the names: they lie in a directory, and lead to
no directory themselves. -/
def Accepts (map : PathMap) (names : List String) : Prop :=
  names ≠ [] ∧ map.item? names.dropLast = some .directory ∧
    map.item? names ≠ some .directory

instance (map : PathMap) (names : List String) : Decidable (map.Accepts names) :=
  inferInstanceAs (Decidable (_ ∧ _))

/-- Put an item at the names, in the stead of a file that may be there.  Where an
item cannot be put nothing changes. -/
def put (map : PathMap) (names : List String) (item : Item) : PathMap where
  item? other := if other = names ∧ map.Accepts names then some item else map.item? other
  root := by
    rw [if_neg, map.root]
    rintro ⟨isRoot, accepts⟩
    exact accepts.1 isRoot.symm
  prefixClosed := by
    intro front name present
    -- The changed place is no directory, so nothing lies below it.
    have directoryKept : map.item? front = some .directory →
        (if front = names ∧ map.Accepts names then some item else map.item? front) =
          some .directory := by
      intro directory
      rw [if_neg, directory]
      rintro ⟨rfl, accepts⟩
      exact accepts.2.2 directory
    apply directoryKept
    split at present
    next added =>
      have parent := added.2.2.1
      rwa [← added.1, List.dropLast_concat] at parent
    next => exact map.prefixClosed present
  finite := by
    apply (map.finite.insert names).subset
    intro other present
    by_cases added : other = names ∧ map.Accepts names
    · exact .inl added.1
    · right
      simpa [added] using present

theorem item?_put {map : PathMap} {names : List String} (accepts : map.Accepts names)
    (item : Item) (other : List String) :
    (map.put names item).item? other = if other = names then some item else map.item? other := by
  simp [put, accepts]

theorem item?_put_self {map : PathMap} {names : List String} (accepts : map.Accepts names)
    (item : Item) : (map.put names item).item? names = some item := by
  rw [item?_put accepts, if_pos rfl]

theorem put_of_directory {map : PathMap} {names : List String}
    (directory : map.item? names = some .directory) (item : Item) :
    map.put names item = map := by
  have refused : ¬ map.Accepts names := fun accepts => accepts.2.2 directory
  cases map
  simp [put, refused]

theorem accepts_append {map : PathMap} {front : List String}
    (directory : map.item? front = some .directory) {name : String}
    (notDirectory : map.item? (front ++ [name]) ≠ some .directory) :
    map.Accepts (front ++ [name]) := by
  refine ⟨by simp, ?_, notDirectory⟩
  rw [List.dropLast_concat]
  exact directory

/-- Below nothing lies nothing. -/
theorem item?_append_eq_none {map : PathMap} {front : List String}
    (absent : map.item? front = none) (back : List String) :
    map.item? (front ++ back) = none := by
  induction back using List.reverseRecOn with
  | nil => rw [List.append_nil, absent]
  | append_singleton middle name ih =>
      by_contra present
      rw [← List.append_assoc] at present
      rw [map.prefixClosed present] at ih
      simp at ih

/-- Add a directory.  The root and whatever is there already cannot be added, and
the place has to lie in a directory. -/
def makeDirectory (map : PathMap) (names : List String) : Except Failure PathMap :=
  if names = [] then .error (.alreadyExists (Path.render names))
  else if map.item? names.dropLast ≠ some .directory then
    .error (.notADirectory (Path.render names.dropLast))
  else if map.item? names ≠ none then .error (.alreadyExists (Path.render names))
  else .ok (map.put names .directory)

/-- Whether the names lead to a file. -/
def hasFile (map : PathMap) (names : List String) : Bool :=
  match map.item? names with
  | some (.file _) => true
  | _ => false

/-- Make a directory of every beginning of the names, unless one of them is a file;
the shortest such one is then reported. -/
def makeDirectories (map : PathMap) (names : List String) : Except Failure PathMap :=
  match names.inits.find? map.hasFile with
  | some blocked => .error (.notADirectory (Path.render blocked))
  | none => .ok (names.inits.foldl (fun grown front => grown.put front .directory) map)

/-- Find a file, or add an empty one where there is nothing and `create` asks for
it. -/
def openFile (map : PathMap) (names : List String) (create : Bool) :
    Except Failure PathMap :=
  if names = [] then .error (.notAFile (Path.render names))
  else if map.item? names.dropLast ≠ some .directory then
    .error (.notADirectory (Path.render names.dropLast))
  else
    match map.item? names with
    | some .directory => .error (.notAFile (Path.render names))
    | some (.file _) => .ok map
    | none =>
        if create then .ok (map.put names (.file ""))
        else .error (.notAFile (Path.render names))

/-- Open a file, created if missing, and then set its content. -/
def writeFile (map : PathMap) (names : List String) (content : String) :
    Except Failure PathMap :=
  (map.openFile names true).map fun opened => opened.put names (.file content)

open FileTree (Operation)

/-- The map after an operation, or the failure that leaves it as it is. -/
def perform (map : PathMap) : Operation → Except Failure PathMap
  | .makeDirectory current path =>
      map.makeDirectory (Path.components (Path.resolve current path))
  | .makeDirectories current path =>
      map.makeDirectories (Path.components (Path.resolve current path))
  | .openFile current path create =>
      map.openFile (Path.components (Path.resolve current path)) create
  | .writeFile current path content =>
      map.writeFile (Path.components (Path.resolve current path)) content

/-- The outcomes of operations one after the other, and the map after them. -/
def performAll (map : PathMap) : List Operation → List (Except Failure Unit) × PathMap
  | [] => ([], map)
  | operation :: rest =>
      match map.perform operation with
      | .ok next =>
          let (outcomes, last) := next.performAll rest
          (.ok () :: outcomes, last)
      | .error failure =>
          let (outcomes, last) := map.performAll rest
          (.error failure :: outcomes, last)

end PathMap

end CommandShell
