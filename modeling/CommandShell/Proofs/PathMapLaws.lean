import CommandShell.Proofs.PathMap

/-!
# What operations on path maps change

An operation that succeeds changes what its path names and nothing else.  Making
directories goes along the beginnings of the names, and where one of them is
missing there is nothing below it that could be in the way.
-/

namespace CommandShell

namespace PathMap

variable {map : PathMap}

/-- Make directories at several places, unless one of them is a file. -/
def makeEach (map : PathMap) (fronts : List (List String)) : Except Failure PathMap :=
  match fronts.find? map.hasFile with
  | some blocked => .error (.notADirectory (Path.render blocked))
  | none => .ok (fronts.foldl (fun grown front => grown.put front .directory) map)

theorem hasFile_of_directory {front : List String}
    (directory : map.item? front = some .directory) : map.hasFile front = false := by
  rw [hasFile, directory]

theorem hasFile_of_absent {front : List String} (absent : map.item? front = none) :
    map.hasFile front = false := by
  rw [hasFile, absent]

theorem hasFile_of_not_directory {front : List String} {item : Item}
    (present : map.item? front = some item) (notDirectory : item ≠ .directory) :
    map.hasFile front = true := by
  rw [hasFile, present]
  cases item with
  | directory => exact absurd rfl notDirectory
  | file content => rfl

theorem makeEach_of_no_file {fronts : List (List String)}
    (noFile : ∀ front ∈ fronts, map.hasFile front = false) :
    map.makeEach fronts =
      .ok (fronts.foldl (fun grown front => grown.put front .directory) map) := by
  have notFound : fronts.find? map.hasFile = none := by
    rw [List.find?_eq_none]
    intro front member
    simp [noFile front member]
  rw [makeEach, notFound]

theorem makeEach_cons_of_directory {front : List String} (rest : List (List String))
    (directory : map.item? front = some .directory) :
    map.makeEach (front :: rest) = map.makeEach rest := by
  have skipped : (front :: rest).find? map.hasFile = rest.find? map.hasFile := by
    simp [hasFile_of_directory directory]
  rw [makeEach, makeEach, skipped, List.foldl_cons, put_of_directory directory]

theorem makeEach_cons_of_file {front : List String} (rest : List (List String))
    (file : map.hasFile front = true) :
    map.makeEach (front :: rest) = .error (.notADirectory (Path.render front)) := by
  have found : (front :: rest).find? map.hasFile = some front := by
    simp [file]
  rw [makeEach, found]

section Beginnings

variable {front : List String}

/-- The beginnings of the names, each behind the names passed before. -/
def beginnings (front names : List String) : List (List String) :=
  names.inits.map (front ++ ·)

theorem beginnings_nil (front : List String) : beginnings front [] = [front] := by
  simp [beginnings]

theorem beginnings_cons (front : List String) (name : String) (rest : List String) :
    beginnings front (name :: rest) = front :: beginnings (front ++ [name]) rest := by
  simp [beginnings, Function.comp_def]

theorem beginnings_from_root (names : List String) : beginnings [] names = names.inits := by
  simp [beginnings]

theorem beginnings_eq_cons (front names : List String) :
    ∃ further, beginnings front names = front :: further := by
  cases names with
  | nil => exact ⟨[], beginnings_nil front⟩
  | cons name rest => exact ⟨_, beginnings_cons front name rest⟩

theorem makeEach_beginnings_of_file (file : map.hasFile front = true) (names : List String) :
    map.makeEach (beginnings front names) = .error (.notADirectory (Path.render front)) := by
  obtain ⟨further, begins⟩ := beginnings_eq_cons front names
  rw [begins, makeEach_cons_of_file further file]

/-- Below a missing place there is no file, neither before nor after a directory is
put there. -/
theorem makeEach_beginnings_of_absent (absent : map.item? front = none)
    (accepts : map.Accepts front) (names : List String) :
    ∃ last, map.makeEach (beginnings front names) = .ok last ∧
      (map.put front .directory).makeEach (beginnings front names) = .ok last := by
  have noFileBefore : ∀ place ∈ beginnings front names, map.hasFile place = false := by
    intro place member
    obtain ⟨back, _, rfl⟩ := List.mem_map.mp member
    exact hasFile_of_absent (item?_append_eq_none absent back)
  have noFileAfter : ∀ place ∈ beginnings front names,
      (map.put front .directory).hasFile place = false := by
    intro place member
    obtain ⟨back, _, rfl⟩ := List.mem_map.mp member
    by_cases here : front ++ back = front
    · apply hasFile_of_directory
      rw [item?_put accepts, if_pos here]
    · apply hasFile_of_absent
      rw [item?_put accepts, if_neg here, item?_append_eq_none absent back]
  obtain ⟨further, begins⟩ := beginnings_eq_cons front names
  refine ⟨_, makeEach_of_no_file noFileBefore, ?_⟩
  rw [makeEach_of_no_file noFileAfter, begins, List.foldl_cons, List.foldl_cons,
    put_of_directory (item?_put_self accepts .directory)]

end Beginnings

theorem item?_of_makeDirectory {names : List String} {next : PathMap}
    (made : map.makeDirectory names = .ok next) (other : List String) :
    next.item? other = if other = names then some .directory else map.item? other := by
  unfold makeDirectory at made
  split at made
  next => simp at made
  next notRoot =>
    split at made
    next => simp at made
    next directory =>
      split at made
      next => simp at made
      next absent =>
        rw [not_not] at directory absent
        have accepts : map.Accepts names := ⟨notRoot, directory, by simp [absent]⟩
        rw [← Except.ok.inj made, item?_put accepts]

theorem item?_of_openFile {names : List String} {create : Bool} {next : PathMap}
    (opened : map.openFile names create = .ok next) (other : List String) :
    next.item? other =
      if other = names ∧ map.item? names = none then some (.file "") else map.item? other := by
  unfold openFile at opened
  split at opened
  next => simp at opened
  next notRoot =>
    split at opened
    next => simp at opened
    next directory =>
      rw [not_not] at directory
      cases present : map.item? names with
      | none =>
          have accepts : map.Accepts names := ⟨notRoot, directory, by simp [present]⟩
          cases create with
          | false => simp [present] at opened
          | true =>
              simp only [present, if_true] at opened
              rw [← Except.ok.inj opened, item?_put accepts]
              simp
      | some item =>
          cases item with
          | directory => simp [present] at opened
          | file content =>
              simp only [present] at opened
              rw [← Except.ok.inj opened]
              simp

/-- An opened path leads to a file, in a directory. -/
theorem accepts_of_openFile {names : List String} {create : Bool} {next : PathMap}
    (opened : map.openFile names create = .ok next) : next.Accepts names := by
  have after := item?_of_openFile opened
  unfold openFile at opened
  split at opened
  next => simp at opened
  next notRoot =>
    split at opened
    next => simp at opened
    next directory =>
      rw [not_not] at directory
      refine ⟨notRoot, ?_, ?_⟩
      · have shorter : names.dropLast ≠ names := by
          intro same
          have lengths := congrArg List.length same
          have positive := List.length_pos_iff.mpr notRoot
          rw [List.length_dropLast] at lengths
          omega
        rw [after, if_neg fun both => shorter both.1, directory]
      · rw [after]
        cases present : map.item? names with
        | none => simp
        | some item =>
            cases item with
            | directory => simp [present] at opened
            | file content => simp

theorem item?_of_writeFile {names : List String} {content : String} {next : PathMap}
    (written : map.writeFile names content = .ok next) (other : List String) :
    next.item? other = if other = names then some (.file content) else map.item? other := by
  unfold writeFile at written
  cases answer : map.openFile names true with
  | error failure => simp [answer, Except.map] at written
  | ok opened =>
      rw [answer] at written
      rw [← Except.ok.inj written, item?_put (accepts_of_openFile answer),
        item?_of_openFile answer]
      by_cases here : other = names <;> simp [here]

theorem item?_of_makeEach {passed names : List String} {next : PathMap}
    (here : map.item? passed = some .directory)
    (made : map.makeEach (beginnings passed names) = .ok next) (other : List String) :
    next.item? other =
      if other ∈ beginnings passed names then some .directory else map.item? other := by
  induction names generalizing map passed with
  | nil =>
      rw [beginnings_nil] at made ⊢
      rw [makeEach_cons_of_directory _ here] at made
      rw [← Except.ok.inj made]
      by_cases atPassed : other = passed
      · simp [atPassed, here]
      · simp [atPassed]
  | cons name rest ih =>
      rw [beginnings_cons, makeEach_cons_of_directory _ here] at made
      have afterwards : next.item? other =
          if other ∈ beginnings (passed ++ [name]) rest then some .directory
          else map.item? other := by
        rcases present : map.item? (passed ++ [name]) with _ | _ | content
        · have accepts : map.Accepts (passed ++ [name]) := accepts_append here (by simp [present])
          obtain ⟨last, before, after⟩ := makeEach_beginnings_of_absent present accepts rest
          obtain ⟨further, begins⟩ := beginnings_eq_cons (passed ++ [name]) rest
          rw [before] at made
          rw [Except.ok.inj made] at after
          rw [ih (item?_put_self accepts .directory) after, item?_put accepts]
          by_cases atNew : other = passed ++ [name]
          · simp [atNew, begins]
          · simp [atNew]
        · exact ih present made
        · rw [makeEach_beginnings_of_file (by rw [hasFile, present])] at made
          cases made
      rw [afterwards, beginnings_cons]
      by_cases atPassed : other = passed
      · simp [atPassed, here]
      · exact if_congr (by simp [atPassed]) rfl rfl

theorem item?_of_makeDirectories {names : List String} {next : PathMap}
    (made : map.makeDirectories names = .ok next) (other : List String) :
    next.item? other = if other <+: names then some .directory else map.item? other := by
  have along : map.makeEach (beginnings [] names) = .ok next := by
    rw [beginnings_from_root]
    exact made
  rw [item?_of_makeEach map.root along, beginnings_from_root]
  simp only [List.mem_inits]

open FileTree (Operation)

/-- What a path leads to after an operation has succeeded. -/
def itemAfter (map : PathMap) : Operation → List String → Option Item
  | .makeDirectory current path, names =>
      if names = Path.components (Path.resolve current path) then some .directory
      else map.item? names
  | .makeDirectories current path, names =>
      if names <+: Path.components (Path.resolve current path) then some .directory
      else map.item? names
  | .openFile current path _, names =>
      if names = Path.components (Path.resolve current path) ∧ map.item? names = none then
        some (.file "")
      else map.item? names
  | .writeFile current path content, names =>
      if names = Path.components (Path.resolve current path) then some (.file content)
      else map.item? names

theorem item?_perform {operation : Operation} {next : PathMap}
    (succeeded : map.perform operation = .ok next) (names : List String) :
    next.item? names = map.itemAfter operation names := by
  cases operation with
  | makeDirectory current path => exact item?_of_makeDirectory succeeded names
  | makeDirectories current path => exact item?_of_makeDirectories succeeded names
  | openFile current path create =>
      rw [item?_of_openFile succeeded, itemAfter]
      by_cases here : names = Path.components (Path.resolve current path)
      · subst here
        rfl
      · simp [here]
  | writeFile current path content => exact item?_of_writeFile succeeded names

/-- Whether an operation succeeds, or else why it fails. -/
def outcome (map : PathMap) (operation : Operation) : Except Failure Unit :=
  (map.perform operation).map fun _ => ()

/-- The map after an operation, the same one if the operation fails. -/
def after (map : PathMap) (operation : Operation) : PathMap :=
  match map.perform operation with
  | .ok next => next
  | .error _ => map

theorem item?_after (map : PathMap) (operation : Operation) (names : List String) :
    (map.after operation).item? names =
      match map.outcome operation with
      | .ok () => map.itemAfter operation names
      | .error _ => map.item? names := by
  unfold after outcome
  cases result : map.perform operation with
  | ok next => exact item?_perform result names
  | error failure => rfl

theorem performAll_cons (map : PathMap) (operation : Operation) (rest : List Operation) :
    map.performAll (operation :: rest) =
      (map.outcome operation :: ((map.after operation).performAll rest).1,
        ((map.after operation).performAll rest).2) := by
  unfold outcome after
  rw [performAll]
  cases map.perform operation <;> rfl

end PathMap

end CommandShell
