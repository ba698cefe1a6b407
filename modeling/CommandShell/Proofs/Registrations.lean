import CommandShell.Proofs.Dispatch
import Mathlib.Data.List.Nodup
import Mathlib.Data.List.Perm.Basic
import Mathlib.Data.List.Sort

/-!
# Registrations in any order

A registry answers every question about a name with the command that was registered last under
the name.  Nothing else of the order of registrations shows: the listing and the completions
are in the order of the names, and they come out the same if the commands are gathered in any
other order and sorted then.
-/

namespace CommandShell

/-- A name map is given by its lookups. -/
theorem NameMap.ext_find? {α : Type} {left right : NameMap α}
    (agree : ∀ name, left.find? name = right.find? name) : left = right := by
  have sameEntries : left.entries = right.entries :=
    left.ascending.eq_of_mem_iff right.ascending fun entry => by
      rw [← find?_eq_some_iff left, ← find?_eq_some_iff right, agree]
  obtain ⟨entries, ascending⟩ := left
  subst sameEntries
  rfl

/-- One way in which commands get into a registry. -/
inductive Registration where
  | single (command : Command)
  /-- A routine under a name. -/
  | routine (name : String) (body : List String → Routine Response)
  | builtins

/-- The commands that a registration registers, the first one first. -/
def Registration.commands : Registration → List Command
  | single command => [command]
  | routine name body => [Command.plain name body]
  | builtins => Builtins.all

/-- The commands of registrations, the one registered first first. -/
def registered (registrations : List Registration) : List Command :=
  registrations.flatMap Registration.commands

/-- Whether a list holds under each name the command registered last, in whatever order. -/
structure IsGathering (commands : List Command) (entries : List (String × Command)) : Prop where
  nodup : (entries.map Prod.fst).Nodup
  mem_iff : ∀ name command, (name, command) ∈ entries ↔ IsLast name command commands

/-- Two gatherings of the same commands differ in the order only. -/
theorem IsGathering.perm {commands : List Command} {entries others : List (String × Command)}
    (gathering : IsGathering commands entries) (other : IsGathering commands others) :
    entries.Perm others := by
  refine (List.perm_ext_iff_of_nodup gathering.nodup.of_map other.nodup.of_map).mpr ?_
  intro ⟨name, command⟩
  rw [gathering.mem_iff, other.mem_iff]

/-- The names and descriptions of gathered commands, sorted by the names. -/
def sortedListing (entries : List (String × Command)) : List (String × String) :=
  (entries.map fun entry => (entry.2.name, entry.2.description)).mergeSort
    fun earlier later => earlier.1 ≤ later.1

/-- The gathered names that begin with a text, sorted. -/
def sortedCompletions (entries : List (String × Command)) (beginning : String) : List String :=
  ((entries.map Prod.fst).filter fun name => beginning.toList <+: name.toList).mergeSort
    fun earlier later => earlier ≤ later

/-- A list with ascending keys is what sorting makes of its items in any other order. -/
theorem mergeSort_eq_of_perm {α : Type} (key : α → String) {gathered ascending : List α}
    (perm : gathered.Perm ascending)
    (isAscending : ascending.Pairwise fun earlier later => key earlier < key later) :
    gathered.mergeSort (fun earlier later => key earlier ≤ key later) = ascending := by
  let atMost (first second : α) : Bool := key first ≤ key second
  have sorted : (gathered.mergeSort atMost).Pairwise (atMost · ·) := List.pairwise_mergeSort
    (fun first second third => by
      simpa only [atMost, decide_eq_true_eq] using String.le_trans)
    (fun first second => by
      simpa only [atMost, Bool.or_eq_true, decide_eq_true_eq] using
        String.le_total (key first) (key second)) gathered
  have nodup : (ascending.map key).Nodup := List.pairwise_map.mpr (isAscending.imp String.ne_of_lt)
  have permuted := (List.mergeSort_perm gathered atMost).trans perm
  refine permuted.eq_of_pairwise (fun first second isFirst isSecond => ?_) sorted
    (isAscending.imp fun below => decide_eq_true (String.lt_asymm below))
  simp only [atMost, decide_eq_true_eq]
  intro below above
  exact List.inj_on_of_nodup_map nodup (permuted.mem_iff.mp isFirst) isSecond
    (String.le_antisymm below above)

namespace Registry

/-- Make a registration. -/
def enter (registry : Registry) : Registration → Registry
  | .single command => registry.register command
  | .routine name body => registry.register (.plain name body)
  | .builtins => registry.registerAll Builtins.all

/-- The registry after registrations one after the other. -/
def ofRegistrations (registrations : List Registration) : Registry :=
  registrations.foldl enter empty

/-- The names with the descriptions of the commands, as they are listed. -/
def listing (registry : Registry) : List (String × String) :=
  registry.infos.map fun info => (info.name, info.description)

/-- Whether a registry answers for each name with the command registered last under it. -/
structure AnswersWithLast (commands : List Command) (registry : Registry) : Prop where
  contains : ∀ name,
    registry.contains name = true ↔ ∃ command ∈ commands, command.name = name
  find? : ∀ name command, registry.find? name = some command ↔ IsLast name command commands
  execute : ∀ (session : Session) name arguments command, session.registry = registry →
    IsLast name command commands →
      session.execute name arguments = (CommandRun.mk session command arguments).settled
  execute_unknown : ∀ (session : Session) name arguments, session.registry = registry →
    (∀ command ∈ commands, command.name ≠ name) →
      session.execute name arguments =
        (.done (), session.writeLine ("command not found: " ++ name))
  ascending : registry.listing.Pairwise fun earlier later => earlier.1 < later.1
  mem_listing : ∀ name description, (name, description) ∈ registry.listing ↔
    ∃ command, IsLast name command commands ∧ command.description = description
  completions : ∀ beginning, registry.completions beginning =
    (registry.listing.map Prod.fst).filter fun name => beginning.toList <+: name.toList
  gathered : IsGathering commands registry.commands.entries
  sortedListing : ∀ entries, IsGathering commands entries →
    sortedListing entries = registry.listing
  sortedCompletions : ∀ entries, IsGathering commands entries → ∀ beginning,
    sortedCompletions entries beginning = registry.completions beginning

section Registered

variable {commands : List Command} {name : String} {command : Command}

theorem enter_eq_registerAll (registry : Registry) (registration : Registration) :
    registry.enter registration = registry.registerAll registration.commands := by
  cases registration <;> rfl

theorem foldl_enter (registry : Registry) (registrations : List Registration) :
    registrations.foldl enter registry = registry.registerAll (registered registrations) := by
  induction registrations generalizing registry with
  | nil => rfl
  | cons registration rest ih =>
      rw [List.foldl_cons, ih, enter_eq_registerAll]
      exact List.foldl_append.symm

theorem find?_registerAll_eq_some_iff :
    (empty.registerAll commands).find? name = some command ↔ IsLast name command commands := by
  refine ⟨fun found => ?_, fun isLast => find?_registerAll_of_isLast isLast empty⟩
  rcases empty.find?_registerAll_cases commands name with ⟨last, isLast, isFound⟩ | ⟨-, unknown⟩
  · rwa [← Option.some.inj (isFound.symm.trans found)]
  · cases unknown.symm.trans found

theorem find?_registerAll_eq_none_iff :
    (empty.registerAll commands).find? name = none ↔
      ∀ command ∈ commands, command.name ≠ name := by
  rcases empty.find?_registerAll_cases commands name with
    ⟨last, ⟨earlier, later, rfl, named, -⟩, found⟩ | ⟨unnamed, unknown⟩
  · rw [found]
    exact iff_of_false (Option.some_ne_none last) fun unnamed => unnamed last (by simp) named
  · exact iff_of_true unknown unnamed

theorem contains_registerAll :
    (empty.registerAll commands).contains name = true ↔
      ∃ command ∈ commands, command.name = name := by
  have known : (empty.registerAll commands).contains name =
      ((empty.registerAll commands).find? name).isSome := rfl
  rw [known, Option.isSome_iff_ne_none, Ne, find?_registerAll_eq_none_iff]
  push Not
  rfl

/-- Every entry stands under the name of its command. -/
theorem name_eq_of_mem_entries {entry : String × Command}
    (member : entry ∈ (empty.registerAll commands).commands.entries) :
    entry.2.name = entry.1 := by
  have found : (empty.registerAll commands).find? entry.1 = some entry.2 :=
    (NameMap.find?_eq_some_iff _).mpr member
  obtain ⟨-, -, -, named, -⟩ := find?_registerAll_eq_some_iff.mp found
  exact named

theorem listing_registerAll : (empty.registerAll commands).listing =
    (empty.registerAll commands).commands.entries.map
      fun entry => (entry.1, entry.2.description) := by
  rw [listing, infos, NameMap.values, List.map_map, List.map_map]
  apply List.map_congr_left
  intro entry member
  rw [← name_eq_of_mem_entries member]
  rfl

theorem map_fst_listing_registerAll :
    (empty.registerAll commands).listing.map Prod.fst =
      (empty.registerAll commands).commands.names := by
  rw [listing_registerAll, List.map_map]
  rfl

theorem ascending_listing_registerAll :
    (empty.registerAll commands).listing.Pairwise fun earlier later => earlier.1 < later.1 := by
  rw [listing_registerAll, List.pairwise_map]
  exact (empty.registerAll commands).commands.ascending

theorem mem_listing_registerAll {description : String} :
    (name, description) ∈ (empty.registerAll commands).listing ↔
      ∃ command, IsLast name command commands ∧ command.description = description := by
  simp only [listing_registerAll, List.mem_map, Prod.mk.injEq, Prod.exists,
    ← NameMap.find?_eq_some_iff, ← find?_registerAll_eq_some_iff]
  constructor
  · rintro ⟨other, command, found, rfl, described⟩
    exact ⟨command, found, described⟩
  · rintro ⟨command, found, described⟩
    exact ⟨name, command, found, rfl, described⟩

theorem completions_registerAll (beginning : String) :
    (empty.registerAll commands).completions beginning =
      ((empty.registerAll commands).listing.map Prod.fst).filter
        fun name => beginning.toList <+: name.toList := by
  rw [map_fst_listing_registerAll, completions]
  apply List.filter_congr
  intro name _
  rw [Bool.eq_iff_iff, List.isPrefixOf_iff_prefix, decide_eq_true_eq]

/-- The entries of a registry are one way in which the last commands may stand. -/
theorem isGathering_entries :
    IsGathering commands (empty.registerAll commands).commands.entries where
  nodup := List.pairwise_map.mpr
    ((empty.registerAll commands).commands.ascending.imp String.ne_of_lt)
  mem_iff _ _ := (NameMap.find?_eq_some_iff _).symm.trans find?_registerAll_eq_some_iff

theorem sortedListing_of_isGathering {entries : List (String × Command)}
    (gathering : IsGathering commands entries) :
    CommandShell.sortedListing entries = (empty.registerAll commands).listing := by
  refine mergeSort_eq_of_perm Prod.fst ?_ ascending_listing_registerAll
  rw [listing, infos, NameMap.values, List.map_map, List.map_map]
  exact (gathering.perm isGathering_entries).map _

theorem sortedCompletions_of_isGathering {entries : List (String × Command)}
    (gathering : IsGathering commands entries) (beginning : String) :
    CommandShell.sortedCompletions entries beginning =
      (empty.registerAll commands).completions beginning := by
  rw [completions_registerAll, map_fst_listing_registerAll]
  refine mergeSort_eq_of_perm id ?_ ?_
  · exact ((gathering.perm isGathering_entries).map _).filter _
  · refine List.Pairwise.filter _ ?_
    exact List.pairwise_map.mpr (empty.registerAll commands).commands.ascending

theorem answersWithLast_registerAll (commands : List Command) :
    AnswersWithLast commands (empty.registerAll commands) where
  contains _ := contains_registerAll
  find? _ _ := find?_registerAll_eq_some_iff
  execute := by
    rintro session name arguments command same isLast
    have found : session.registry.find? name = some command := by
      rw [same, find?_registerAll_eq_some_iff]
      exact isLast
    exact Session.execute_of_found found arguments
  execute_unknown := by
    rintro session name arguments same unnamed
    have unknown : session.registry.find? name = none := by
      rw [same, find?_registerAll_eq_none_iff]
      exact unnamed
    exact Session.execute_of_not_found unknown arguments
  ascending := ascending_listing_registerAll
  mem_listing _ _ := mem_listing_registerAll
  completions := completions_registerAll
  gathered := isGathering_entries
  sortedListing _ := sortedListing_of_isGathering
  sortedCompletions _ := sortedCompletions_of_isGathering

/-- A registry is known by the last commands under the names. -/
theorem registerAll_congr {others : List Command}
    (same : ∀ name command, IsLast name command others ↔ IsLast name command commands) :
    empty.registerAll others = empty.registerAll commands := by
  have agree : (empty.registerAll others).commands = (empty.registerAll commands).commands := by
    apply NameMap.ext_find?
    intro name
    apply Option.ext
    intro command
    exact find?_registerAll_eq_some_iff.trans
      ((same name command).trans find?_registerAll_eq_some_iff.symm)
  exact congrArg Registry.mk agree

end Registered

/-- A registry is a map in which the last registration of a name counts and no other order
shows.  After any registrations it knows the registered names, finds and runs under each of
them the command registered last, lists each of them once with the description of this command
in ascending order of the names, and completes a text to the listed names that begin with it.
The listing and the completions are the same if the last commands are gathered in any order and
sorted then, and two registries that the same commands have been registered last in are equal. -/
theorem registry_is_last_writer_map (registrations : List Registration) :
    AnswersWithLast (registered registrations) (ofRegistrations registrations) ∧
      ∀ others : List Registration,
        (∀ name command, IsLast name command (registered others) ↔
          IsLast name command (registered registrations)) →
        ofRegistrations others = ofRegistrations registrations := by
  rw [ofRegistrations, foldl_enter]
  refine ⟨answersWithLast_registerAll _, fun others same => ?_⟩
  rw [ofRegistrations, foldl_enter]
  exact registerAll_congr same

-- A built-in command is replaced, and capital letters come before small ones.
example :
    let registry := ofRegistrations [.routine "hello" fun _ => .done .silent, .builtins,
      .routine "howdy" fun _ => .done .clear, .routine "Hello" fun _ => .done .exit]
    registry.completions "h" = ["hello", "help", "history", "howdy"] ∧
      registry.listing.head? = some ("Hello", "user command") ∧
      registry.listing.lookup "howdy" = some "user command" := by
  decide +kernel

end Registry

end CommandShell
