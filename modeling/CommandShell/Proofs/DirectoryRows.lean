import CommandShell.Proofs.CurrentDirectory
import CommandShell.Proofs.Listings
import CommandShell.Proofs.Refusals
import CommandShell.Proofs.SessionTrees

/-!
# Rows of a directory

A listing that is printed has one row for each entry of a directory.  Its arguments are read one
after the other, flags and targets in any order; in the end it counts which flags there are and
which target is the last one.
-/

namespace CommandShell

namespace Builtins

/-- Whether an argument sets flags.  All others name targets. -/
def isFlag (argument : String) : Bool :=
  argument.toList.head? = some '-'

/-- Whether an argument is the word for a setting, or has the letter for it among its flags.  The
word for the other setting is not read by letters. -/
def requests (word other : String) (letter : Char) (argument : String) : Bool :=
  argument = word ||
    (isFlag argument && argument ≠ other && argument.toList.contains letter)

/-- Whether the kinds of the entries are asked for. -/
def wantsKinds (arguments : List String) : Bool :=
  arguments.any (requests "--list" "--all" 'l')

/-- Whether the entries whose names begin with a dot are asked for. -/
def wantsHidden (arguments : List String) : Bool :=
  arguments.any (requests "--all" "--list" 'a')

/-- The last argument that sets no flags, or the current directory if there is none. -/
def lastTarget (arguments : List String) : String :=
  ((arguments.filter fun argument => !isFlag argument).getLast?).getD "."

section Arguments

variable {word other : String} {letter : Char} {argument : String}
  {arguments others : List String}

theorem requests_of_ne (notWord : argument ≠ word) (notOther : argument ≠ other) :
    requests word other letter argument =
      (isFlag argument && argument.toList.contains letter) := by
  simp [requests, notWord, notOther]

theorem isFlag_of_requests (isFlagWord : isFlag word)
    (asked : requests word other letter argument) : isFlag argument := by
  simp only [requests, Bool.or_eq_true, Bool.and_eq_true, decide_eq_true_eq] at asked
  rcases asked with rfl | ⟨⟨isFlag, -⟩, -⟩
  · exact isFlagWord
  · exact isFlag

namespace ListingOptions

/-- What one more argument changes. -/
theorem add_eq (options : ListingOptions) (argument : String) :
    options.add argument =
      { long := options.long || requests "--list" "--all" 'l' argument
        all := options.all || requests "--all" "--list" 'a' argument
        target := if isFlag argument then options.target else argument } := by
  by_cases isList : argument = "--list"
  · subst isList
    have silent : requests "--all" "--list" 'a' "--list" = false := by decide
    have asked : requests "--list" "--all" 'l' "--list" = true := by decide
    have flag : isFlag "--list" = true := by decide
    simp [add, silent, asked, flag]
  by_cases isAll : argument = "--all"
  · subst isAll
    have silent : requests "--list" "--all" 'l' "--all" = false := by decide
    have asked : requests "--all" "--list" 'a' "--all" = true := by decide
    have flag : isFlag "--all" = true := by decide
    simp [add, silent, asked, flag]
  rw [requests_of_ne isList isAll, requests_of_ne isAll isList, add, if_neg isList, if_neg isAll]
  unfold isFlag
  split
  next flags dash => simp [dash]
  next noDash =>
    cases chars : argument.toList with
    | nil => simp
    | cons first rest =>
        have notDash : first ≠ '-' := fun same => noDash rest (same ▸ chars)
        simp [notDash]

/-- The closed form of the whole reading. -/
theorem foldl_add (options : ListingOptions) (arguments : List String) :
    arguments.foldl add options =
      { long := options.long || wantsKinds arguments
        all := options.all || wantsHidden arguments
        target := ((arguments.filter fun argument => !isFlag argument).getLast?).getD
          options.target } := by
  induction arguments generalizing options with
  | nil => simp [wantsKinds, wantsHidden]
  | cons argument rest ih =>
      rw [List.foldl_cons, ih, add_eq]
      cases flag : isFlag argument with
      | true => simp [wantsKinds, wantsHidden, flag, Bool.or_assoc]
      | false => simp [wantsKinds, wantsHidden, flag, Bool.or_assoc, List.getLast?_cons]

theorem ofArguments_eq (arguments : List String) :
    ofArguments arguments =
      { long := wantsKinds arguments
        all := wantsHidden arguments
        target := lastTarget arguments } := by
  rw [ofArguments, foldl_add]
  simp [lastTarget]

end ListingOptions

/-- A setting depends on the flags that there are, not on their order. -/
theorem any_requests_congr (isFlagWord : isFlag word)
    (sameFlags : ∀ argument, isFlag argument → (argument ∈ others ↔ argument ∈ arguments)) :
    others.any (requests word other letter) = arguments.any (requests word other letter) := by
  rw [Bool.eq_iff_iff, List.any_eq_true, List.any_eq_true]
  refine exists_congr fun argument => and_congr_left fun asked => ?_
  exact sameFlags argument (isFlag_of_requests isFlagWord asked)

theorem ls_congr
    (sameFlags : ∀ argument, isFlag argument → (argument ∈ others ↔ argument ∈ arguments))
    (sameTarget : lastTarget others = lastTarget arguments) : ls others = ls arguments := by
  have sameOptions : ListingOptions.ofArguments others = ListingOptions.ofArguments arguments := by
    rw [ListingOptions.ofArguments_eq, ListingOptions.ofArguments_eq, sameTarget, wantsKinds,
      wantsHidden, any_requests_congr (by decide) sameFlags,
      any_requests_congr (by decide) sameFlags]
    rfl
  rw [ls, sameOptions]
  rfl

end Arguments

/-- Rows that are joined and written as one line are written each as a line of its own. -/
theorem joinLines_cons (row : String) (rows : List String) :
    joinLines (row :: rows) ++ "\n" = String.join ((row :: rows).map (· ++ "\n")) := by
  induction rows generalizing row with
  | nil => simp [joinLines]
  | cons next rest ih =>
      have joined : joinLines (row :: next :: rest) = row ++ "\n" ++ joinLines (next :: rest) :=
        String.intercalate_cons_cons
      rw [joined, String.append_assoc, ih]
      exact String.join_cons.symm

/-- What is responded with rows. -/
def rowsResponse : List String → Response
  | [] => .silent
  | row :: rows => .text (joinLines (row :: rows))

theorem respond_rowsResponse (session : Session) (rows : List String) :
    session.respond (rowsResponse rows) =
      { session with
        workspace :=
          session.workspace.mapOutput (·.write (String.join (rows.map (· ++ "\n")))) } := by
  cases rows with
  | nil => simp [rowsResponse, Session.respond, Workspace.mapOutput, Output.write_empty]
  | cons row rest =>
      rw [rowsResponse, Session.respond, Session.writeLine, ← joinLines_cons]
      rfl

section Run

variable (surroundings : Surroundings) (workspace : Workspace) (arguments : List String)

theorem run_ls :
    Workspace.run surroundings (ls arguments) workspace =
      match workspace.tree.list workspace.current (lastTarget arguments) with
      | .error failure => (.failed failure, workspace)
      | .ok entries =>
          let options := ListingOptions.ofArguments arguments
          (.done (rowsResponse ((entries.filter options.shows).map options.row)), workspace) := by
  have asked : Workspace.run surroundings (Routine.list (lastTarget arguments)) workspace =
      Workspace.run surroundings
        (.ofExcept (workspace.tree.list workspace.current (lastTarget arguments))) workspace :=
    Workspace.run_ask_bind surroundings (.list (lastTarget arguments)) .ofExcept workspace
  have target : (ListingOptions.ofArguments arguments).target = lastTarget arguments := by
    rw [ListingOptions.ofArguments_eq]
  rw [ls, Workspace.run_bind, target, asked]
  cases workspace.tree.list workspace.current (lastTarget arguments) with
  | error failure => rfl
  | ok entries =>
      dsimp only [Routine.ofExcept, Workspace.run, Workspace.andThen]
      cases (entries.filter (ListingOptions.ofArguments arguments).shows).map
        (ListingOptions.ofArguments arguments).row with
      | nil => rfl
      | cons row rows => rfl

end Run

/-- A row of a directory as it is printed, the kind of the entry in front if it is asked for. -/
def rowText (kinds : Bool) : String × NodeKind → String
  | (name, .directory) => (if kinds then "d  " else "") ++ name
  | (name, .file) => (if kinds then "f  " else "") ++ name

/-- Whether rows show a directory: each of its entries once, in ascending order of the names,
those whose names begin with a dot only if they are asked for. -/
structure ShowsDirectory (tree : FileTree) (directory : NodeId) (hidden : Bool)
    (rows : List (String × NodeKind)) : Prop where
  ascending : rows.Pairwise fun earlier later => earlier.1 < later.1
  members : ∀ name, name ∈ rows.map Prod.fst ↔
    (hidden ∨ name.toList.head? ≠ some '.') ∧ ∃ id, tree.child? directory name = some id
  kinds : ∀ name kind, (name, kind) ∈ rows →
    ∃ id, tree.child? directory name = some id ∧ tree.kind? id = some kind

theorem row_eq_rowText (options : ListingOptions) (entry : Entry) :
    options.row entry = rowText options.long (entry.name, entry.kind) := by
  rcases entry with ⟨name, _ | _, size⟩ <;> cases long : options.long <;>
    simp [ListingOptions.row, rowText, long, NodeKind.tag]

theorem shows_iff {options : ListingOptions} {entry : Entry} :
    options.shows entry ↔ options.all ∨ entry.name.toList.head? ≠ some '.' := by
  simp [ListingOptions.shows]

/-- The entries that are left of a listing make up rows of the directory. -/
theorem exists_rows {tree : FileTree} (isTree : tree.IsTree) {current path : String}
    {directory : NodeId} (found : tree.find? current path = some directory)
    (isDirectory : tree.kind? directory = some .directory) (options : ListingOptions) :
    ∃ entries rows, tree.list current path = .ok entries ∧
      ShowsDirectory tree directory options.all rows ∧
      (entries.filter options.shows).map options.row = rows.map (rowText options.long) := by
  obtain ⟨entries, listed, ascending, members⟩ :=
    FileTree.list_of_directory found isDirectory
  refine ⟨entries, (entries.filter options.shows).map fun entry => (entry.name, entry.kind),
    listed, ⟨?_, fun name => ?_, fun name kind member => ?_⟩, ?_⟩
  · exact List.pairwise_map.mpr (ascending.filter _)
  · simp only [List.map_map, List.mem_map, List.mem_filter, Function.comp_apply, shows_iff]
    constructor
    · rintro ⟨entry, ⟨member, shown⟩, rfl⟩
      obtain ⟨id, entryFound, -⟩ := (FileTree.exists_item_iff _ entry).mp ((members entry).mp member)
      exact ⟨shown, id, entryFound⟩
    · rintro ⟨shown, id, entryFound⟩
      obtain ⟨kind, known⟩ := FileTree.exists_kind?_of_lt (isTree.forward entryFound).2
      refine ⟨⟨name, kind, tree.byteLength id⟩, ⟨(members _).mpr ?_, shown⟩, rfl⟩
      exact (FileTree.exists_item_iff _ _).mpr ⟨id, entryFound, known, rfl⟩
  · obtain ⟨entry, kept, same⟩ := List.mem_map.mp member
    obtain ⟨rfl, rfl⟩ := Prod.mk.inj same
    obtain ⟨id, entryFound, known, -⟩ := (FileTree.exists_item_iff _ entry).mp
      ((members entry).mp (List.mem_filter.mp kept).1)
    exact ⟨id, entryFound, known⟩
  · rw [List.map_map]
    exact List.map_congr_left fun entry _ => row_eq_rowText options entry

end Builtins

namespace Session

open Builtins

variable {session : Session}

/-- A routine that leaves the workspace as it is leaves nothing but other tables behind. -/
theorem exists_invoke_of_still {α : Type} {routine : Routine α} {outcome : Outcome α}
    (still : ∀ surroundings processes,
      Workspace.run surroundings routine { session.workspace with processes } =
        (outcome, { session.workspace with processes })) :
    ∃ handles processes, session.invoke routine =
      (outcome, { session with
        workspace := { session.workspace with handles, processes } }) := by
  obtain ⟨surroundings, begun, handles, processes, invoked⟩ := session.exists_invoke_eq routine
  exact ⟨handles, processes,
    invoked outcome { session.workspace with processes := begun } (still surroundings begun)⟩

section Listing

variable {command : Command} (found : session.registry.find? "ls" = some command)
  (isListing : command.body = ls) (arguments : List String)

include found isListing

theorem exists_execute_ls_of_error {failure : Failure}
    (failed : session.workspace.tree.list session.workspace.current (lastTarget arguments) =
      .error failure) :
    ∃ handles processes, session.execute "ls" arguments =
      (.done (), { session with
        workspace :=
          { session.workspace with
            handles, processes
            output := session.output.writeLine failure.message } }) := by
  have expected := FileTree.isUserFacing_of_list failed
  obtain ⟨handles, processes, invoked⟩ :=
    @exists_invoke_of_still session _ (ls arguments) (.failed failure)
      fun surroundings processes => by
        rw [run_ls]
        simp only [failed]
  refine ⟨handles, processes, ?_⟩
  rw [execute_of_found found, isListing, invoked]
  simp only [settle, expected, if_true]
  rfl

theorem exists_execute_ls_of_ok {entries : List Entry}
    (listed : session.workspace.tree.list session.workspace.current (lastTarget arguments) =
      .ok entries) :
    let options := ListingOptions.ofArguments arguments
    ∃ handles processes, session.execute "ls" arguments =
      (.done (), { session with
        workspace :=
          { session.workspace with
            handles, processes
            output := session.output.write (String.join
              (((entries.filter options.shows).map options.row).map (· ++ "\n"))) } }) := by
  intro options
  obtain ⟨handles, processes, invoked⟩ :=
    @exists_invoke_of_still session _ (ls arguments) _ fun surroundings processes => by
      rw [run_ls]
      simp only [listed]
      rfl
  refine ⟨handles, processes, ?_⟩
  rw [execute_of_found found, isListing, invoked]
  simp only [settle, respond_rowsResponse]
  rfl

end Listing

/-- What a listing prints, in every session that operations make of a new one, as long as the
listing has not been replaced.  It comes to its end, whatever its arguments are, and changes
nothing but the output that could be seen.  If the last target is no directory, that is told.
Otherwise each entry of the directory gets one row, in ascending order of the names by code
points; entries whose names begin with a dot only if some flag asks for them, and with the kind
in front if some flag asks for it; where there is no row nothing is written.  Flags in another order,
or elsewhere among the targets, make no difference. -/
theorem listing_prints_rows {config : Config} {created : Session}
    (begun : new config = .ok created) (operations : List Operation) {command : Command}
    (found : (created.performAll operations).registry.find? "ls" = some command)
    (isListing : command.body = ls) :
    let session := created.performAll operations
    let tree := session.workspace.tree
    (∀ arguments,
      let target := Path.resolve session.workspace.current (lastTarget arguments)
      ∃ handles processes output,
        session.execute "ls" arguments =
          (.done (), { session with
            workspace := { session.workspace with handles, processes, output } }) ∧
        (¬ tree.HasDirectory target →
          output = session.output.writeLine (Failure.notADirectory target).message) ∧
        ∀ directory, tree.lookup target = some directory →
          tree.kind? directory = some .directory →
            ∃ rows, ShowsDirectory tree directory (wantsHidden arguments) rows ∧
              output = session.output.write (String.join
                (rows.map fun row => rowText (wantsKinds arguments) row ++ "\n")) ∧
              (rows = [] → output = session.output)) ∧
    ∀ arguments others,
      (∀ argument, isFlag argument → (argument ∈ others ↔ argument ∈ arguments)) →
      lastTarget others = lastTarget arguments →
        session.execute "ls" others = session.execute "ls" arguments := by
  intro session tree
  refine ⟨fun arguments => ?_, fun arguments others sameFlags sameTarget => ?_⟩
  · intro target
    by_cases present : tree.HasDirectory target
    · obtain ⟨directory, leads, isDirectory⟩ := present
      obtain ⟨entries, rows, listed, shows, texts⟩ := exists_rows
        (isTree_performAll begun operations) leads isDirectory (.ofArguments arguments)
      obtain ⟨handles, processes, executed⟩ :=
        exists_execute_ls_of_ok found isListing arguments listed
      rw [texts, List.map_map] at executed
      rw [ListingOptions.ofArguments_eq] at executed shows
      refine ⟨handles, processes, _, executed, fun absent => ?_, fun other otherLeads _ => ?_⟩
      · exact absurd ⟨directory, leads, isDirectory⟩ absent
      · obtain rfl := Option.some.inj (leads.symm.trans otherLeads)
        refine ⟨rows, shows, rfl, ?_⟩
        rintro rfl
        exact Output.write_empty _
    · have absent : (tree.find? session.workspace.current (lastTarget arguments)).bind
          tree.kind? ≠ some .directory :=
        fun isDirectory => present (Option.bind_eq_some_iff.mp isDirectory)
      obtain ⟨handles, processes, executed⟩ := exists_execute_ls_of_error found isListing
        arguments (FileTree.list_of_not_directory absent)
      refine ⟨handles, processes, _, executed, fun _ => rfl, fun directory leads kind => ?_⟩
      exact absurd ⟨directory, leads, kind⟩ present
  · rw [execute_of_found found, execute_of_found found, isListing,
      ls_congr sameFlags sameTarget]

/-- Operations that leave entries of both kinds, one of them hidden. -/
def stocking : List Operation :=
  [.init Demo.seed, .runLine "touch .rc", .runLine "mkdir Z", .runLine "cd friends"]

theorem listing_prints_rows_stocked :
    ∃ created command, new {} = .ok created ∧
      let session := created.performAll stocking
      let arguments := ["friends", "--help", "..", "-a"]
      session.registry.find? "ls" = some command ∧ command.body = ls ∧
        session.workspace.tree.lookup "/home" = some 1 ∧
        (∃ rows, ShowsDirectory session.workspace.tree 1 true rows ∧
          (session.execute "ls" arguments).2.output = session.output.write (String.join
            (rows.map fun row => rowText true row ++ "\n"))) ∧
        (session.execute "ls" arguments).2.output.text =
          "f  .rc\nd  Z\nf  about\nd  friends\n" ∧
        (session.execute "ls" ["-x"]).2.output.text = "Rachael\n" ∧
        session.execute "ls" ["-a", "..", "-a", "--help"] = session.execute "ls" arguments := by
  obtain ⟨created, begun, -⟩ := exists_new {}
  have ordinary : ∀ operation ∈ stocking, operation.IsOrdinary := by
    simp [stocking, Operation.IsOrdinary]
  have knows : (created.performAll stocking).KnowsBuiltins :=
    KnowsBuiltins.performAll (registry_new begun) ordinary
  have found : (created.performAll stocking).registry.find? "ls" =
      some ⟨⟨"ls", "List directory contents", "ls [-la] [path]"⟩, ls⟩ := by
    rw [knows]
    rfl
  have told : (new {}).map (fun created =>
      let session := created.performAll stocking
      let tree := session.workspace.tree
      let arguments := ["friends", "--help", "..", "-a"]
      (Path.resolve session.workspace.current (lastTarget arguments), tree.lookup "/home",
        tree.kind? 1, (session.execute "ls" arguments).2.output.text,
        (session.execute "ls" ["-x"]).2.output.text)) =
      .ok ("/home", some 1, some .directory, "f  .rc\nd  Z\nf  about\nd  friends\n",
        "Rachael\n") := by
    decide +kernel
  rw [begun] at told
  simp only [Except.map, Except.ok.injEq, Prod.mk.injEq] at told
  obtain ⟨target, home, isDirectory, listed, plainlyListed⟩ := told
  obtain ⟨prints, sameTold⟩ := listing_prints_rows begun stocking found rfl
  obtain ⟨handles, processes, output, executed, -, shown⟩ :=
    prints ["friends", "--help", "..", "-a"]
  rw [target] at shown
  obtain ⟨rows, shows, wrote, -⟩ := shown 1 home isDirectory
  refine ⟨created, _, begun, found, rfl, home, ⟨rows, shows, ?_⟩, listed, plainlyListed,
    sameTold _ _ ?_ (by decide)⟩
  · rw [executed]
    exact wrote
  · intro argument flag
    have notTarget : argument ≠ "friends" := by
      rintro rfl
      exact absurd flag (by decide)
    simp only [List.mem_cons, List.not_mem_nil, or_false, notTarget, false_or]
    grind

end Session

end CommandShell
