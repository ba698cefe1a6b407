import CommandShell.Proofs.Legibility

/-!
# Typed sessions are legible

A keyboard gives no edit that inserts a control character, and no built-in command makes one
up.  So wherever a session is led by the keyboard, there are no control characters in it but
the line ends on its output.
-/

namespace CommandShell

/-- Whether a response has no control characters but line ends. -/
def Response.IsLegible : Response → Prop
  | text written => Legible written
  | _ => True

section Builtins

open Builtins Routine

theorem legible_joinLines {rows : List String} (printable : ∀ row ∈ rows, Printable row) :
    Legible (joinLines rows) :=
  .intercalate (by decide) fun row member => (printable row member).legible

theorem printable_overviewRow (width : Nat) {info : CommandInfo} (printable : info.IsPrintable) :
    Printable (overviewRow width info) :=
  ((printable.name.append (printable_padding width info.name)).append (by decide)).append
    printable.description

theorem legible_usage {info : CommandInfo} (printable : info.IsPrintable) :
    Legible (info.description ++ "\nusage: " ++ info.usage) :=
  (printable.description.legible.append (by decide)).append printable.usage.legible

theorem printable_row (options : ListingOptions) {entry : Entry}
    (printable : Printable entry.name) : Printable (options.row entry) := by
  unfold ListingOptions.row
  split
  · have tag : Printable entry.kind.tag := by cases entry.kind <;> decide
    exact (tag.append (by decide)).append printable
  · exact printable

theorem printable_historyRow (index : Nat) {line : String} (printable : Printable line) :
    Printable (historyRow index line) :=
  (((printable_padding 4 _).append (printable_toString (index + 1))).append (by decide)).append
    printable

section Prints

variable {path : String} (printable : Printable path)

include printable

theorem prints_openFile (create : Bool) : (openFile path create).Prints fun _ => True :=
  .bind (.ask printable) fun _ admitted => .ofExcept admitted

theorem prints_makeDirectory : (makeDirectory path).Prints fun _ => True :=
  .bind (.ask printable) fun _ admitted => .ofExcept admitted

theorem prints_list :
    (Routine.list path).Prints fun entries => ∀ entry ∈ entries, Printable entry.name :=
  .bind (.ask printable) fun _ admitted => .ofExcept admitted

theorem prints_resolve : (Routine.resolve path).Prints Printable :=
  .bind (.ask trivial) fun _ current => .pure (printable_resolve current printable)

omit printable

theorem prints_read (handle : Handle) : (Routine.read handle).Prints Printable :=
  .bind (.ask trivial) fun _ admitted => .ofExcept admitted

theorem prints_truncate (handle : Handle) : (truncate handle).Prints fun _ => True :=
  .bind (.ask trivial) fun _ admitted => .ofExcept admitted

theorem prints_write (handle : Handle) {text : String} (printable : Printable text) :
    (write handle text).Prints fun _ => True :=
  .bind (.ask printable) fun _ admitted => .ofExcept admitted

theorem prints_close (handle : Handle) : (close handle).Prints fun _ => True :=
  .ask trivial

theorem prints_isDirectory (path : String) : (Routine.isDirectory path).Prints fun _ => True :=
  .bind (.ask trivial) fun _ _ => .bind (.ask trivial) fun _ _ => .pure trivial

theorem prints_command? (name : String) :
    (Routine.command? name).Prints fun found => ∀ info ∈ found, info.IsPrintable :=
  .bind (.ask trivial) fun _ infos => .pure fun info found =>
    infos info (List.mem_of_find?_eq_some found)

end Prints

theorem prints_history (arguments : List String) :
    (history arguments).Prints Response.IsLegible := by
  refine .bind (.ask trivial) fun lines printable => ?_
  split
  next => exact .pure trivial
  next =>
    refine .pure (legible_joinLines fun row member => ?_)
    obtain ⟨index, inside, rfl⟩ := List.mem_mapIdx.mp member
    exact printable_historyRow index (printable _ (List.getElem_mem inside))

section Arguments

variable {arguments : List String} (given : ∀ argument ∈ arguments, Printable argument)

include given

theorem prints_pathArgument : (pathArgument arguments).Prints Printable := by
  cases arguments with
  | nil =>
      have missing : Printable "missing argument: path" := by decide
      exact missing
  | cons path rest => exact given path List.mem_cons_self

theorem prints_help : (help arguments).Prints Response.IsLegible := by
  cases arguments with
  | nil =>
      refine .bind (.ask trivial) fun infos printable => .pure (legible_joinLines ?_)
      intro row member
      obtain ⟨info, isInfo, rfl⟩ := List.mem_map.mp member
      exact printable_overviewRow _ (printable info isInfo)
  | cons name rest =>
      refine .bind (prints_command? name) fun found printable => ?_
      cases found with
      | none => exact Failure.isPrintable_commandNotFound (given name List.mem_cons_self)
      | some info => exact legible_usage (printable info rfl)

theorem printable_target : Printable (ListingOptions.ofArguments arguments).target := by
  have kept (options : ListingOptions) (before : Printable options.target) :
      Printable (arguments.foldl ListingOptions.add options).target := by
    induction arguments generalizing options with
    | nil => exact before
    | cons argument rest ih =>
        obtain ⟨here, later⟩ := List.forall_mem_cons.mp given
        refine ih later _ ?_
        unfold ListingOptions.add
        split
        · exact before
        · split
          · exact before
          · split
            · exact before
            · exact here
  exact kept {} (by decide)

theorem prints_ls : (ls arguments).Prints Response.IsLegible := by
  refine .bind (prints_list (printable_target given)) fun entries printable => ?_
  split
  next => exact .pure trivial
  next =>
    refine .pure (legible_joinLines fun row member => ?_)
    obtain ⟨entry, shown, rfl⟩ := List.mem_map.mp member
    exact printable_row _ (printable entry (List.mem_filter.mp shown).1)

theorem prints_cd : (cd arguments).Prints Response.IsLegible := by
  cases arguments with
  | nil => exact .pure trivial
  | cons path rest =>
      refine .bind (prints_resolve (given path List.mem_cons_self)) fun target printable => ?_
      refine .bind (prints_isDirectory target) fun isDirectory _ => ?_
      split
      · exact .bind (.ask printable) fun _ _ => .pure trivial
      · exact Failure.isPrintable_notADirectory printable

theorem prints_cat : (cat arguments).Prints Response.IsLegible := by
  refine .bind (prints_pathArgument given) fun path printable => ?_
  refine .bind (prints_openFile printable false) fun handle _ => ?_
  refine .bind (prints_read handle) fun content contentPrintable => ?_
  exact .bind (prints_close handle) fun _ _ => .pure contentPrintable.legible

theorem prints_mkdir : (mkdir arguments).Prints Response.IsLegible := by
  refine .bind (prints_pathArgument given) fun path printable => ?_
  exact .bind (prints_makeDirectory printable) fun _ _ => .pure trivial

theorem prints_touch : (touch arguments).Prints Response.IsLegible := by
  refine .bind (prints_pathArgument given) fun path printable => ?_
  refine .bind (prints_openFile printable true) fun handle _ => ?_
  exact .bind (prints_close handle) fun _ _ => .pure trivial

theorem prints_echo : (echo arguments).Prints Response.IsLegible :=
  .pure (.intercalate (by decide) fun argument member => (given argument member).legible)

theorem prints_of_mem_builtins {command : Command} (member : command ∈ Builtins.all) :
    (command.body arguments).Prints Response.IsLegible := by
  simp only [Builtins.all, List.mem_cons, List.not_mem_nil, or_false] at member
  rcases member with rfl | rfl | rfl | rfl | rfl | rfl | rfl | rfl | rfl | rfl | rfl | rfl
  · exact prints_help given
  · exact prints_ls given
  · exact prints_cd given
  · exact .bind (.ask trivial) fun _ printable => .pure printable.legible
  · exact prints_cat given
  · exact prints_mkdir given
  · exact prints_touch given
  · exact prints_echo given
  · exact .pure trivial
  · exact .pure trivial
  · exact prints_history arguments
  · have greeting : Legible "hi there!" := by decide
    exact .pure greeting

end Arguments

theorem prints_seed : Demo.seed.Prints fun _ => True := by
  have directories : ∀ path ∈ Demo.directories, Printable path := by decide
  have files : ∀ file ∈ Demo.files, Printable file.1 ∧ Printable file.2 := by decide
  refine .bind (.forM fun path member => ?_) fun _ _ => .forM fun file member => ?_
  · refine .bind (prints_isDirectory path) fun isDirectory _ => ?_
    split
    · exact .pure trivial
    · exact prints_makeDirectory (directories path member)
  · obtain ⟨path, content⟩ := files file member
    refine .bind (prints_openFile path true) fun handle _ => ?_
    refine .bind (prints_truncate handle) fun _ _ => ?_
    refine .bind (prints_write handle content) fun _ _ => ?_
    exact prints_close handle

end Builtins

namespace CommandLine

/-- A region that is open at the end was opened before, or by a character of the text. -/
theorem mem_of_regionAtEnd {region : Option Char} {text : List Char} {mark : Char}
    (opened : regionAtEnd region text = some mark) : region = some mark ∨ mark ∈ text := by
  induction text generalizing region with
  | nil => exact .inl opened
  | cons char rest ih =>
      rcases ih opened with behind | later
      · cases region with
        | none =>
            rw [regionBehind] at behind
            split at behind
            · exact .inr (Option.some.inj behind ▸ List.mem_cons_self)
            · cases behind
        | some before =>
            rw [regionBehind] at behind
            split at behind
            · cases behind
            · exact .inl behind
      · exact .inr (List.mem_cons_of_mem char later)

theorem isPrintable_of_tokens {line : String} (typed : Printable line) {failure : Failure}
    (failed : tokens line = .error failure) : failure.IsPrintable := by
  unfold tokens at failed
  split at failed
  next => cases failed
  next =>
    cases scanned : scan none [] line.toList with
    | ok words =>
        rw [scanned] at failed
        cases failed
    | error mark =>
        rw [scanned] at failed
        cases failed
        have inLine : mark ∈ line.toList :=
          (mem_of_regionAtEnd (scan_eq_error_iff.mp scanned)).resolve_left nofun
        have markPrintable : Printable mark.toString :=
          writtenIn_ofList.mpr (List.forall_mem_singleton.mpr (typed mark inLine))
        exact .append (by decide) markPrintable

end CommandLine

theorem Farewell.legible_write {farewell : Farewell} (said : Legible farewell.text)
    {output : Output} (legible : Legible output.text) :
    Legible (farewell.write output).text := by
  have begun : Legible (if farewell.clears then output.clear else output).text := by
    split
    · exact writtenIn_empty
    · exact legible
  unfold write
  dsimp only
  split
  · exact begun.append said.endLine
  · exact begun.append said

theorem Response.legible_change {response : Response} (legible : response.IsLegible)
    {farewell : Option Farewell} (said : ∀ last ∈ farewell, Legible last.text) {output : Output}
    (before : Legible output.text) : Legible (response.change farewell output).text := by
  cases response with
  | text text => exact before.append legible.endLine
  | silent => exact before
  | clear => exact writtenIn_empty
  | exit =>
      cases farewell with
      | none => exact before
      | some last => exact Farewell.legible_write (said last rfl) before

namespace Session

/-- Whether a session knows the built-in commands only, and there are no control characters in
it but the line ends on its output and in what it will say at its end. -/
structure IsPrintable (session : Session) : Prop where
  knows : session.KnowsBuiltins
  suffix : Printable session.config.promptSuffix
  workspace : session.workspace.IsPrintable
  editor : session.editor.IsWrittenIn fun char => Edit.isControl char = false
  farewell : ∀ farewell ∈ session.farewell, Legible farewell.text

namespace IsPrintable

variable {session : Session} (printable : session.IsPrintable)

include printable

theorem withOutput {output : Output} (legible : Legible output.text) :
    { session with workspace := { session.workspace with output } }.IsPrintable :=
  { printable with
    workspace := ⟨printable.workspace.current, printable.workspace.tree, legible⟩ }

theorem writeLine {text : String} (legible : Legible text) :
    (session.writeLine text).IsPrintable :=
  printable.withOutput (printable.workspace.output.append legible.endLine)

theorem withEditor {editor : Editor}
    (written : editor.IsWrittenIn fun char => Edit.isControl char = false) :
    { session with editor }.IsPrintable :=
  { printable with editor := written }

theorem newLine : session.newLine.IsPrintable :=
  printable.withEditor (printable.editor.reset
    ((Path.writtenIn_basename (by rfl) printable.workspace.current).append printable.suffix))

theorem invoke {α : Type} {good : α → Prop} {routine : Routine α} (prints : routine.Prints good) :
    (session.invoke routine).1.Told good ∧ (session.invoke routine).2.IsPrintable := by
  have around : session.invocation.surroundings.IsPrintable := by
    have infos : ∀ info ∈ (Registry.empty.registerAll Builtins.all).infos,
        Printable info.name ∧ Printable info.description ∧ Printable info.usage := by
      decide +kernel
    rw [← printable.knows] at infos
    refine ⟨printable.editor.history, fun info member => ?_⟩
    obtain ⟨name, description, usage⟩ := infos info member
    exact ⟨name, description, usage⟩
  have begun : session.invocation.begun.IsPrintable :=
    ⟨printable.workspace.current, printable.workspace.tree, printable.workspace.output⟩
  obtain ⟨told, ended⟩ := Workspace.IsPrintable.run around prints begun
  exact ⟨told, { printable with workspace := ended.reclaim _ }⟩

theorem respond {response : Response} (legible : response.IsLegible) :
    (session.respond response).IsPrintable := by
  rw [respond_eq]
  have changed := Response.legible_change legible printable.farewell printable.workspace.output
  exact { printable.withOutput changed with }

theorem settle {outcome : Outcome Response} (told : outcome.Told Response.IsLegible) :
    (session.settle outcome).1.Told (fun _ => True) ∧
      (session.settle outcome).2.IsPrintable := by
  cases outcome with
  | done response => exact ⟨trivial, printable.respond told⟩
  | failed failure =>
      have message : Printable failure.message := told
      rw [Session.settle]
      split
      · exact ⟨trivial, printable.writeLine message.legible⟩
      · exact ⟨told, printable⟩
  | panicked message => exact ⟨trivial, printable⟩

theorem execute {name : String} {arguments : List String} (named : Printable name)
    (given : ∀ argument ∈ arguments, Printable argument) :
    (session.execute name arguments).1.Told (fun _ => True) ∧
      (session.execute name arguments).2.IsPrintable := by
  cases found : session.registry.find? name with
  | none =>
      have message : Printable (Failure.commandNotFound name).message :=
        Failure.isPrintable_commandNotFound named
      rw [execute_of_not_found found]
      exact ⟨trivial, printable.writeLine message.legible⟩
  | some command =>
      have prints := prints_of_mem_builtins given (printable.knows.mem found)
      obtain ⟨told, ended⟩ := printable.invoke prints
      rw [execute_of_found found]
      exact ended.settle told

theorem runLine {line : String} (typed : Printable line) :
    (session.runLine line).1.Told (fun _ => True) ∧ (session.runLine line).2.IsPrintable := by
  unfold Session.runLine
  rcases cut : CommandLine.tokens line with failure | (_ | ⟨name, arguments⟩)
  · exact ⟨CommandLine.isPrintable_of_tokens typed cut, printable⟩
  · exact ⟨trivial, printable⟩
  · have words : ∀ word ∈ name :: arguments, Printable word :=
      fun word member => CommandLine.writtenIn_of_mem_tokens typed cut member
    obtain ⟨named, given⟩ := List.forall_mem_cons.mp words
    dsimp only
    split
    · exact ⟨trivial, printable⟩
    · exact printable.execute named given

theorem runReported {line : String} (typed : Printable line) :
    (session.runReported line).2.IsPrintable := by
  obtain ⟨told, ended⟩ := printable.runLine typed
  unfold Session.runReported
  split
  next failure after result =>
    rw [result] at told ended
    have report : Printable ("error: " ++ failure.message) := .append (by decide) told
    exact ended.writeLine report.legible
  next => exact ended

theorem submit {submission : Submission} (shown : Printable submission.line)
    (typed : Printable submission.command) : (session.submit submission).2.IsPrintable := by
  have remembered : (session.echoing submission).IsPrintable :=
    (printable.writeLine shown.legible).withEditor (printable.editor.pushHistory typed)
  have ran := remembered.runReported typed
  rw [submit_eq]
  split
  next after result =>
    rw [Session.echoing, result] at ran
    exact ran.newLine
  next => exact ran

/-- The step: an edit that types no control character keeps a session printable. -/
theorem handle {edit : Edit}
    (typed : edit.IsWrittenIn fun char => Edit.isControl char = false) :
    (session.handle edit).2.IsPrintable := by
  have edited := printable.withEditor (printable.editor.apply typed)
  unfold Session.handle
  cases submits : session.editor.submission? edit with
  | none => exact edited
  | some submission =>
      have line : Printable session.editor.text := writtenIn_ofList.mpr printable.editor.buffer
      rw [session.editor.eq_of_submission? submits]
      exact edited.submit line printable.editor.command

omit printable in
/-- The run: so do edits one after the other. -/
theorem handleEach {edits : List Edit} {session : Session} (printable : session.IsPrintable)
    (typed : ∀ edit ∈ edits, edit.IsWrittenIn fun char => Edit.isControl char = false) :
    (session.performAll (edits.map .handle)).IsPrintable := by
  induction edits generalizing session with
  | nil => exact printable
  | cons edit rest ih =>
      obtain ⟨first, later⟩ := List.forall_mem_cons.mp typed
      exact ih (printable.handle first) later

end IsPrintable

theorem isPrintable_new {config : Config} {created : Session} (home : Printable config.home)
    (suffix : Printable config.promptSuffix) (begun : new config = .ok created) :
    created.IsPrintable := by
  have current : Printable (Path.resolve "/" config.home) := printable_resolve (by decide) home
  have prompt : Printable (promptFor config (Path.resolve "/" config.home)) :=
    (Path.writtenIn_basename (by rfl) current).append suffix
  have resolved : Printable (Path.resolve "/" (Path.resolve "/" config.home)) :=
    printable_resolve (by decide) current
  have rootDirectory : FileTree.empty.kind? FileTree.root = some .directory := rfl
  have tree : (FileTree.empty.makeDirectories "/" (Path.resolve "/" config.home)).2.IsPrintable :=
    FileTree.isPrintable_empty.makeDirectoriesFrom rootDirectory
      (fun _ => Path.isName_of_mem_components)
      (fun _ => Path.writtenIn_of_mem_components resolved)
  simp only [new] at begun
  split at begun
  next => cases begun
  next made =>
    rw [made] at tree
    obtain rfl := Except.ok.inj begun
    refine ⟨rfl, suffix, ⟨current, tree, writtenIn_empty⟩, .new prompt config.historyLimit, ?_⟩
    intro last member
    cases member

end Session

/-- No key stands for an edit that inserts a control character. -/
theorem Edit.isWrittenIn_of_ofKey {key : String} {modifier : Bool} {edit : Edit}
    (pressed : ofKey key modifier = some edit) :
    edit.IsWrittenIn fun char => isControl char = false := by
  cases edit with
  | insert char =>
      unfold ofKey at pressed
      split at pressed
      case h_7 =>
        -- A key that has no name of its own stands for its one character.
        split at pressed
        next =>
          split at pressed
          next => cases pressed
          next allowed =>
            cases pressed
            exact (Bool.not_eq_true _).mp allowed
        next => cases pressed
      all_goals cases modifier <;> cases pressed
  | _ => trivial

namespace Session

/-- A session before the first key is pressed: with the demonstration files or without them,
and with what it is going to say at its end. -/
def prepare (session : Session) (seeded : Bool) (farewell : Option Farewell) : Session :=
  let begun := if seeded then (session.perform (.init Demo.seed)).2 else session
  { begun with farewell }

theorem IsPrintable.prepare {session : Session} (printable : session.IsPrintable)
    {farewell : Option Farewell} (said : ∀ last ∈ farewell, Legible last.text) (seeded : Bool) :
    (session.prepare seeded farewell).IsPrintable := by
  have withFiles : (session.perform (.init Demo.seed)).2.IsPrintable :=
    (printable.invoke prints_seed).2
  have begun :
      (if seeded then (session.perform (.init Demo.seed)).2 else session).IsPrintable := by
    split
    · exact withFiles
    · exact printable
  exact { begun with farewell := said }

/-- What the keyboard leads a session to. -/
def press (session : Session) (keys : List (String × Bool)) : Session :=
  session.performAll ((keys.filterMap fun key => Edit.ofKey key.1 key.2).map .handle)

/-- A keyboard cannot bring control characters into a session.  For every configuration whose
home and prompt have none, with the demonstration files or without them, with no farewell or a
legible one, and whatever keys are pressed: the line in the editor, the history, the current
path, and all names and contents in the file tree have none, and the output has none but line
ends. -/
theorem typed_sessions_are_legible (config : Config) (home : Printable config.home)
    (suffix : Printable config.promptSuffix) :
    ∃ created, new config = .ok created ∧
      ∀ (seeded : Bool) (farewell : Option Farewell) (keys : List (String × Bool)),
        (∀ last ∈ farewell, Legible last.text) →
        let session := (created.prepare seeded farewell).press keys
        Printable session.editor.text ∧ (∀ command ∈ session.editor.history, Printable command) ∧
          Printable session.workspace.current ∧
          (∀ directory name id,
            session.workspace.tree.child? directory name = some id → Printable name) ∧
          (∀ id content, session.workspace.tree.content? id = some content → Printable content) ∧
          Legible session.output.text := by
  obtain ⟨created, begun, -⟩ := exists_new config
  refine ⟨created, begun, fun seeded farewell keys said => ?_⟩
  intro session
  have prepared := (isPrintable_new home suffix begun).prepare said seeded
  have printable : session.IsPrintable := by
    refine prepared.handleEach fun edit member => ?_
    obtain ⟨key, -, pressed⟩ := List.mem_filterMap.mp member
    exact Edit.isWrittenIn_of_ofKey pressed
  exact ⟨writtenIn_ofList.mpr printable.editor.buffer, printable.editor.history,
    printable.workspace.current, fun _ _ _ => printable.workspace.tree.name,
    fun _ _ => printable.workspace.tree.content, printable.workspace.output⟩

/-- Keys that create a file and look at it, and keys for which a keyboard has no edit. -/
def noisy : List (String × Bool) :=
  ["t", "o", "u", "c", "h", "\x1b", " ", "é", "Enter", "l", "\n", "s", "Tab", "Enter", "c", "d"].map
    fun key => (key, false)

theorem typed_sessions_are_legible_noisy :
    ∃ created, new { home := "höme", promptSuffix := "» " } = .ok created ∧
      Printable "höme" ∧ Printable "» " ∧
      let session := (created.prepare true none).press noisy
      (session.editor.text = "höme» cd" ∧ session.editor.history = ["touch é", "ls"] ∧
          session.output.text = "höme» touch é\nhöme» ls\né\n") ∧
        (∀ command ∈ session.editor.history, Printable command) ∧
        (∀ id content, session.workspace.tree.content? id = some content → Printable content) ∧
        Legible session.output.text := by
  have home : Printable "höme" := by decide
  have suffix : Printable "» " := by decide
  obtain ⟨created, begun, always⟩ :=
    typed_sessions_are_legible { home := "höme", promptSuffix := "» " } home suffix
  obtain ⟨-, history, -, -, content, output⟩ := always true none noisy nofun
  refine ⟨created, begun, home, suffix, ?_, history, content, output⟩
  have evaluated : new { home := "höme", promptSuffix := "» " } = .ok _ := rfl
  obtain rfl := Except.ok.inj (evaluated.symm.trans begun)
  decide +kernel

end Session

end CommandShell
