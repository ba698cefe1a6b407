import CommandShell.Proofs.Refusals

/-!
# The alphabet of a session

Words are cut out of command lines and names out of paths, and a path that is resolved is
put together from names and slashes.  No new character comes up on the way.  So where the
configuration of a session and all that is typed are written in an alphabet that has the
slash, the built-in commands lead to directories only whose paths are written in it too,
and so are the prompt, the line in the editor and the submitted commands.
-/

namespace CommandShell

/-- Whether a text consists of characters of an alphabet. -/
def WrittenIn (alphabet : Char → Prop) (text : String) : Prop :=
  ∀ char ∈ text.toList, alphabet char

instance (alphabet : Char → Prop) [DecidablePred alphabet] (text : String) :
    Decidable (WrittenIn alphabet text) :=
  List.decidableBAll alphabet text.toList

section Texts

variable {alphabet : Char → Prop}

theorem writtenIn_empty : WrittenIn alphabet "" := by
  simp [WrittenIn]

theorem writtenIn_ofList {chars : List Char} :
    WrittenIn alphabet (String.ofList chars) ↔ ∀ char ∈ chars, alphabet char := by
  rw [WrittenIn, String.toList_ofList]

theorem WrittenIn.append {front back : String} (first : WrittenIn alphabet front)
    (second : WrittenIn alphabet back) : WrittenIn alphabet (front ++ back) := by
  intro char member
  rw [String.toList_append, List.mem_append] at member
  exact member.elim (first char) (second char)

theorem WrittenIn.intercalate {separator : String} {texts : List String}
    (between : WrittenIn alphabet separator)
    (written : ∀ text ∈ texts, WrittenIn alphabet text) :
    WrittenIn alphabet (separator.intercalate texts) := by
  induction texts with
  | nil =>
      rw [String.intercalate_nil]
      exact writtenIn_empty
  | cons first rest ih =>
      obtain ⟨here, later⟩ := List.forall_mem_cons.mp written
      cases rest with
      | nil =>
          rw [String.intercalate_singleton]
          exact here
      | cons next more =>
          rw [String.intercalate_cons_cons]
          exact (here.append between).append (ih later)

end Texts

namespace Path

variable {alphabet : Char → Prop}

theorem writtenIn_of_mem_components {path name : String} (written : WrittenIn alphabet path)
    (member : name ∈ components path) : WrittenIn alphabet name := by
  obtain ⟨piece, isPiece, rfl⟩ := List.mem_map.mp member
  have within := (List.infix_and_not_mem_of_mem_splitOn (List.mem_filter.mp isPiece).1).1
  exact writtenIn_ofList.mpr fun char inside => written char (within.subset inside)

section Slash

variable (slash : alphabet '/')

include slash

theorem writtenIn_render {names : List String}
    (written : ∀ name ∈ names, WrittenIn alphabet name) : WrittenIn alphabet (render names) := by
  unfold render
  split
  · exact List.forall_mem_singleton.mpr slash
  · refine writtenIn_ofList.mpr fun char member => ?_
    obtain ⟨name, isName, inside⟩ := List.mem_flatMap.mp member
    rcases List.mem_cons.mp inside with rfl | inName
    · exact slash
    · exact written name isName char inName

/-- Resolution makes no characters up but slashes. -/
theorem writtenIn_resolve {current expression : String}
    (currentWritten : WrittenIn alphabet current)
    (expressionWritten : WrittenIn alphabet expression) :
    WrittenIn alphabet (resolve current expression) := by
  have followed (names passed : List String) (ahead : ∀ name ∈ names, WrittenIn alphabet name)
      (behind : ∀ name ∈ passed, WrittenIn alphabet name) :
      ∀ name ∈ names.foldl follow passed, WrittenIn alphabet name := by
    induction names generalizing passed with
    | nil => exact behind
    | cons first rest ih =>
        obtain ⟨here, later⟩ := List.forall_mem_cons.mp ahead
        refine ih _ later ?_
        unfold follow
        split
        · exact behind
        · split
          · exact fun name member => behind name (List.mem_of_mem_tail member)
          · exact List.forall_mem_cons.mpr ⟨here, behind⟩
  unfold resolve
  split
  · exact expressionWritten
  · refine writtenIn_render slash fun name member => ?_
    refine followed _ _ (fun name => writtenIn_of_mem_components expressionWritten) ?_ name
      (List.mem_reverse.mp member)
    intro name member
    unfold origin at member
    split at member
    · cases member
    · exact writtenIn_of_mem_components currentWritten (List.mem_reverse.mp member)

theorem writtenIn_splitParent {path : String} (written : WrittenIn alphabet path) :
    WrittenIn alphabet (splitParent path).1 ∧ WrittenIn alphabet (splitParent path).2 := by
  have root : WrittenIn alphabet "/" := List.forall_mem_singleton.mpr slash
  obtain ⟨leaf, -, ⟨rfl, cut⟩ | ⟨above, rfl, cut⟩⟩ := splitParent_cases path
  · rw [cut]
    exact ⟨root, written⟩
  · rw [cut]
    rw [writtenIn_ofList] at written
    refine ⟨?_, writtenIn_ofList.mpr fun char member => written char (by simp [member])⟩
    dsimp only
    split
    · exact root
    · exact writtenIn_ofList.mpr fun char member => written char (by simp [member])

theorem writtenIn_basename {path : String} (written : WrittenIn alphabet path) :
    WrittenIn alphabet (basename path) := by
  unfold basename
  dsimp only
  split
  · exact List.forall_mem_singleton.mpr slash
  · exact (writtenIn_splitParent slash written).2

end Slash

end Path

namespace CommandLine

theorem map_char_marked (region : Option Char) (text : List Char) :
    (marked region text).map Marked.char = text := by
  induction text generalizing region with
  | nil => rfl
  | cons char rest ih => exact congrArg (char :: ·) (ih _)

/-- The words of a line are made of its characters. -/
theorem writtenIn_of_mem_tokens {alphabet : Char → Prop} {line word : String}
    {words : List String} (written : WrittenIn alphabet line)
    (cut : tokens line = .ok words) (member : word ∈ words) : WrittenIn alphabet word := by
  by_cases empty : line = ""
  · rw [tokens, if_pos empty] at cut
    rw [← Except.ok.inj cut] at member
    rw [List.mem_singleton.mp member]
    exact writtenIn_empty
  · intro char inside
    have inWords : char ∈ joined words := List.mem_flatMap.mpr ⟨word, member, inside⟩
    rw [(isReading_of_tokens empty cut).joined_eq] at inWords
    obtain ⟨mark, isKept, rfl⟩ := List.mem_map.mp inWords
    have inLine : mark.char ∈ (marked none line.toList).map Marked.char :=
      List.mem_map_of_mem (List.mem_filter.mp isKept).1
    rw [map_char_marked] at inLine
    exact written _ inLine

end CommandLine

namespace Editor

variable {alphabet : Char → Prop} {editor : Editor}

/-- Whether all that an editor holds is written in an alphabet. -/
structure IsWrittenIn (alphabet : Char → Prop) (editor : Editor) : Prop where
  prompt : WrittenIn alphabet editor.prompt
  buffer : ∀ char ∈ editor.buffer, alphabet char
  history : ∀ command ∈ editor.history, WrittenIn alphabet command

namespace IsWrittenIn

theorem new {prompt : String} (promptWritten : WrittenIn alphabet prompt) (limit : Nat) :
    (Editor.new prompt limit).IsWrittenIn alphabet :=
  ⟨promptWritten, promptWritten, nofun⟩

theorem reset (written : editor.IsWrittenIn alphabet) {prompt : String}
    (promptWritten : WrittenIn alphabet prompt) : (editor.reset prompt).IsWrittenIn alphabet :=
  ⟨promptWritten, promptWritten, written.history⟩

theorem pushHistory (written : editor.IsWrittenIn alphabet) {command : String}
    (commandWritten : WrittenIn alphabet command) :
    (editor.pushHistory command).IsWrittenIn alphabet := by
  unfold Editor.pushHistory
  split
  · exact written
  · refine ⟨written.prompt, written.buffer, fun other member => ?_⟩
    rcases List.mem_append.mp (List.mem_of_mem_drop member) with earlier | new
    · exact written.history other earlier
    · exact List.mem_singleton.mp new ▸ commandWritten

theorem recalled (written : editor.IsWrittenIn alphabet) (position : Nat) :
    WrittenIn alphabet (editor.recalled position) := by
  unfold Editor.recalled
  split
  · exact writtenIn_empty
  · cases found : editor.history.reverse[position - 1]? with
    | none => exact writtenIn_empty
    | some command =>
        exact written.history command (List.mem_reverse.mp (List.mem_of_getElem? found))

theorem showRecalled (written : editor.IsWrittenIn alphabet) (position : Nat) :
    (editor.showRecalled position).IsWrittenIn alphabet := by
  refine ⟨written.prompt, fun char member => ?_, written.history⟩
  rcases List.mem_append.mp member with inPrompt | inCommand
  · exact written.buffer char (List.mem_of_mem_take inPrompt)
  · exact written.recalled position char inCommand

theorem command (written : editor.IsWrittenIn alphabet) : WrittenIn alphabet editor.command :=
  writtenIn_ofList.mpr fun char member => written.buffer char (List.mem_of_mem_drop member)

end IsWrittenIn

end Editor

/-- Whether an edit types nothing but characters of an alphabet. -/
def Edit.IsWrittenIn (alphabet : Char → Prop) : Edit → Prop
  | insert char => alphabet char
  | _ => True

theorem Editor.IsWrittenIn.apply {alphabet : Char → Prop} {editor : Editor}
    (written : editor.IsWrittenIn alphabet) {edit : Edit} (typed : edit.IsWrittenIn alphabet) :
    (editor.apply edit).IsWrittenIn alphabet := by
  cases edit with
  | insert char =>
      refine ⟨written.prompt, fun other member => ?_, written.history⟩
      -- A cursor behind the end of the line would insert nothing.
      by_cases inside : editor.cursor ≤ editor.buffer.length
      · rcases (List.mem_insertIdx inside).mp member with rfl | before
        · exact typed
        · exact written.buffer other before
      · rw [Editor.apply, List.insertIdx_of_length_lt (Nat.lt_of_not_le inside)] at member
        exact written.buffer other member
  | backspace =>
      exact ⟨written.prompt,
        fun char member => written.buffer char (List.mem_of_mem_eraseIdx member),
        written.history⟩
  | historyPrevious => exact written.showRecalled _
  | historyNext => exact written.showRecalled _
  | submit => exact written
  | cursorLeft | cursorRight | lineStart | lineEnd =>
      exact ⟨written.prompt, written.buffer, written.history⟩

namespace Workspace

theorem current_run {α : Type} {routine : Routine α}
    (staysPut : routine.AsksOnly Call.StaysPut) (surroundings : Surroundings)
    (workspace : Workspace) :
    (run surroundings routine workspace).2.current = workspace.current := by
  have kept (reached : Workspace) (request : Call) (isAllowed : request.StaysPut)
      (same : reached.current = workspace.current) :
      (reached.perform surroundings request).2.current = workspace.current :=
    (reached.current_perform surroundings isAllowed).trans same
  exact run_of_asksOnly kept staysPut rfl

theorem current_reclaim (workspace : Workspace) (process : ProcessId) :
    (workspace.reclaim process).current = workspace.current := by
  obtain ⟨handles, processes, reclaimed⟩ := workspace.exists_reclaim_eq process
  rw [reclaimed]

end Workspace

theorem Session.current_invoke {α : Type} (session : Session) (routine : Routine α) :
    (session.invoke routine).2.workspace.current =
      (Workspace.run session.invocation.surroundings routine
        session.invocation.begun).2.current :=
  Workspace.current_reclaim _ _

/-- A built-in command that is run in a directory with a written path ends in one, if its
arguments are written too. -/
theorem CommandRun.writtenIn_current {alphabet : Char → Prop} (slash : alphabet '/')
    {run : CommandRun} (builtin : run.command ∈ Builtins.all)
    (arguments : ∀ argument ∈ run.arguments, WrittenIn alphabet argument)
    (written : WrittenIn alphabet run.session.workspace.current) :
    WrittenIn alphabet run.settled.2.workspace.current := by
  have ended : run.settled.2.workspace.current =
      (Workspace.run run.session.invocation.surroundings (run.command.body run.arguments)
        run.session.invocation.begun).2.current := by
    rw [settled_eq]
    exact run.session.current_invoke run.routine
  rw [ended]
  rcases eq_cd_or_staysPut_of_mem_builtins run.arguments builtin with isCd | staysPut
  · rw [isCd]
    cases given : run.arguments with
    | nil => exact written
    | cons path rest =>
        rw [given] at arguments
        rw [run_cd]
        dsimp only
        split
        · exact Path.writtenIn_resolve slash written (arguments path List.mem_cons_self)
        · exact written
  · rw [Workspace.current_run staysPut]
    exact written

/-- Whether the texts of a configuration are written in an alphabet. -/
structure Config.IsWrittenIn (alphabet : Char → Prop) (config : Config) : Prop where
  home : WrittenIn alphabet config.home
  suffix : WrittenIn alphabet config.promptSuffix
  startup : ∀ line ∈ config.startup, WrittenIn alphabet line

namespace Session

/-- Whether the paths, the prompts and the lines of a session are written in an alphabet, and
it knows the built-in commands only. -/
structure IsWrittenIn (alphabet : Char → Prop) (session : Session) : Prop where
  knows : session.KnowsBuiltins
  current : WrittenIn alphabet session.workspace.current
  config : session.config.IsWrittenIn alphabet
  editor : session.editor.IsWrittenIn alphabet

/-- Whether an operation brings no text along but such that is written in an alphabet. -/
def Operation.IsWrittenIn (alphabet : Char → Prop) : Operation → Prop
  | execute _ arguments => ∀ argument ∈ arguments, WrittenIn alphabet argument
  | runLine line => WrittenIn alphabet line
  | handle edit => edit.IsWrittenIn alphabet
  | _ => True

theorem Proceeds.config_eq {before after : Session} {runs : List CommandRun}
    (proceeded : before.Proceeds runs after) : after.config = before.config := by
  induction proceeded with
  | refl => rfl
  | wrote _ line ih => exact ih
  | edited _ editor ih => exact ih
  | ran _ found arguments ih =>
      rw [CommandRun.settled_eq]
      exact ih

section Preservation

variable {alphabet : Char → Prop} {session after : Session} {line : String}

theorem writtenIn_of_mem_runLineRuns (lineWritten : WrittenIn alphabet line)
    {run : CommandRun} (member : run ∈ session.runLineRuns line) :
    ∀ argument ∈ run.arguments, WrittenIn alphabet argument := by
  obtain ⟨-, -, name, cut, -⟩ := runLine_of_mem_runs member
  exact fun argument isArgument =>
    CommandLine.writtenIn_of_mem_tokens lineWritten cut (List.mem_cons_of_mem _ isArgument)

theorem writtenIn_of_mem_runLinesRuns {lines : List String}
    (linesWritten : ∀ line ∈ lines, WrittenIn alphabet line) {run : CommandRun}
    (member : run ∈ session.runLinesRuns lines) :
    ∀ argument ∈ run.arguments, WrittenIn alphabet argument := by
  induction lines generalizing session with
  | nil => cases member
  | cons line rest ih =>
      obtain ⟨here, later⟩ := List.forall_mem_cons.mp linesWritten
      rcases List.mem_append.mp member with first | others
      · exact writtenIn_of_mem_runLineRuns here first
      · split at others
        · exact ih later others
        · cases others

theorem writtenIn_of_mem_executeRuns {name : String} {arguments : List String}
    (argumentsWritten : ∀ argument ∈ arguments, WrittenIn alphabet argument)
    {run : CommandRun} (member : run ∈ session.executeRuns name arguments) :
    ∀ argument ∈ run.arguments, WrittenIn alphabet argument := by
  unfold executeRuns at member
  split at member
  · cases member
  · rw [List.mem_singleton.mp member]
    exact argumentsWritten

theorem isWrittenIn_of_mem_typing (lineWritten : WrittenIn alphabet line) {edit : Edit}
    (member : edit ∈ typing line) : edit.IsWrittenIn alphabet := by
  rcases List.mem_append.mp member with typed | submitted
  · obtain ⟨char, inside, rfl⟩ := List.mem_map.mp typed
    exact lineWritten char inside
  · obtain rfl := List.mem_singleton.mp submitted
    trivial

namespace IsWrittenIn

theorem withEditor (written : session.IsWrittenIn alphabet) {editor : Editor}
    (editorWritten : editor.IsWrittenIn alphabet) :
    { session with editor }.IsWrittenIn alphabet :=
  { written with editor := editorWritten }

section Slash

variable (slash : alphabet '/')

include slash

theorem prompt (written : session.IsWrittenIn alphabet) : WrittenIn alphabet session.prompt :=
  (Path.writtenIn_basename slash written.current).append written.config.suffix

theorem newLine (written : session.IsWrittenIn alphabet) :
    session.newLine.IsWrittenIn alphabet :=
  written.withEditor (written.editor.reset (written.prompt slash))

/-- Command lines and commands keep a session written that do not touch its editor. -/
theorem proceeds (written : session.IsWrittenIn alphabet) {runs : List CommandRun}
    (proceeded : session.Proceeds runs after)
    (arguments : ∀ run ∈ runs, ∀ argument ∈ run.arguments, WrittenIn alphabet argument)
    (sameEditor : after.editor = session.editor) : after.IsWrittenIn alphabet where
  knows := proceeded.registry_eq.trans written.knows
  current := by
    -- On the way the editor may be another one than at the end.
    clear sameEditor
    induction proceeded with
    | refl => exact written.current
    | wrote _ line ih => exact ih arguments
    | edited _ editor ih => exact ih arguments
    | ran proceeded found given ih =>
        rw [List.forall_mem_append] at arguments
        obtain ⟨earlier, here⟩ := arguments
        have knows : KnowsBuiltins _ := proceeded.registry_eq.trans written.knows
        exact CommandRun.writtenIn_current slash (knows.mem found)
          (here _ (List.mem_singleton_self _)) (ih earlier)
  config := by
    rw [proceeded.config_eq]
    exact written.config
  editor := by
    rw [sameEditor]
    exact written.editor

theorem runReported (written : session.IsWrittenIn alphabet)
    (lineWritten : WrittenIn alphabet line) :
    (session.runReported line).2.IsWrittenIn alphabet :=
  written.proceeds slash (session.proceeds_runReported line)
    (fun _ => writtenIn_of_mem_runLineRuns lineWritten) (session.editor_runReported line)

theorem runLines (written : session.IsWrittenIn alphabet) {lines : List String}
    (linesWritten : ∀ line ∈ lines, WrittenIn alphabet line) :
    (session.runLines lines).2.IsWrittenIn alphabet :=
  written.proceeds slash (session.proceeds_runLines lines)
    (fun _ => writtenIn_of_mem_runLinesRuns linesWritten) (session.editor_runLines lines)

omit slash in
theorem echoing (written : session.IsWrittenIn alphabet) {submission : Submission}
    (commandWritten : WrittenIn alphabet submission.command) :
    (session.echoing submission).IsWrittenIn alphabet where
  knows := written.knows
  current := written.current
  config := written.config
  editor := written.editor.pushHistory commandWritten

theorem submit (written : session.IsWrittenIn alphabet) {submission : Submission}
    (commandWritten : WrittenIn alphabet submission.command) :
    (session.submit submission).2.IsWrittenIn alphabet := by
  have ran := (written.echoing commandWritten).runReported slash commandWritten
  rw [submit_eq]
  split
  next after result =>
    rw [Session.echoing, result] at ran
    exact ran.newLine slash
  next => exact ran

theorem handle (written : session.IsWrittenIn alphabet) {edit : Edit}
    (typed : edit.IsWrittenIn alphabet) : (session.handle edit).2.IsWrittenIn alphabet := by
  have edited := written.withEditor (written.editor.apply typed)
  unfold Session.handle
  cases submits : session.editor.submission? edit with
  | none => exact edited
  | some submission =>
      rw [session.editor.eq_of_submission? submits]
      exact edited.submit slash written.editor.command

end Slash

theorem invoke {α : Type} (written : session.IsWrittenIn alphabet) {routine : Routine α}
    (staysPut : routine.AsksOnly Call.StaysPut) :
    (session.invoke routine).2.IsWrittenIn alphabet where
  knows := written.knows
  current := by
    rw [session.current_invoke, Workspace.current_run staysPut]
    exact written.current
  config := written.config
  editor := written.editor

section Operations

variable (slash : alphabet '/')

include slash

/-- The step: written operations keep a session written. -/
theorem perform (written : session.IsWrittenIn alphabet) {operation : Operation}
    (ordinary : operation.IsOrdinary) (operationWritten : operation.IsWrittenIn alphabet) :
    (session.perform operation).2.IsWrittenIn alphabet := by
  cases operation with
  | register command => exact ordinary.elim
  | setFarewell farewell => exact { written with }
  | init routine =>
      have isSeed : routine = Demo.seed := ordinary
      have staysPut : routine.AsksOnly Call.StaysPut := by
        rw [isSeed]
        exact staysPut_seed
      exact written.invoke staysPut
  | runStartup => exact written.runLines slash written.config.startup
  | execute name arguments =>
      exact written.proceeds slash (session.proceeds_execute name arguments)
        (fun _ => writtenIn_of_mem_executeRuns operationWritten)
        (session.editor_execute name arguments)
  | runLine line =>
      exact written.proceeds slash (session.proceeds_runLine line)
        (fun _ => writtenIn_of_mem_runLineRuns operationWritten) (session.editor_runLine line)
  | handle edit => exact written.handle slash operationWritten

/-- The run: a session stays written as long as its operations are. -/
theorem performAll (written : session.IsWrittenIn alphabet) {operations : List Operation}
    (ordinary : ∀ operation ∈ operations, operation.IsOrdinary)
    (operationsWritten : ∀ operation ∈ operations, operation.IsWrittenIn alphabet) :
    (session.performAll operations).IsWrittenIn alphabet := by
  induction operations generalizing session with
  | nil => exact written
  | cons operation rest ih =>
      obtain ⟨firstOrdinary, restOrdinary⟩ := List.forall_mem_cons.mp ordinary
      obtain ⟨firstWritten, restWritten⟩ := List.forall_mem_cons.mp operationsWritten
      exact ih (written.perform slash firstOrdinary firstWritten) restOrdinary restWritten

end Operations

end IsWrittenIn

/-- A new session is written in every alphabet that has the slash and in which its
configuration is written. -/
theorem isWrittenIn_new (slash : alphabet '/') {config : Config}
    (written : config.IsWrittenIn alphabet) (created : new config = .ok session) :
    session.IsWrittenIn alphabet := by
  have root : WrittenIn alphabet "/" := List.forall_mem_singleton.mpr slash
  have home := Path.writtenIn_resolve slash root written.home
  have prompt : WrittenIn alphabet (promptFor config (Path.resolve "/" config.home)) :=
    (Path.writtenIn_basename slash home).append written.suffix
  obtain ⟨tree, rfl⟩ := exists_eq_of_new created
  exact ⟨rfl, home, written, .new prompt config.historyLimit⟩

end Preservation

end Session

end CommandShell
