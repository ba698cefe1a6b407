import CommandShell.Proofs.Alphabets

/-!
# The echo and the response

A terminal shows what its user types, so of what a submitted line has added to the output a
console prints only what comes behind the echo of the line.  It takes the first line of the
news for the echo.  That is the echo exactly if the prompt is a single line; behind a prompt
that has a line end in it, the rest of the echo is taken for a part of the response.
-/

namespace CommandShell

/-- A reader at the end of the output receives what has been added, if it was not cleared. -/
theorem Reader.poll_atEnd_of_epoch_eq {before after : Output} {written : String}
    (same : after.epoch = before.epoch) (text : after.text = before.text ++ written) :
    (atEnd before).poll after = ({ cleared := false, text := written }, atEnd after) := by
  obtain rfl : after = before.write written := by
    rw [Output.write, ← text, ← same]
  exact poll_atEnd_write before written

namespace Console

theorem afterEcho_ofList {line : List Char} (plain : '\n' ∉ line) (rest : List Char) :
    afterEcho (String.ofList (line ++ '\n' :: rest)) = String.ofList rest := by
  have isLine : ∀ char ∈ line, decide (char ≠ '\n') = true := by
    intro char member
    exact decide_eq_true fun same => plain (same ▸ member)
  rw [afterEcho, String.toList_ofList, List.dropWhile_append_of_pos isLine,
    List.dropWhile_cons_of_neg (by simp), List.tail_cons]

/-- A text that has a line end is cut there, whatever comes behind it. -/
theorem afterEcho_append {front : String} (member : '\n' ∈ front.toList) (back : String) :
    afterEcho (front ++ back) = afterEcho front ++ back := by
  obtain ⟨line, rest, split, plain⟩ := List.eq_append_cons_of_mem member
  obtain rfl : front = String.ofList (line ++ '\n' :: rest) := by
    rw [← split, String.ofList_toList]
  have joined : String.ofList (line ++ '\n' :: rest) ++ back =
      String.ofList (line ++ '\n' :: (rest ++ back.toList)) := by
    rw [← String.toList_inj]
    simp
  rw [joined, afterEcho_ofList plain, afterEcho_ofList plain, String.ofList_append,
    String.ofList_toList]

theorem afterEcho_line {line : String} (plain : '\n' ∉ line.toList) (rest : String) :
    afterEcho (line ++ "\n" ++ rest) = rest := by
  have joined : line ++ "\n" ++ rest = String.ofList (line.toList ++ '\n' :: rest.toList) := by
    rw [← String.toList_inj]
    simp
  rw [joined, afterEcho_ofList plain, String.ofList_toList]

/-- What a prompt with a line end leaves of the echo is taken for a part of the response. -/
theorem afterEcho_echo {prompt : String} (member : '\n' ∈ prompt.toList)
    (text written : String) :
    afterEcho (prompt ++ text ++ "\n" ++ written) =
      afterEcho prompt ++ text ++ "\n" ++ written := by
  simp only [String.append_assoc, afterEcho_append member]

theorem afterEcho_echo_iff {prompt text : String} (plain : '\n' ∉ text.toList)
    (written : String) :
    afterEcho (prompt ++ text ++ "\n" ++ written) = written ↔ '\n' ∉ prompt.toList := by
  constructor
  · intro right member
    -- With a rest of the echo in front of it, the response is longer than itself.
    rw [afterEcho_echo member] at right
    have lengths := congrArg String.length right
    simp only [String.length_append] at lengths
    have lineEnd : "\n".length = 1 := rfl
    omega
  · intro single
    refine afterEcho_line ?_ written
    rw [String.toList_append, List.mem_append, not_or]
    exact ⟨single, plain⟩

end Console

namespace Session

variable {session after : Session} {text : String}

/-- The session in which the command of a line that was typed is run. -/
def echoed (session : Session) (text : String) : Session :=
  session.echoing { line := session.editor.prompt ++ text, command := text }

/-- A report is told behind everything else. -/
theorem exists_tells_runReported (session : Session) (line : String) :
    ∃ cleared told, session.Tells (·.runReported line) cleared told := by
  obtain ⟨cleared, told, tells⟩ := session.exists_tells_runLine line
  have ended := tells.showing
  have keeps := tells.keeps
  unfold runReported
  rcases ran : session.runLine line with ⟨value | failure | message, after⟩
  · simp only [ran] at ended
    refine ⟨cleared, told, fun editor output known => ?_, fun undone => ?_⟩
    · simp only [ended editor output known, ran]
    · simp only [ran, ne_eq, not_true] at undone
  · simp only [ran] at ended keeps
    obtain rfl := keeps nofun
    refine ⟨false, told ++ ("error: " ++ failure.message ++ "\n"), ?_, fun _ => rfl⟩
    intro editor output known
    have added : output.tell false (told ++ ("error: " ++ failure.message ++ "\n")) =
        (output.tell false told).writeLine ("error: " ++ failure.message) :=
      (Output.write_write _ _ _).symm
    simp only [ended editor output known, ran, added]
    rfl
  · simp only [ran] at ended keeps
    obtain rfl := keeps nofun
    refine ⟨false, told, fun editor output known => ?_, fun _ => rfl⟩
    simp only [ended editor output known, ran]

theorem submit_echoing_cases (session : Session) (submission : Submission) :
    let ran := (session.echoing submission).runReported submission.command
    (ran.1 = .done () ∧ session.submit submission = (.done (), ran.2.newLine)) ∨
      ran.1 ≠ .done () ∧ session.submit submission = ran := by
  intro ran
  have same : (session.showing (session.editor.pushHistory submission.command)
      (session.output.writeLine submission.line)).runReported submission.command = ran := rfl
  rw [submit_eq, same]
  rcases ran with ⟨value | failure | message, after⟩
  · exact .inl ⟨rfl, rfl⟩
  · exact .inr ⟨by simp, rfl⟩
  · exact .inr ⟨by simp, rfl⟩

/-- A typed line ends where its command ends that is run behind the echo: on a new line, or
with another line in the editor if the command panics. -/
theorem enter_cases {zipper : Zipper} (represents : zipper.Represents session.editor)
    (blank : session.editor.command = "") (text : String) :
    let ran := (session.echoed text).runReported text
    (ran.1 = .done () ∧ session.enter text = (.done (), ran.2.newLine)) ∨
      ran.1 ≠ .done () ∧ ∃ editor, session.enter text = (ran.1, { ran.2 with editor }) := by
  intro ran
  obtain ⟨cleared, told, tells⟩ := (session.remembering text).exists_tells_runReported text
  let shown := session.showing (session.editor.withCommand text) session.output
  let submission : Submission := { line := session.editor.prompt ++ text, command := text }
  -- The command runs with the typed line in the editor or without it, and does not see it.
  have echoed : ran = (_, _) := tells.showing (session.editor.pushHistory text)
    (session.output.writeLine submission.line) rfl
  have typed : (shown.echoing submission).runReported submission.command = (_, _) :=
    tells.showing (shown.editor.pushHistory text) (session.output.writeLine submission.line)
      (session.editor.history_pushHistory_withCommand text text)
  have submitted := shown.submit_echoing_cases submission
  rw [typed] at submitted
  rw [enter_eq_submit represents blank, echoed]
  rcases submitted with ⟨done, ended⟩ | ⟨undone, ended⟩
  · refine .inl ⟨done, ended.trans ?_⟩
    dsimp only [shown, showing]
    rw [Editor.pushHistory_withCommand]
    rfl
  · exact .inr ⟨undone, _, ended⟩

/-- What stands on the output behind a typed line is what its command has left there. -/
theorem output_enter {zipper : Zipper} (represents : zipper.Represents session.editor)
    (blank : session.editor.command = "") (text : String) :
    (session.enter text).2.output = ((session.echoed text).runReported text).2.output := by
  rcases enter_cases represents blank text with ⟨-, entered⟩ | ⟨-, editor, entered⟩
  · rw [entered]
    rfl
  · rw [entered]
    rfl

/-- What a reader receives that was at the end of the output when the line was typed: the
echo and what was written behind it, or all that was written since a clearing. -/
theorem poll_echoed (session : Session) (text : String) :
    let reached := ((session.echoed text).runReported text).2.output
    (reached.epoch = session.output.epoch ∧
      ∃ written, reached.text = (session.echoed text).output.text ++ written ∧
        (Reader.atEnd session.output).poll reached =
          ({ cleared := false, text := session.editor.prompt ++ text ++ "\n" ++ written },
            Reader.atEnd reached)) ∨
    (reached.epoch ≠ session.output.epoch ∧
      (Reader.atEnd session.output).poll reached =
        ({ cleared := true, text := reached.text }, Reader.atEnd reached)) := by
  intro reached
  have grown := ((session.echoed text).proceeds_runReported text).growsTo
  by_cases same : reached.epoch = session.output.epoch
  · obtain ⟨written, added⟩ := grown.exists_written same
    refine .inl ⟨same, written, added, Reader.poll_atEnd_of_epoch_eq same ?_⟩
    have echo : (session.echoed text).output.text =
        session.output.text ++ (session.editor.prompt ++ text ++ "\n") := rfl
    rw [added, echo, String.append_assoc]
  · exact .inr ⟨same, Reader.poll_of_epoch_ne same⟩

theorem IsWrittenIn.single_prompt (written : session.IsWrittenIn (· ≠ '\n')) :
    '\n' ∉ session.editor.prompt.toList :=
  fun member => written.editor.prompt _ member rfl

/-- What a console takes for the response to a line is the response exactly if the prompt is
a single line: after any operations on a new session and whatever commands are registered,
if nothing of the line stood in the editor before and the output was not cleared.  Behind any
other prompt the rest of the echo is printed once more.  If there is no line end in the
configuration and in what is typed, every prompt is a single line. -/
theorem afterEcho_exact_iff (config : Config) :
    ∃ created, new config = .ok created ∧
      (∀ (operations : List Operation) (text : String),
        let session := created.performAll operations
        let ran := (session.echoed text).runReported text
        let news := ((Reader.atEnd session.output).poll (session.enter text).2.output).1
        session.editor.command = "" → '\n' ∉ text.toList → news.cleared = false →
          ∃ written, ran.2.output.text = (session.echoed text).output.text ++ written ∧
            news.text = session.editor.prompt ++ text ++ "\n" ++ written ∧
            (Console.afterEcho news.text = written ↔ '\n' ∉ session.editor.prompt.toList) ∧
            ('\n' ∈ session.editor.prompt.toList → Console.afterEcho news.text =
              Console.afterEcho session.editor.prompt ++ text ++ "\n" ++ written)) ∧
      (config.IsWrittenIn (· ≠ '\n') →
        ∀ operations : List Operation, (∀ operation ∈ operations, operation.IsOrdinary) →
          (∀ operation ∈ operations, operation.IsWrittenIn (· ≠ '\n')) →
            '\n' ∉ (created.performAll operations).editor.prompt.toList) := by
  obtain ⟨created, begun, -⟩ := exists_new config
  refine ⟨created, begun, fun operations text => ?_, fun written operations ordinary typed => ?_⟩
  · intro session ran news blank plain uncleared
    obtain ⟨zipper, represents⟩ :=
      exists_represents_performAll (exists_represents_new begun) operations
    have output : (session.enter text).2.output = ran.2.output :=
      output_enter represents blank text
    rcases session.poll_echoed text with ⟨-, written, added, polled⟩ | ⟨-, polled⟩
    · have told : news.text = session.editor.prompt ++ text ++ "\n" ++ written := by
        simp only [news, output, ran, polled]
      refine ⟨written, added, told, ?_, fun member => ?_⟩
      · rw [told]
        exact Console.afterEcho_echo_iff plain written
      · rw [told]
        exact Console.afterEcho_echo member text written
    · simp only [news, output, ran, polled, reduceCtorEq] at uncleared
  · have slash : '/' ≠ '\n' := by decide
    exact ((isWrittenIn_new slash written begun).performAll slash ordinary typed).single_prompt

/-- A visit to a directory of the demonstration files, by way of the editor. -/
def submitting : List Operation :=
  .init Demo.seed :: (typing "cd friends").map .handle

theorem afterEcho_exact_iff_submitting :
    ∃ created, new {} = .ok created ∧
      let session := created.performAll submitting
      let news := ((Reader.atEnd session.output).poll (session.enter "ls").2.output).1
      session.editor.command = "" ∧ news.cleared = false ∧
        news.text = session.editor.prompt ++ "ls" ++ "\n" ++ "Rachael\n" ∧
        Console.afterEcho news.text = "Rachael\n" ∧ '\n' ∉ session.editor.prompt.toList := by
  obtain ⟨created, begun, always, single⟩ := afterEcho_exact_iff {}
  have ordinary : ∀ operation ∈ submitting, operation.IsOrdinary := by
    simp [submitting, Operation.IsOrdinary]
  have typed : ∀ operation ∈ submitting, operation.IsWrittenIn (· ≠ '\n') := by
    refine List.forall_mem_cons.mpr ⟨trivial, List.forall_mem_map.mpr fun edit member => ?_⟩
    exact isWrittenIn_of_mem_typing (by decide) member
  have oneLine := single ⟨by decide, by decide, List.forall_mem_nil _⟩ submitting ordinary typed
  have evaluated : let session := created.performAll submitting
      let news := ((Reader.atEnd session.output).poll (session.enter "ls").2.output).1
      session.editor.command = "" ∧ news.cleared = false ∧
        Console.afterEcho news.text = "Rachael\n" := by
    have made : new {} = .ok _ := rfl
    obtain rfl := Except.ok.inj (made.symm.trans begun)
    decide +kernel
  obtain ⟨blank, uncleared, printed⟩ := evaluated
  obtain ⟨written, -, told, exactly, -⟩ := always submitting "ls" blank (by decide) uncleared
  obtain rfl : written = "Rachael\n" := (exactly.mpr oneLine).symm.trans printed
  exact ⟨created, begun, blank, uncleared, told, printed, oneLine⟩

/-- A prompt of two lines. -/
def twoLined : Config := { promptSuffix := "\n> " }

theorem afterEcho_not_exact_twoLined :
    ∃ created, new twoLined = .ok created ∧ twoLined.checked = .ok twoLined ∧
      created.editor.command = "" ∧
      ((created.echoed "echo hi").runReported "echo hi").2.output.text =
        (created.echoed "echo hi").output.text ++ "hi\n" ∧
      ((Reader.atEnd created.output).poll (created.enter "echo hi").2.output).1 =
        { cleared := false, text := "home\n> echo hi\nhi\n" } ∧
      Console.afterEcho "home\n> echo hi\nhi\n" = "> echo hi\nhi\n" ∧
      (Console.run (.ok twoLined) "echo hi\n".toUTF8.data.toList).printed =
        ["", "home\n> ", "> echo hi\nhi\n", "home\n> ", "\n"] := by
  refine ⟨_, rfl, ?_, ?_, ?_, ?_, ?_, ?_⟩ <;> decide +kernel

end Session

end CommandShell
