import CommandShell.Proofs.Tokens
import Mathlib.Data.List.SplitBy

/-!
# Arguments can be typed

The two quote marks together quote every text: apostrophes stand between double quotes, and all
other characters stand between apostrophes.  Quoted regions that touch each other make one
token, so an argument that is written in such regions is read back as it was, and arguments
with spaces between them are read back one by one.
-/

namespace CommandShell

namespace CommandLine

/-- The mark that a character is quoted with. -/
def markOf (char : Char) : Char :=
  if char = '\'' then '"' else '\''

/-- The longest runs of characters that are quoted with the same mark. -/
def runs (text : List Char) : List (List Char) :=
  text.splitBy fun left right => markOf left == markOf right

def quotedRun : List Char → List Char
  | [] => []
  | first :: rest => markOf first :: first :: rest ++ [markOf first]

/-- A text in quotes, one region for each of its runs. -/
def quoted (text : String) : List Char :=
  (runs text.toList).flatMap quotedRun

/-- An argument and the number of spaces in front of it. -/
structure Argument where
  gap : Nat
  text : String
  deriving DecidableEq, Repr

def Argument.written (argument : Argument) : List Char :=
  List.replicate argument.gap ' ' ++ quoted argument.text

/-- The line of the arguments in quotes, with spaces behind them. -/
def typed (arguments : List Argument) (behind : Nat) : String :=
  String.ofList (arguments.flatMap Argument.written ++ List.replicate behind ' ')

section Regions

theorem markOf_ne (char : Char) : markOf char ≠ char := by
  unfold markOf
  split
  next isApostrophe => simp [isApostrophe]
  next other => exact Ne.symm other

theorem isQuoteMark_markOf (char : Char) : isQuoteMark (markOf char) = true := by
  unfold markOf
  split <;> rfl

theorem markOf_eq_of_mem_runs {text rest : List Char} {first char : Char}
    (isRun : first :: rest ∈ runs text) (inside : char ∈ first :: rest) :
    markOf char = markOf first := by
  have neighbours : ((first :: rest).map markOf).IsChain (· = ·) :=
    (List.isChain_map markOf).mpr
      ((List.isChain_of_mem_splitBy isRun).imp fun _ _ same => eq_of_beq same)
  rcases List.mem_cons.mp inside with rfl | later
  · rfl
  · exact (neighbours.rel_cons (List.mem_map_of_mem later)).symm

/-- No run holds the mark that it is quoted with. -/
theorem markOf_not_mem_of_mem_runs {text rest : List Char} {first : Char}
    (isRun : first :: rest ∈ runs text) : markOf first ∉ first :: rest := by
  intro inside
  have same := markOf_eq_of_mem_runs isRun inside
  exact markOf_ne _ same

theorem scan_region {mark : Char} {run : List Char} (free : mark ∉ run)
    (begun rest : List Char) :
    scan (some mark) begun (run ++ mark :: rest) = scan none (run.reverse ++ begun) rest := by
  induction run generalizing begun with
  | nil => simp [scan]
  | cons char run ih =>
      obtain ⟨other, restFree⟩ := List.ne_and_not_mem_of_not_mem_cons free
      rw [List.cons_append, scan, if_neg (Ne.symm other), ih restFree, List.reverse_cons,
        List.append_assoc, List.singleton_append]

theorem scan_quotedRun {run : List Char}
    (free : ∀ first rest, run = first :: rest → markOf first ∉ run) (begun rest : List Char) :
    scan none begun (quotedRun run ++ rest) = scan none (run.reverse ++ begun) rest := by
  cases run with
  | nil => rfl
  | cons first more =>
      have written : quotedRun (first :: more) ++ rest =
          markOf first :: ((first :: more) ++ markOf first :: rest) := by
        simp [quotedRun]
      rw [written, scan, if_pos (isQuoteMark_markOf first), scan_region (free first more rfl)]

theorem scan_quotedRuns {parts : List (List Char)}
    (free : ∀ first rest, first :: rest ∈ parts → markOf first ∉ first :: rest)
    (begun rest : List Char) :
    scan none begun (parts.flatMap quotedRun ++ rest) =
      scan none (parts.flatten.reverse ++ begun) rest := by
  induction parts generalizing begun with
  | nil => rfl
  | cons run parts ih =>
      have runFree : ∀ first more, run = first :: more → markOf first ∉ run := by
        rintro first more rfl
        exact free first more List.mem_cons_self
      have partsFree : ∀ first more, first :: more ∈ parts → markOf first ∉ first :: more :=
        fun first more member => free first more (List.mem_cons_of_mem _ member)
      rw [List.flatMap_cons, List.append_assoc, scan_quotedRun runFree, ih partsFree,
        List.flatten_cons, List.reverse_append, List.append_assoc]

/-- A quoted text only makes the token begun longer, by the text. -/
theorem scan_quoted (text : String) (begun rest : List Char) :
    scan none begun (quoted text ++ rest) = scan none (text.toList.reverse ++ begun) rest := by
  have free : ∀ first more, first :: more ∈ runs text.toList → markOf first ∉ first :: more :=
    fun _ _ => markOf_not_mem_of_mem_runs
  rw [quoted, scan_quotedRuns free, runs, List.flatten_splitBy]

end Regions

section Gaps

theorem scan_space (begun rest : List Char) :
    scan none begun (' ' :: rest) = (scan none [] rest).map (emit begun) := rfl

theorem scan_spaces (count : Nat) (rest : List Char) :
    scan none [] (List.replicate count ' ' ++ rest) = scan none [] rest := by
  induction count with
  | zero => rfl
  | succ count ih =>
      rw [List.replicate_succ, List.cons_append, scan_space, ih]
      exact congrFun Except.map_id _

theorem scan_gap {count : Nat} (positive : count ≠ 0) (begun rest : List Char) :
    scan none begun (List.replicate count ' ' ++ rest) =
      (scan none [] rest).map (emit begun) := by
  obtain ⟨fewer, rfl⟩ := Nat.exists_eq_succ_of_ne_zero positive
  rw [List.replicate_succ, List.cons_append, scan_space, scan_spaces]

end Gaps

theorem emit_reverse {word : String} (nonempty : word ≠ "") (words : List String) :
    emit word.toList.reverse words = word :: words := by
  simp [emit, nonempty]

theorem scan_written (argument : Argument) (rest : List Char) :
    scan none [] (argument.written ++ rest) = scan none argument.text.toList.reverse rest := by
  rw [Argument.written, List.append_assoc, scan_spaces, scan_quoted, List.append_nil]

theorem scan_written_of_gap {argument : Argument} (gapped : argument.gap ≠ 0)
    (begun rest : List Char) :
    scan none begun (argument.written ++ rest) =
      (scan none argument.text.toList.reverse rest).map (emit begun) := by
  rw [Argument.written, List.append_assoc, scan_gap gapped, scan_quoted, List.append_nil]

/-- With spaces in front of each, the arguments are what follows the token begun. -/
theorem scan_followed {arguments : List Argument}
    (nonempty : ∀ argument ∈ arguments, argument.text ≠ "")
    (gapped : ∀ argument ∈ arguments, argument.gap ≠ 0) (behind : Nat) (begun : List Char) :
    scan none begun (arguments.flatMap Argument.written ++ List.replicate behind ' ') =
      .ok (emit begun (arguments.map Argument.text)) := by
  induction arguments generalizing begun with
  | nil =>
      by_cases atEnd : behind = 0
      · rw [atEnd]
        rfl
      · rw [List.flatMap_nil, List.nil_append, ← List.append_nil (List.replicate behind ' '),
          scan_gap atEnd]
        rfl
  | cons argument rest ih =>
      have later := ih (fun other member => nonempty other (List.mem_cons_of_mem _ member))
        (fun other member => gapped other (List.mem_cons_of_mem _ member))
      rw [List.flatMap_cons, List.append_assoc,
        scan_written_of_gap (gapped argument List.mem_cons_self), later,
        emit_reverse (nonempty argument List.mem_cons_self)]
      rfl

theorem scan_typed {arguments : List Argument}
    (nonempty : ∀ argument ∈ arguments, argument.text ≠ "")
    (gapped : ∀ argument ∈ arguments.tail, argument.gap ≠ 0) (behind : Nat) :
    scan none [] (typed arguments behind).toList = .ok (arguments.map Argument.text) := by
  rw [typed, String.toList_ofList]
  cases arguments with
  | nil => exact scan_followed nonempty gapped behind []
  | cons first rest =>
      have later := scan_followed
        (fun other member => nonempty other (List.mem_cons_of_mem _ member)) gapped behind
      rw [List.flatMap_cons, List.append_assoc, scan_written, later,
        emit_reverse (nonempty first List.mem_cons_self), List.map_cons]

theorem tokens_typed {arguments : List Argument}
    (nonempty : ∀ argument ∈ arguments, argument.text ≠ "")
    (gapped : ∀ argument ∈ arguments.tail, argument.gap ≠ 0) {behind : Nat}
    (line : typed arguments behind ≠ "") :
    tokens (typed arguments behind) = .ok (arguments.map Argument.text) :=
  (tokens_eq_ok_iff line).mpr (scan_typed nonempty gapped behind)

theorem exists_line_of_not_mem {words : List String} (noneEmpty : "" ∉ words) :
    ∃ line, tokens line = .ok words := by
  let arguments := words.map (Argument.mk 1)
  have texts : arguments.map Argument.text = words := by simp [arguments, Function.comp_def]
  have nonempty : ∀ argument ∈ arguments, argument.text ≠ "" := by
    intro argument member empty
    exact noneEmpty (texts ▸ empty ▸ List.mem_map_of_mem member)
  have gapped : ∀ argument ∈ arguments.tail, argument.gap ≠ 0 := by
    intro argument member
    obtain ⟨word, -, rfl⟩ := List.mem_map.mp (List.mem_of_mem_tail member)
    exact Nat.one_ne_zero
  have line : typed arguments 1 ≠ "" := by
    rw [typed, ← String.toList_inj.ne, String.toList_ofList]
    simp
  have cut := tokens_typed nonempty gapped line
  rw [texts] at cut
  exact ⟨_, cut⟩

/-- The lists of words that can be typed at all. -/
theorem exists_line_iff {words : List String} :
    (∃ line, tokens line = .ok words) ↔ words = [""] ∨ "" ∉ words := by
  constructor
  · rintro ⟨line, cut⟩
    by_cases empty : line = ""
    · rw [tokens, if_pos empty] at cut
      exact .inl (Except.ok.inj cut).symm
    · exact .inr fun member => ne_empty_of_tokens empty cut "" member rfl
  · rintro (rfl | noneEmpty)
    · exact ⟨"", rfl⟩
    · exact exists_line_of_not_mem noneEmpty

/-- Arguments can be typed whatever they hold: a line of arguments in quotes, with at least one
space between any two of them, is cut into these arguments. -/
theorem arguments_are_read_back {arguments : List Argument} (present : arguments ≠ [])
    (nonempty : ∀ argument ∈ arguments, argument.text ≠ "")
    (gapped : ∀ argument ∈ arguments.tail, argument.gap ≠ 0) (behind : Nat) :
    tokens (typed arguments behind) = .ok (arguments.map Argument.text) := by
  refine tokens_typed nonempty gapped fun empty => ?_
  -- An empty line would be scanned without any token.
  have scanned := scan_typed nonempty gapped behind
  rw [empty] at scanned
  have texts : [] = arguments.map Argument.text := Except.ok.inj scanned
  exact present (List.map_eq_nil_iff.mp texts.symm)

/-- Arguments with both quote marks, an operator, a space and a line end. -/
def mixed : List Argument :=
  [⟨0, "it's \"a|b\" \n"⟩, ⟨1, "'"⟩, ⟨3, "''x"⟩]

theorem arguments_are_read_back_mixed :
    mixed ≠ [] ∧ (∀ argument ∈ mixed, argument.text ≠ "") ∧
      (∀ argument ∈ mixed.tail, argument.gap ≠ 0) ∧
      typed mixed 1 = "'it'\"'\"'s \"a|b\" \n' \"'\"   \"''\"'x' " ∧
      tokens (typed mixed 1) = .ok ["it's \"a|b\" \n", "'", "''x"] := by
  have present : mixed ≠ [] := by decide
  have nonempty : ∀ argument ∈ mixed, argument.text ≠ "" := by decide
  have gapped : ∀ argument ∈ mixed.tail, argument.gap ≠ 0 := by decide
  have line : typed mixed 1 = "'it'\"'\"'s \"a|b\" \n' \"'\"   \"''\"'x' " := by
    decide +kernel
  exact ⟨present, nonempty, gapped, line, arguments_are_read_back present nonempty gapped 1⟩

end CommandLine

end CommandShell
