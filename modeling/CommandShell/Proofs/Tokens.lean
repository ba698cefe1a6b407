import CommandShell.Proofs.Readings

/-!
# Tokens are readings

The scan that cuts a command line into tokens looks at a character only through its role.
The tokens of a line are therefore its reading, and a line that is not empty has no tokens
exactly when it ends in a quoted region.
-/

namespace Except

variable {ε α β γ : Type} {change : α → β} {outcome : Except ε α}

theorem map_map (more : β → γ) : (outcome.map change).map more = outcome.map (more ∘ change) := by
  cases outcome <;> rfl

theorem map_eq_error_iff {failure : ε} :
    outcome.map change = .error failure ↔ outcome = .error failure := by
  cases outcome <;> simp [Except.map]

theorem map_eq_ok_iff {result : β} :
    outcome.map change = .ok result ↔ ∃ value, outcome = .ok value ∧ change value = result := by
  cases outcome <;> simp [Except.map]

end Except

namespace CommandShell

namespace CommandLine

theorem emit_eq_append (begun : List Char) (words : List String) :
    emit begun words = emit begun [] ++ words := by
  unfold emit
  split <;> rfl

/-- What the scan does with a character depends on its role alone. -/
theorem scan_cons (region : Option Char) (begun : List Char) (char : Char) (rest : List Char) :
    scan region begun (char :: rest) =
      match roleIn region char with
      | .delimiter => scan (regionBehind region char) begun rest
      | .quoted | .ordinary => scan (regionBehind region char) (char :: begun) rest
      | .space => (scan (regionBehind region char) [] rest).map (emit begun)
      | .operator => (scan (regionBehind region char) [] rest).map
          fun tokens => emit begun (char.toString :: tokens) := by
  cases region with
  | some mark =>
      by_cases closes : char = mark <;> simp [scan, roleIn, regionBehind, closes]
  | none =>
      by_cases opens : char = '\'' ∨ char = '"'
      · simp [scan, roleIn, regionBehind, isQuoteMark, opens]
      by_cases isSpace : char = ' '
      · simp [scan, roleIn, regionBehind, isQuoteMark, isSpace]
      by_cases operates : char = '>' ∨ char = '|'
      · simp [scan, roleIn, regionBehind, isQuoteMark, isOperator, opens, isSpace, operates]
      · simp [scan, roleIn, regionBehind, isQuoteMark, isOperator, opens, isSpace, operates]

/-- What the scan finds is a reading of the word begun and the characters ahead. -/
theorem isReading_scan {region : Option Char} {begun text : List Char} {words : List String}
    (scanned : scan region begun text = .ok words) {front : List Marked}
    (plain : ∀ mark ∈ front, mark.role ≠ .space ∧ mark.role ≠ .operator)
    (same : kept front = begun.reverse) :
    IsReading (front ++ marked region text) words := by
  induction text generalizing region begun words front with
  | nil =>
      cases region with
      | some mark => cases scanned
      | none =>
          cases scanned
          simpa [marked] using IsReading.of_plain plain same
  | cons char rest ih =>
      -- A character that separates nothing only makes the word begun longer.
      have continued {longer : List Char}
          (isPlain : roleIn region char ≠ .space ∧ roleIn region char ≠ .operator)
          (grown : kept (front ++ [⟨char, roleIn region char⟩]) = longer.reverse)
          (later : scan (regionBehind region char) longer rest = .ok words) :
          IsReading (front ++ marked region (char :: rest)) words := by
        rw [marked, List.append_cons]
        refine ih later (fun mark member => ?_) grown
        rcases List.mem_append.mp member with earlier | here
        · exact plain mark earlier
        · exact List.mem_singleton.mp here ▸ isPlain
      have separated {here : List String}
          (separates : roleIn region char = .space ∨ roleIn region char = .operator)
          (single : IsReading [⟨char, roleIn region char⟩] here)
          (later : (scan (regionBehind region char) [] rest).map
            (fun tokens => emit begun (here ++ tokens)) = .ok words) :
          IsReading (front ++ marked region (char :: rest)) words := by
        obtain ⟨tokens, found, rfl⟩ := Except.map_eq_ok_iff.mp later
        rw [emit_eq_append]
        have behind : IsReading ([] ++ _) tokens := ih found (by simp) rfl
        exact .append_cons separates (.of_plain plain same) single behind
      rw [scan_cons] at scanned
      cases role : roleIn region char with
      | delimiter =>
          simp only [role] at scanned
          exact continued (by simp [role]) (by simp [kept_cons, role, Role.isKept, same]) scanned
      | quoted | ordinary =>
          simp only [role] at scanned
          exact continued (by simp [role]) (by simp [kept_cons, role, Role.isKept, same]) scanned
      | space =>
          simp only [role] at scanned
          exact separated (.inl role) (.of_space role) scanned
      | operator =>
          simp only [role] at scanned
          exact separated (.inr role) (.of_operator role) scanned

/-- The scan fails exactly when the text ends in a quoted region. -/
theorem scan_eq_error_iff {region : Option Char} {begun text : List Char} {mark : Char} :
    scan region begun text = .error mark ↔ regionAtEnd region text = some mark := by
  induction text generalizing region begun with
  | nil => cases region <;> simp [scan, regionAtEnd]
  | cons char rest ih =>
      have next : regionAtEnd region (char :: rest) =
          regionAtEnd (regionBehind region char) rest := rfl
      rw [scan_cons, next]
      cases roleIn region char with
      | delimiter => exact ih
      | quoted | ordinary => exact ih
      | space => exact Except.map_eq_error_iff.trans ih
      | operator => exact Except.map_eq_error_iff.trans ih

section Lines

variable {line : String} (nonempty : line ≠ "")

include nonempty

theorem tokens_of_nonempty :
    tokens line = (scan none [] line.toList).mapError .unterminatedQuote := by
  rw [tokens, if_neg nonempty]

theorem tokens_eq_ok_iff {words : List String} :
    tokens line = .ok words ↔ scan none [] line.toList = .ok words := by
  rw [tokens_of_nonempty nonempty]
  cases scan none [] line.toList with
  | error mark => exact iff_of_false nofun nofun
  | ok found =>
      constructor <;> rintro ⟨⟩ <;> rfl

theorem tokens_eq_error_iff {failure : Failure} :
    tokens line = .error failure ↔
      ∃ mark, scan none [] line.toList = .error mark ∧ failure = .unterminatedQuote mark := by
  rw [tokens_of_nonempty nonempty]
  cases scan none [] line.toList with
  | ok found => exact iff_of_false nofun nofun
  | error mark =>
      constructor
      · rintro ⟨⟩
        exact ⟨mark, rfl, rfl⟩
      · rintro ⟨_, ⟨⟩, rfl⟩
        rfl

theorem isReading_of_tokens {words : List String} (cut : tokens line = .ok words) :
    IsReading (marked none line.toList) words := by
  have scanned := (tokens_eq_ok_iff nonempty).mp cut
  have reading : IsReading ([] ++ marked none line.toList) words :=
    isReading_scan scanned (by simp) rfl
  exact reading

/-- No line but the empty one has an empty word. -/
theorem ne_empty_of_tokens {words : List String} (cut : tokens line = .ok words) :
    ∀ word ∈ words, word ≠ "" :=
  (isReading_of_tokens nonempty cut).nonempty

end Lines

/-- A line that is not empty has no tokens exactly when it ends in a quoted region, and
then the region is named.  Any other line has one reading, and its tokens are this
reading. -/
theorem tokens_are_reading {line : String} (nonempty : line ≠ "") :
    (∀ mark, tokens line = .error (.unterminatedQuote mark) ↔
      regionAtEnd none line.toList = some mark) ∧
    (regionAtEnd none line.toList = none →
      ∃ words, tokens line = .ok words ∧ IsReading (marked none line.toList) words ∧
        ∀ others, IsReading (marked none line.toList) others → others = words) := by
  have outcome : tokens line = (scan none [] line.toList).mapError .unterminatedQuote := by
    rw [tokens, if_neg nonempty]
  cases scanned : scan none [] line.toList with
  | error mark =>
      have fails : tokens line = .error (.unterminatedQuote mark) := by
        rw [outcome, scanned]
        rfl
      rw [fails, scan_eq_error_iff.mp scanned]
      exact ⟨fun mark => by simp, fun none => nomatch none⟩
  | ok words =>
      have succeeds : tokens line = .ok words := by
        rw [outcome, scanned]
        rfl
      have ending (mark : Char) : regionAtEnd none line.toList ≠ some mark := by
        intro unterminated
        rw [scan_eq_error_iff.mpr unterminated] at scanned
        cases scanned
      have reading : IsReading ([] ++ marked none line.toList) words :=
        isReading_scan scanned (by simp) rfl
      rw [succeeds]
      refine ⟨fun mark => iff_of_false nofun (ending mark), fun _ => ?_⟩
      exact ⟨words, rfl, reading, fun others other => other.unique reading⟩

/-- A line with quoted regions next to other text, an empty region, and operators without
spaces around them. -/
def gluedLine : String := "a'b \"c'>d  \"\" |e"

theorem tokens_are_reading_gluedLine :
    gluedLine ≠ "" ∧ regionAtEnd none gluedLine.toList = none ∧
      tokens gluedLine = .ok ["ab \"c", ">", "d", "|", "e"] ∧
      IsReading (marked none gluedLine.toList) ["ab \"c", ">", "d", "|", "e"] ∧
      tokens (gluedLine ++ "'f") = .error (.unterminatedQuote '\'') := by
  have nonempty : gluedLine ≠ "" := by decide
  have terminated : regionAtEnd none gluedLine.toList = none := by decide
  have evaluated : tokens gluedLine = .ok ["ab \"c", ">", "d", "|", "e"] := by rfl
  obtain ⟨words, found, reading, -⟩ := (tokens_are_reading nonempty).2 terminated
  obtain rfl : words = _ := Except.ok.inj (found.symm.trans evaluated)
  have longer : gluedLine ++ "'f" ≠ "" := by decide
  have fails := ((tokens_are_reading longer).1 '\'').mpr (by decide)
  exact ⟨nonempty, terminated, found, reading, fails⟩

end CommandLine

end CommandShell
