import CommandShell.Proofs.Tokens

/-!
# Command lines are put together at separators

A space or an operator outside quotes ends whatever stands in front of it.  Where the front part
of a line leaves no quoted region open, nothing is carried across the separator: the tokens of
the line are those of the front part, the operator if it is one, and the tokens of the rest.
-/

namespace CommandShell

namespace CommandLine

/-- Whether the character ends a token wherever it stands outside quotes. -/
def IsSeparator (char : Char) : Prop :=
  char = ' ' ∨ char = '>' ∨ char = '|'

/-- The tokens that a separator itself makes. -/
def ownTokens (separator : Char) : List String :=
  if separator = ' ' then [] else [separator.toString]

theorem emit_append (begun : List Char) (front back : List String) :
    emit begun (front ++ back) = emit begun front ++ back := by
  rw [emit_eq_append, emit_eq_append begun front, List.append_assoc]

theorem scan_separator {separator : Char} (separates : IsSeparator separator)
    (begun back : List Char) :
    scan none begun (separator :: back) =
      (scan none [] back).map ((emit begun [] ++ ownTokens separator) ++ ·) := by
  simp only [← emit_append, List.nil_append]
  rcases separates with rfl | rfl | rfl
  · rfl
  · rfl
  · rfl

/-- What the scan finds in front of a separator does not depend on what comes behind it, and
behind the separator the scan begins anew. -/
theorem scan_append_separator {region : Option Char} {begun front : List Char}
    {words : List String} (scanned : scan region begun front = .ok words) {separator : Char}
    (separates : IsSeparator separator) (back : List Char) :
    scan region begun (front ++ separator :: back) =
      (scan none [] back).map ((words ++ ownTokens separator) ++ ·) := by
  induction front generalizing region begun words with
  | nil =>
      cases region with
      | some mark => cases scanned
      | none =>
          cases scanned
          exact scan_separator separates begun back
  | cons char rest ih =>
      rw [scan_cons] at scanned
      rw [List.cons_append, scan_cons]
      cases role : roleIn region char with
      | delimiter | quoted | ordinary =>
          simp only [role] at scanned ⊢
          exact ih scanned
      | space | operator =>
          simp only [role] at scanned ⊢
          obtain ⟨later, found, rfl⟩ := Except.map_eq_ok_iff.mp scanned
          rw [ih found, Except.map_map]
          congr 1
          funext more
          simp only [Function.comp_apply, ← List.cons_append, emit_append]

section Lines

variable {left right : String} (leftNonempty : left ≠ "") (rightNonempty : right ≠ "")
  {first : List String} (cut : tokens left = .ok first)

include leftNonempty rightNonempty cut

theorem tokens_append_separator {separator : Char} (separates : IsSeparator separator) :
    tokens (left ++ separator.toString ++ right) =
      (tokens right).map ((first ++ ownTokens separator) ++ ·) := by
  have characters : (left ++ separator.toString ++ right).toList =
      left.toList ++ separator :: right.toList := by
    simp [Char.toString]
  have nonempty : left ++ separator.toString ++ right ≠ "" := by
    intro empty
    rw [empty] at characters
    simp at characters
  have scanned := (tokens_eq_ok_iff leftNonempty).mp cut
  rw [tokens_of_nonempty nonempty, tokens_of_nonempty rightNonempty, characters,
    scan_append_separator scanned separates]
  cases scan none [] right.toList <;> rfl

theorem tokens_append_space :
    tokens (left ++ " " ++ right) = (tokens right).map (first ++ ·) := by
  have written : ' '.toString = " " := rfl
  have composed := tokens_append_separator leftNonempty rightNonempty cut (.inl rfl)
  rwa [written, ownTokens, if_pos rfl, List.append_nil] at composed

theorem tokens_append_operator {operator : String} (isOperator : operator ∈ [">", "|"]) :
    tokens (left ++ operator ++ right) = (tokens right).map ((first ++ [operator]) ++ ·) := by
  obtain ⟨separator, separates, isOwn, rfl⟩ : ∃ separator, IsSeparator separator ∧
      ownTokens separator = [separator.toString] ∧ separator.toString = operator := by
    simp only [List.mem_cons, List.not_mem_nil, or_false] at isOperator
    rcases isOperator with rfl | rfl
    · exact ⟨'>', .inr (.inl rfl), rfl, rfl⟩
    · exact ⟨'|', .inr (.inr rfl), rfl, rfl⟩
  rw [tokens_append_separator leftNonempty rightNonempty cut separates, isOwn]

end Lines

/-- A command line is cut into tokens part by part.  If a part has been cut at all, then what
comes behind a space or an operator is cut as if it stood alone, and fails as if it stood
alone. -/
theorem tokens_compose_at_separators {left right : String} (leftNonempty : left ≠ "")
    (rightNonempty : right ≠ "") {first : List String} (cut : tokens left = .ok first) :
    (∀ second, tokens right = .ok second →
      tokens (left ++ " " ++ right) = .ok (first ++ second) ∧
      ∀ operator ∈ [">", "|"],
        tokens (left ++ operator ++ right) = .ok (first ++ [operator] ++ second)) ∧
    ∀ mark, tokens right = .error (.unterminatedQuote mark) →
      ∀ separator ∈ [" ", ">", "|"],
        tokens (left ++ separator ++ right) = .error (.unterminatedQuote mark) := by
  have atSpace := tokens_append_space leftNonempty rightNonempty cut
  constructor
  · intro second succeeded
    constructor
    · rw [atSpace, succeeded]
      rfl
    · intro operator isOperator
      rw [tokens_append_operator leftNonempty rightNonempty cut isOperator, succeeded]
      rfl
  · intro mark failed separator member
    rcases List.mem_cons.mp member with rfl | isOperator
    · rw [atSpace, failed]
      rfl
    · rw [tokens_append_operator leftNonempty rightNonempty cut isOperator, failed]
      rfl

/-- A line in which a quoted operator is glued to a quoted space. -/
def sealedLine : String := "ls '> x'\" \""

theorem tokens_compose_at_separators_sealed :
    sealedLine ≠ "" ∧ tokens sealedLine = .ok ["ls", "> x "] ∧
      tokens "a>b" = .ok ["a", ">", "b"] ∧
      tokens (sealedLine ++ " " ++ "a>b") = .ok ["ls", "> x ", "a", ">", "b"] ∧
      tokens (sealedLine ++ "|" ++ "a>b") = .ok ["ls", "> x ", "|", "a", ">", "b"] ∧
      tokens "a 'b" = .error (.unterminatedQuote '\'') ∧
      tokens (sealedLine ++ ">" ++ "a 'b") = .error (.unterminatedQuote '\'') := by
  have nonempty : sealedLine ≠ "" := by decide
  have cut : tokens sealedLine = .ok ["ls", "> x "] := by rfl
  have found : tokens "a>b" = .ok ["a", ">", "b"] := by rfl
  have failed : tokens "a 'b" = .error (.unterminatedQuote '\'') := by rfl
  obtain ⟨atSpace, atOperator⟩ :=
    (tokens_compose_at_separators nonempty (by decide) cut).1 _ found
  have fails := (tokens_compose_at_separators nonempty (by decide) cut).2 _ failed
  exact ⟨nonempty, cut, found, atSpace, atOperator "|" (by simp), failed, fails ">" (by simp)⟩

end CommandLine

end CommandShell
