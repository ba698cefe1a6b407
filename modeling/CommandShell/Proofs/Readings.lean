import CommandShell.CommandLine
import CommandShell.Lists

/-!
# Readings of command lines

A scan from the left gives every character of a command line its role: it delimits a
quoted region, stands in one, separates words, is an operator, or is ordinary.  The
roles say which lists of words are a reading of the line, without saying how words are
cut out of it.  Readings of the parts of a line make a reading of the whole where nothing
joins across the cut, and no line has more than one reading.
-/

namespace CommandShell

namespace CommandLine

/-- What a character does in a command line. -/
inductive Role where
  /-- Opens or closes a quoted region. -/
  | delimiter
  /-- Stands in a quoted region. -/
  | quoted
  | space
  | operator
  | ordinary
  deriving DecidableEq, Repr

namespace Role

/-- Whether characters of this role belong to words. -/
def isKept : Role → Bool
  | delimiter | space => false
  | quoted | operator | ordinary => true

/-- Whether characters of this role join with their neighbours. -/
def isText : Role → Bool
  | quoted | ordinary => true
  | delimiter | space | operator => false

end Role

/-- A character of a command line and its role. -/
structure Marked where
  char : Char
  role : Role
  deriving DecidableEq, Repr

/-- The role of a character, when the region opened by a mark is open before it. -/
def roleIn : Option Char → Char → Role
  | some mark, char => if char = mark then .delimiter else .quoted
  | none, char =>
      if char = '\'' ∨ char = '"' then .delimiter
      else if char = ' ' then .space
      else if char = '>' ∨ char = '|' then .operator
      else .ordinary

/-- The region that is open behind a character. -/
def regionBehind : Option Char → Char → Option Char
  | some mark, char => if char = mark then none else some mark
  | none, char => if char = '\'' ∨ char = '"' then some char else none

/-- The characters of a text with their roles. -/
def marked (region : Option Char) : List Char → List Marked
  | [] => []
  | char :: rest => ⟨char, roleIn region char⟩ :: marked (regionBehind region char) rest

/-- The region that is open at the end of a text. -/
def regionAtEnd (region : Option Char) (text : List Char) : Option Char :=
  text.foldl regionBehind region

/-- The characters that belong to words. -/
def kept (line : List Marked) : List Char :=
  (line.filter (·.role.isKept)).map Marked.char

/-- The characters of words, one word behind the other. -/
def joined (words : List String) : List Char :=
  words.flatMap String.toList

/-- Whether one of the words holds both the character at a position of the joined words
and the one behind it. -/
def SameWord (words : List String) (position : Nat) : Prop :=
  ∃ before word after, words = before ++ word :: after ∧
    (joined before).length ≤ position ∧
    position + 1 < (joined before).length + word.length

/-- Whether a list of words is what a line with these roles says. -/
structure IsReading (line : List Marked) (words : List String) : Prop where
  /-- The words hold the kept characters in their order, and nothing else. -/
  joined_eq : joined words = kept line
  /-- Every operator is a word by itself. -/
  operator : ∀ front mark back, line = front ++ mark :: back → mark.role = .operator →
    ∃ before after, words = before ++ mark.char.toString :: after ∧ joined before = kept front
  /-- Neighbouring characters of words stand in the same word unless there is a space
  between them. -/
  sameWord_iff : ∀ front first gap second back,
    line = front ++ first :: (gap ++ second :: back) →
    first.role.isText → second.role.isText → kept gap = [] →
    (SameWord words (kept front).length ↔ ∀ mark ∈ gap, mark.role ≠ .space)
  nonempty : ∀ word ∈ words, word ≠ ""

@[simp]
theorem kept_nil : kept [] = [] := rfl

@[simp]
theorem kept_append (front back : List Marked) :
    kept (front ++ back) = kept front ++ kept back := by
  simp [kept]

theorem kept_cons (mark : Marked) (rest : List Marked) :
    kept (mark :: rest) = if mark.role.isKept then mark.char :: kept rest else kept rest := by
  unfold kept
  rw [List.filter_cons]
  split <;> rfl

theorem kept_cons_of_isText {mark : Marked} (isText : mark.role.isText) (rest : List Marked) :
    kept (mark :: rest) = mark.char :: kept rest := by
  rw [kept_cons, if_pos]
  revert isText
  cases mark.role <;> simp [Role.isText, Role.isKept]

@[simp]
theorem joined_nil : joined [] = [] := rfl

@[simp]
theorem joined_cons (word : String) (rest : List String) :
    joined (word :: rest) = word.toList ++ joined rest := by
  simp [joined]

@[simp]
theorem joined_append (front back : List String) :
    joined (front ++ back) = joined front ++ joined back := by
  simp [joined]

theorem SameWord.lt {words : List String} {position : Nat} (same : SameWord words position) :
    position + 1 < (joined words).length := by
  obtain ⟨before, word, after, rfl, _, below⟩ := same
  simp only [joined_append, joined_cons, List.length_append, String.length_toList]
  omega

theorem sameWord_append {front back : List String} {position : Nat} :
    SameWord (front ++ back) position ↔
      SameWord front position ∨
        (joined front).length ≤ position ∧
          SameWord back (position - (joined front).length) := by
  constructor
  · rintro ⟨before, word, after, split, above, below⟩
    rcases List.append_eq_append_iff.mp split with ⟨skipped, rfl, rfl⟩ | ⟨inside, rfl, rest⟩
    · simp only [joined_append, List.length_append] at above below
      exact .inr ⟨by omega, skipped, word, after, rfl, by omega, by omega⟩
    · rcases List.cons_eq_append_iff.mp rest with ⟨rfl, rfl⟩ | ⟨more, rfl, rfl⟩
      · rw [List.append_nil]
        exact .inr ⟨above, [], word, after, rfl, by simp, by simpa using by omega⟩
      · exact .inl ⟨before, word, more, rfl, above, below⟩
  · rintro (⟨before, word, after, rfl, above, below⟩ |
      ⟨past, before, word, after, rfl, above, below⟩)
    · exact ⟨before, word, after ++ back, by simp, above, below⟩
    · refine ⟨front ++ before, word, after, by simp, ?_, ?_⟩ <;>
        simp only [joined_append, List.length_append] <;> omega

/-- Whether a space or an operator keeps the texts on both sides of a cut apart. -/
def Apart (left right : List Marked) : Prop :=
  ∀ front first skipped ahead second back,
    left = front ++ first :: skipped → right = ahead ++ second :: back →
    first.role.isText → second.role.isText → kept skipped = [] → kept ahead = [] →
    ∃ mark ∈ skipped ++ ahead, mark.role = .space

namespace IsReading

variable {left right : List Marked} {words more : List String}

/-- Readings of two parts of a line make a reading of the whole, if nothing joins across
the cut. -/
theorem append (first : IsReading left words) (second : IsReading right more)
    (apart : Apart left right) : IsReading (left ++ right) (words ++ more) where
  joined_eq := by rw [joined_append, kept_append, first.joined_eq, second.joined_eq]
  operator := by
    intro front mark back split isOperator
    rcases List.cases_of_append_eq_append_cons split with ⟨skipped, rfl, found⟩ | ⟨rest, found, rfl⟩
    · obtain ⟨before, after, rfl, same⟩ := second.operator skipped mark back found isOperator
      exact ⟨words ++ before, after, by simp, by simp [same, first.joined_eq]⟩
    · obtain ⟨before, after, rfl, same⟩ := first.operator front mark rest found isOperator
      exact ⟨before, after ++ more, by simp, same⟩
  sameWord_iff := by
    intro front near gap far back split nearText farText between
    have boundary : (joined words).length = (kept left).length := by rw [first.joined_eq]
    rw [sameWord_append, boundary]
    rcases List.cases_of_append_eq_append_cons split with ⟨skipped, rfl, found⟩ | ⟨rest, found, tail⟩
    · -- Both characters lie behind the cut.
      have behind := second.sameWord_iff skipped near gap far back found nearText farText between
      have notBefore : ¬ SameWord words (kept (left ++ skipped)).length := by
        intro same
        have := same.lt
        simp only [kept_append, List.length_append] at this
        omega
      rw [or_iff_right notBefore]
      simpa using behind
    have upTo : (kept left).length = (kept front).length + 1 + (kept rest).length := by
      rw [found, kept_append, kept_cons_of_isText nearText, List.length_append,
        List.length_cons]
      omega
    rw [or_iff_left (by omega)]
    rcases List.cases_of_append_eq_append_cons tail.symm with ⟨ahead, rfl, found'⟩ | ⟨inner, rfl, rfl⟩
    · -- The cut lies between the characters, so no word holds both of them.
      rw [kept_append, List.append_eq_nil_iff] at between
      obtain ⟨space, member, isSpace⟩ :=
        apart front near rest ahead far back found found' nearText farText between.1 between.2
      rw [between.1, List.length_nil] at upTo
      refine iff_of_false (fun same => ?_) fun none => none space member isSpace
      have := same.lt
      omega
    · exact first.sameWord_iff front near gap far inner found nearText farText between
  nonempty := by
    intro word member
    rcases List.mem_append.mp member with earlier | later
    · exact first.nonempty word earlier
    · exact second.nonempty word later

/-- Characters that are neither spaces nor operators make one word, or none if there is
nothing to keep. -/
theorem of_plain {begun : List Char}
    (plain : ∀ mark ∈ left, mark.role ≠ .space ∧ mark.role ≠ .operator)
    (same : kept left = begun.reverse) : IsReading left (emit begun []) where
  joined_eq := by
    unfold emit
    split
    next none => simp [same, none]
    next => simp [same]
  operator := by
    rintro front mark back rfl isOperator
    exact absurd isOperator (plain mark (by simp)).2
  sameWord_iff := by
    rintro front first gap second back rfl firstText secondText between
    have size : (kept front).length + 1 < begun.length := by
      have := congrArg List.length same
      simp only [kept_append, kept_cons_of_isText firstText, kept_cons_of_isText secondText,
        between, List.length_append, List.length_cons, List.length_reverse] at this
      omega
    have present : begun ≠ [] := List.ne_nil_of_length_pos (by omega)
    refine iff_of_true ?_ fun mark member => (plain mark (by simp [member])).1
    rw [emit, if_neg present]
    exact ⟨[], _, [], rfl, by simp, by simpa using size⟩
  nonempty := by
    unfold emit
    split
    next => simp
    next present => simpa using present

/-- The reading of a character that does not join with others. -/
theorem singleton {mark : Marked} (notText : ¬ mark.role.isText)
    (joined_eq : joined words = kept [mark])
    (operator : mark.role = .operator → words = [mark.char.toString])
    (nonempty : ∀ word ∈ words, word ≠ "") : IsReading [mark] words where
  joined_eq := joined_eq
  operator := by
    intro front other back split isOperator
    obtain ⟨rfl, rfl, -⟩ := List.singleton_eq_append_cons_iff.mp split
    exact ⟨[], [], operator isOperator, rfl⟩
  sameWord_iff := by
    intro front near gap far back split nearText
    obtain ⟨-, rfl, -⟩ := List.singleton_eq_append_cons_iff.mp split
    exact absurd nearText notText
  nonempty := nonempty

theorem of_space {mark : Marked} (isSpace : mark.role = .space) : IsReading [mark] [] := by
  apply singleton <;> simp [isSpace, kept, Role.isText, Role.isKept]

theorem of_operator {mark : Marked} (isOperator : mark.role = .operator) :
    IsReading [mark] [mark.char.toString] := by
  apply singleton <;> simp [isOperator, kept, Role.isText, Role.isKept, Char.toString]

/-- A space or an operator ends the word before it. -/
theorem append_cons {mark : Marked} (separates : mark.role = .space ∨ mark.role = .operator)
    (first : IsReading left words) {here : List String} (single : IsReading [mark] here)
    (second : IsReading right more) :
    IsReading (left ++ mark :: right) (words ++ (here ++ more)) := by
  have notText : ¬ mark.role.isText := by
    rcases separates with isSpace | isOperator
    · simp [isSpace, Role.isText]
    · simp [isOperator, Role.isText]
  have apartBehind : Apart [mark] right := by
    intro front near skipped ahead far back found _ nearText
    obtain ⟨-, rfl, -⟩ := List.singleton_eq_append_cons_iff.mp found
    exact absurd nearText notText
  refine first.append (single.append second apartBehind) ?_
  intro front near skipped ahead far back _ found _ farText _ aheadDropped
  cases ahead with
  | nil => exact absurd ((List.cons.inj found).1 ▸ farText) notText
  | cons next rest =>
      obtain rfl : mark = next := (List.cons.inj found).1
      rcases separates with isSpace | isOperator
      · exact ⟨mark, by simp, isSpace⟩
      · simp [kept_cons, isOperator, Role.isKept] at aheadDropped

end IsReading

section Uniqueness

theorem sameWord_cons {word : String} {rest : List String} {position : Nat} :
    SameWord (word :: rest) position ↔
      position + 1 < word.length ∨
        word.length ≤ position ∧ SameWord rest (position - word.length) := by
  have single : SameWord [word] position ↔ position + 1 < word.length := by
    constructor
    · intro same
      simpa [String.length_toList] using same.lt
    · intro below
      exact ⟨[], word, [], rfl, by simp, by simpa using below⟩
  have split : SameWord ([word] ++ rest) position ↔ _ := sameWord_append
  rw [single] at split
  simpa [String.length_toList] using split

/-- No word holds characters from both sides of a cut between words. -/
theorem not_sameWord_of_cut {before after : List String} {position : Nat}
    (cut : (joined before).length = position + 1) : ¬ SameWord (before ++ after) position := by
  rw [sameWord_append]
  rintro (same | ⟨past, -⟩)
  · have := same.lt
    omega
  · omega

theorem head_length_le {word other : String} {rest others : List String} (present : word ≠ "")
    (agree : ∀ position,
      SameWord (other :: others) position → SameWord (word :: rest) position) :
    other.length ≤ word.length := by
  refine Nat.le_of_not_lt fun longer => ?_
  have size : word.length ≠ 0 := fun none => present (String.length_eq_zero_iff.mp none)
  have same : SameWord (other :: others) (word.length - 1) :=
    sameWord_cons.mpr (.inl (by omega))
  rcases sameWord_cons.mp (agree _ same) with below | ⟨past, -⟩ <;> omega

/-- Words are determined by their characters and by which neighbours share a word. -/
theorem eq_of_sameWord_iff {words others : List String} (text : joined words = joined others)
    (nonempty : ∀ word ∈ words, word ≠ "") (othersNonempty : ∀ word ∈ others, word ≠ "")
    (agree : ∀ position, SameWord words position ↔ SameWord others position) :
    words = others := by
  induction words generalizing others with
  | nil =>
      cases others with
      | nil => rfl
      | cons other others =>
          have := othersNonempty other List.mem_cons_self
          simp_all
  | cons word rest ih =>
      cases others with
      | nil =>
          have := nonempty word List.mem_cons_self
          simp_all
      | cons other others =>
          have size : word.length = other.length :=
            Nat.le_antisymm
              (head_length_le (othersNonempty other List.mem_cons_self) fun _ => (agree _).mp)
              (head_length_le (nonempty word List.mem_cons_self) fun _ => (agree _).mpr)
          rw [joined_cons, joined_cons] at text
          obtain ⟨heads, tails⟩ :=
            List.append_inj text (by simpa [String.length_toList] using size)
          obtain rfl : word = other := String.toList_inj.mp heads
          congr 1
          apply ih tails (fun member inside => nonempty member (List.mem_cons_of_mem _ inside))
            fun member inside => othersNonempty member (List.mem_cons_of_mem _ inside)
          intro position
          have shifted := agree (position + word.length)
          rw [sameWord_cons, sameWord_cons, Nat.add_sub_cancel] at shifted
          have notInside : ¬ position + word.length + 1 < word.length := by omega
          simpa [notInside] using shifted

theorem isText_or_eq_operator {role : Role} (isKept : role.isKept) :
    role.isText ∨ role = .operator := by
  cases role <;> simp_all [Role.isKept, Role.isText]

/-- A position among the kept characters is the place of one of them in the line. -/
theorem exists_kept_at {line : List Marked} {position : Nat}
    (below : position < (kept line).length) :
    ∃ front mark back, line = front ++ mark :: back ∧ mark.role.isKept ∧
      (kept front).length = position := by
  induction line generalizing position with
  | nil => simp at below
  | cons first rest ih =>
      by_cases isKept : first.role.isKept
      · rw [kept_cons, if_pos isKept, List.length_cons] at below
        cases position with
        | zero => exact ⟨[], first, rest, rfl, isKept, rfl⟩
        | succ earlier =>
            obtain ⟨front, mark, back, rfl, markKept, size⟩ := ih (Nat.lt_of_succ_lt_succ below)
            exact ⟨first :: front, mark, back, rfl, markKept, by simp [kept_cons, isKept, size]⟩
      · rw [kept_cons, if_neg isKept] at below
        obtain ⟨front, mark, back, rfl, markKept, size⟩ := ih below
        exact ⟨first :: front, mark, back, rfl, markKept, by simp [kept_cons, isKept, size]⟩

namespace IsReading

variable {line : List Marked} {words others : List String}

/-- Operators share their word with no neighbour, so two readings put the same characters
together. -/
theorem sameWord_imp (reading : IsReading line words) (other : IsReading line others)
    {position : Nat} (same : SameWord words position) : SameWord others position := by
  have below : position + 1 < (kept line).length := reading.joined_eq ▸ same.lt
  obtain ⟨front, first, behind, rfl, firstKept, place⟩ :=
    exists_kept_at (Nat.lt_of_succ_lt below)
  have more : 0 < (kept behind).length := by
    simp only [kept_append, kept_cons, firstKept, if_true, List.length_append,
      List.length_cons] at below
    omega
  obtain ⟨gap, second, back, rfl, secondKept, between⟩ := exists_kept_at more
  rw [List.length_eq_zero_iff] at between
  rcases isText_or_eq_operator firstKept with firstText | isOperator
  · rcases isText_or_eq_operator secondKept with secondText | isOperator
    · have agreed := (reading.sameWord_iff front first gap second back rfl firstText secondText
        between).trans (other.sameWord_iff front first gap second back rfl firstText secondText
          between).symm
      exact place ▸ agreed.mp (place ▸ same)
    · obtain ⟨before, after, rfl, here⟩ :=
        reading.operator (front ++ first :: gap) second back (by simp) isOperator
      refine absurd same (not_sameWord_of_cut ?_)
      simp [here, kept_cons, firstKept, between, place]
  · obtain ⟨before, after, rfl, here⟩ := reading.operator front first _ rfl isOperator
    rw [List.append_cons] at same
    refine absurd same (not_sameWord_of_cut ?_)
    simp [here, place, Char.toString]

/-- A line has at most one reading. -/
theorem unique (reading : IsReading line words) (other : IsReading line others) :
    words = others :=
  eq_of_sameWord_iff (reading.joined_eq.trans other.joined_eq.symm) reading.nonempty
    other.nonempty fun _ => ⟨reading.sameWord_imp other, other.sameWord_imp reading⟩

end IsReading

end Uniqueness

end CommandLine

end CommandShell
