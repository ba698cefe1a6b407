import CommandShell.Console
import CommandShell.Lists

/-!
# The lines of an encoded text

A console cuts its input into lines before it decodes them.  That makes no difference: the
bytes of a line end and of a carriage return occur in the encoding of no other character.  So
if the input is the encoding of a text, its lines are those of the text.
-/

namespace String

theorem utf8EncodeChar_of_lt {char : Char} (ascii : char.toNat < 128) :
    utf8EncodeChar char = [UInt8.ofNat char.toNat] :=
  if_pos (Nat.le_of_lt_succ ascii)

theorem le_of_mem_utf8EncodeChar {char : Char} (wide : 128 ≤ char.toNat) {byte : UInt8}
    (member : byte ∈ utf8EncodeChar char) : 128 ≤ byte.toNat := by
  have notAscii : ¬ char.val.toNat ≤ 127 := Nat.not_le_of_lt wide
  unfold utf8EncodeChar at member
  dsimp only at member
  rw [if_neg notAscii] at member
  -- In the longer encodings every byte has its highest bit set.
  split at member
  · simp only [List.mem_cons, List.not_mem_nil, or_false] at member
    rcases member with rfl | rfl <;> simp only [UInt8.toNat_ofNat'] <;> omega
  · split at member
    · simp only [List.mem_cons, List.not_mem_nil, or_false] at member
      rcases member with rfl | rfl | rfl <;> simp only [UInt8.toNat_ofNat'] <;> omega
    · simp only [List.mem_cons, List.not_mem_nil, or_false] at member
      rcases member with rfl | rfl | rfl | rfl <;> simp only [UInt8.toNat_ofNat'] <;> omega

/-- The byte of a small character occurs in the encoding of no other one. -/
theorem mem_utf8EncodeChar_iff {char ascii : Char} (small : ascii.toNat < 128) :
    UInt8.ofNat ascii.toNat ∈ utf8EncodeChar char ↔ char = ascii := by
  have value : (UInt8.ofNat ascii.toNat).toNat = ascii.toNat := by
    rw [UInt8.toNat_ofNat']
    omega
  constructor
  · intro member
    by_cases wide : 128 ≤ char.toNat
    · have bound := le_of_mem_utf8EncodeChar wide member
      omega
    · have charSmall : char.toNat < 128 := Nat.lt_of_not_le wide
      rw [utf8EncodeChar_of_lt charSmall, List.mem_singleton] at member
      have same := congrArg UInt8.toNat member
      rw [value, UInt8.toNat_ofNat'] at same
      refine Char.toNat_inj.mp ?_
      omega
  · rintro rfl
    rw [utf8EncodeChar_of_lt small]
    exact List.mem_singleton_self _

end String

namespace CommandShell

/-- The lines of a text, as an output has them that holds the text. -/
def linesOf (text : String) : List String :=
  Output.lines { text, epoch := 0 }

theorem lineEnd_not_mem_of_mem_linesOf {text line : String} (member : line ∈ linesOf text) :
    '\n' ∉ line.toList := by
  obtain ⟨chars, inside, rfl⟩ := List.mem_map.mp member
  rw [String.toList_ofList]
  rcases List.mem_append.mp inside with ended | unended
  · obtain ⟨piece, isPiece, rfl⟩ := List.mem_map.mp ended
    obtain ⟨-, plain⟩ :=
      List.infix_and_not_mem_of_mem_splitOn ((List.dropLast_sublist _).subset isPiece)
    unfold Output.dropReturn
    split
    · exact fun within => plain ((List.dropLast_sublist _).subset within)
    · exact plain
  · have isPiece := Option.mem_toList.mp (List.mem_filter.mp unended).1
    exact (List.infix_and_not_mem_of_mem_splitOn (List.mem_of_getLast? isPiece)).2

namespace Console

/-- The bytes of characters. -/
def encoded (text : List Char) : List UInt8 :=
  text.flatMap String.utf8EncodeChar

theorem encoded_append (front back : List Char) :
    encoded (front ++ back) = encoded front ++ encoded back :=
  List.flatMap_append

theorem data_toUTF8 (text : String) : text.toUTF8.data.toList = encoded text.toList := by
  have bytes : text.toUTF8 = text.toList.utf8Encode := by
    rw [← String.toByteArray_ofList, String.ofList_toList]
    rfl
  rw [bytes, List.utf8Encode, List.data_toByteArray]
  rfl

theorem lineEnd_mem_encoded {text : List Char} : 10 ∈ encoded text ↔ '\n' ∈ text := by
  have small : '\n'.toNat < 128 := by decide
  rw [encoded, List.mem_flatMap]
  constructor
  · rintro ⟨char, inside, member⟩
    exact (String.mem_utf8EncodeChar_iff small).mp member ▸ inside
  · intro inside
    exact ⟨'\n', inside, (String.mem_utf8EncodeChar_iff small).mpr rfl⟩

theorem encoded_eq_nil_iff {text : List Char} : encoded text = [] ↔ text = [] := by
  refine ⟨fun none => ?_, fun none => congrArg encoded none⟩
  cases text with
  | nil => rfl
  | cons char rest =>
      rw [encoded, List.flatMap_cons, List.append_eq_nil_iff] at none
      exact absurd none.1 String.utf8EncodeChar_ne_nil

theorem splitOn_encoded (text : List Char) :
    (encoded text).splitOn 10 = (text.splitOn '\n').map encoded := by
  by_cases member : '\n' ∈ text
  · obtain ⟨line, rest, rfl, plain⟩ := List.eq_append_cons_of_mem member
    have bytes : encoded (line ++ '\n' :: rest) = encoded line ++ 10 :: encoded rest :=
      encoded_append line ('\n' :: rest)
    rw [bytes, List.splitOn_append_cons_self, List.splitOn_append_cons_self,
      List.splitOn_eq_singleton plain, List.splitOn_eq_singleton (mt lineEnd_mem_encoded.mp plain),
      splitOn_encoded rest, List.map_append, List.map_singleton]
  · rw [List.splitOn_eq_singleton member,
      List.splitOn_eq_singleton (mt lineEnd_mem_encoded.mp member), List.map_singleton]
termination_by text.length

theorem fromUTF8?_encoded (text : List Char) :
    String.fromUTF8? ⟨(encoded text).toArray⟩ = some (String.ofList text) := by
  have bytes : (⟨(encoded text).toArray⟩ : ByteArray) = (String.ofList text).toByteArray := by
    rw [String.toByteArray_ofList]
    exact ByteArray.ext List.data_toByteArray.symm
  rw [bytes, String.fromUTF8?, dif_pos (String.ofList text).isValidUTF8]
  rfl

/-- A carriage return at the end of a line is dropped with the line end, and so is its
byte. -/
theorem endedLine_encoded (line : List Char) :
    endedLine (encoded line) = some (String.ofList (Output.dropReturn line)) := by
  unfold endedLine Output.dropReturn
  cases lastChar : line.getLast? with
  | none =>
      obtain rfl := List.getLast?_eq_none_iff.mp lastChar
      exact fromUTF8?_encoded []
  | some last =>
      obtain ⟨front, rfl⟩ := List.getLast?_eq_some_iff.mp lastChar
      have bytes : encoded (front ++ [last]) = encoded front ++ String.utf8EncodeChar last := by
        rw [encoded_append, encoded, encoded, List.flatMap_singleton]
      by_cases isReturn : last = '\r'
      · have single : String.utf8EncodeChar '\r' = [13] := rfl
        subst isReturn
        rw [bytes, single, List.getLast?_concat, if_pos rfl, if_pos rfl, List.dropLast_concat,
          List.dropLast_concat]
        exact fromUTF8?_encoded front
      · have behind : (encoded front ++ String.utf8EncodeChar last).getLast? ≠ some 13 := by
          intro ends
          rw [List.getLast?_append,
            List.getLast?_eq_some_getLast String.utf8EncodeChar_ne_nil, Option.some_or] at ends
          have small : '\r'.toNat < 128 := by decide
          have member := List.getLast_mem (String.utf8EncodeChar_ne_nil (c := last))
          rw [Option.some.inj ends] at member
          exact isReturn ((String.mem_utf8EncodeChar_iff small).mp member)
        rw [bytes, if_neg behind, if_neg (fun same => isReturn (Option.some.inj same)), ← bytes]
        exact fromUTF8?_encoded _

/-- The lines of an encoded text are those of the text. -/
theorem inputLines_toUTF8 (text : String) :
    inputLines text.toUTF8.data.toList = (linesOf text).map some := by
  have ended (pieces : List (List Char)) : (pieces.map encoded).dropLast.map endedLine =
      (pieces.dropLast.map Output.dropReturn).map (some ∘ String.ofList) := by
    rw [← List.map_dropLast, List.map_map, List.map_map]
    exact List.map_congr_left fun line _ => endedLine_encoded line
  have unended (pieces : List (List Char)) :
      ((pieces.map encoded).getLast?.toList.filter (· ≠ [])).map
        (fun bytes => String.fromUTF8? ⟨bytes.toArray⟩) =
      (pieces.getLast?.toList.filter (· ≠ [])).map (some ∘ String.ofList) := by
    rw [List.getLast?_map]
    cases pieces.getLast? with
    | none => rfl
    | some line =>
        -- An empty rest is no line on either side.
        by_cases empty : line = []
        · simp [empty, encoded]
        · have isKept : encoded line ≠ [] := mt encoded_eq_nil_iff.mp empty
          simp [empty, isKept, fromUTF8?_encoded]
  rw [data_toUTF8, inputLines, splitOn_encoded, linesOf, Output.lines]
  dsimp only
  rw [ended, unended, ← List.map_append, List.map_map]

end Console

end CommandShell
