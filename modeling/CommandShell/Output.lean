/-!
# Output

A session appends everything it has to say to one output.  Only `Output.clear`
takes text away, and every clearing begins a new epoch.  A reader remembers the
epoch and the number of bytes that it has read, and `Reader.poll` hands it what
has been written since.
-/

namespace CommandShell

/-- The text written since the last clearing, and the number of clearings. -/
structure Output where
  text : String
  epoch : Nat
  deriving DecidableEq, Repr

namespace Output

/-- The output to which nothing has been written. -/
def empty : Output where
  text := ""
  epoch := 0

instance : Inhabited Output := ⟨empty⟩

/-- Append a text. -/
def write (output : Output) (text : String) : Output :=
  { output with text := output.text ++ text }

/-- Append a text and end the line. -/
def writeLine (output : Output) (text : String) : Output :=
  output.write (text ++ "\n")

/-- Drop the text. -/
def clear (output : Output) : Output where
  text := ""
  epoch := output.epoch + 1

@[simp]
theorem text_write (output : Output) (text : String) :
    (output.write text).text = output.text ++ text := rfl

@[simp]
theorem epoch_write (output : Output) (text : String) :
    (output.write text).epoch = output.epoch := rfl

@[simp]
theorem text_writeLine (output : Output) (text : String) :
    (output.writeLine text).text = output.text ++ (text ++ "\n") := rfl

@[simp]
theorem epoch_writeLine (output : Output) (text : String) :
    (output.writeLine text).epoch = output.epoch := rfl

@[simp]
theorem text_clear (output : Output) : output.clear.text = "" := rfl

@[simp]
theorem epoch_clear (output : Output) : output.clear.epoch = output.epoch + 1 := rfl

/-- Whether there is no text. -/
def isEmpty (output : Output) : Bool :=
  output.text.isEmpty

/-- Drop a carriage return at the end of a line. -/
def dropReturn (line : List Char) : List Char :=
  if line.getLast? = some '\r' then line.dropLast else line

/-- The lines of the text.  What follows the last line end counts as a line
unless it is empty, and a carriage return belongs to the line end behind it. -/
def lines (output : Output) : List String :=
  let pieces := output.text.toList.splitOn '\n'
  let ended := pieces.dropLast.map dropReturn
  let unended := pieces.getLast?.toList.filter (· ≠ [])
  (ended ++ unended).map String.ofList

end Output

/-- What a reader of the output receives. -/
structure News where
  /-- Whether the output has been cleared since it was read last. -/
  cleared : Bool
  text : String
  deriving DecidableEq, Repr

/-- How far the output has been read. -/
structure Reader where
  epoch : Nat
  /-- The number of bytes of the text that have been read. -/
  offset : Nat
  deriving DecidableEq, Repr

namespace Reader

/-- The reader that has read the whole output. -/
def atEnd (output : Output) : Reader where
  epoch := output.epoch
  offset := output.text.utf8ByteSize

/-- The reader that has read nothing of an output that was never cleared. -/
def atStart : Reader where
  epoch := 0
  offset := 0

/-- The characters behind the first `count` bytes, unless one of them lies on
both sides or the text is shorter. -/
def dropBytes : List Char → Nat → Option (List Char)
  | [], count => if count = 0 then some [] else none
  | char :: rest, count =>
      if count = 0 then some (char :: rest)
      else if char.utf8Size ≤ count then dropBytes rest (count - char.utf8Size)
      else none

theorem dropBytes_zero (text : List Char) : dropBytes text 0 = some text := by
  cases text <;> rfl

/-- Behind the bytes of a text lies what was appended to it. -/
theorem dropBytes_append (front back : List Char) :
    dropBytes (front ++ back) (String.ofList front).utf8ByteSize = some back := by
  induction front with
  | nil => exact dropBytes_zero back
  | cons char rest ih =>
      have size : (String.ofList (char :: rest)).utf8ByteSize =
          char.utf8Size + (String.ofList rest).utf8ByteSize := by
        rw [String.ofList_cons, String.utf8ByteSize_append, String.utf8ByteSize_singleton]
      have positive := char.utf8Size_pos
      rw [List.cons_append, dropBytes, if_neg (by omega), if_pos (by omega), size,
        Nat.add_sub_cancel_left]
      exact ih

/-- Read everything that is new.  After a clearing everything is new. -/
def poll (reader : Reader) (output : Output) : News × Reader :=
  let cleared := output.epoch != reader.epoch
  let offset := if cleared then 0 else reader.offset
  let text := String.ofList ((dropBytes output.text.toList offset).getD [])
  ({ cleared, text }, atEnd output)

/-- A reader at the end of the output receives what is written next. -/
theorem poll_atEnd_write (output : Output) (text : String) :
    (atEnd output).poll (output.write text) =
      ({ cleared := false, text }, atEnd (output.write text)) := by
  have behind := dropBytes_append output.text.toList text.toList
  rw [String.ofList_toList] at behind
  simp [poll, atEnd, behind]

/-- After a clearing a reader receives everything that has been written since. -/
theorem poll_of_epoch_ne {reader : Reader} {output : Output}
    (cleared : output.epoch ≠ reader.epoch) :
    reader.poll output = ({ cleared := true, text := output.text }, atEnd output) := by
  simp [poll, cleared, dropBytes_zero]

end Reader

end CommandShell
