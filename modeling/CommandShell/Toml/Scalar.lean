import CommandShell.Toml.Item

/-!
# TOML scalars

Numbers, truth values, dates and times.  They are written without blanks, but
for the one that may stand between a date and a time, so a whole word is read
first and then matched against the forms of a scalar.
-/

namespace CommandShell

namespace Toml

/-- Whether the character may stand in a scalar. -/
def isScalarChar (char : Char) : Bool :=
  char.isAlphanum || "_+-.:".toList.contains char

/-- The digits of a number in which single underscores may stand between
digits. -/
def grouped? (isDigit : Char → Bool) (text : List Char) : Option (List Char) :=
  let groups := text.splitOn '_'
  if groups.all fun group => group ≠ [] && group.all isDigit then some groups.flatten else none

/-- The digits of a decimal number without needless leading zeros. -/
def wholeDigits? (text : List Char) : Option (List Char) := do
  let digits ← grouped? Char.isDigit text
  if digits.head? = some '0' && digits.length ≠ 1 then none else return digits

/-- The number that digits mean in a base. -/
def ofDigits (base : Nat) (digits : List Char) : Nat :=
  digits.foldl (fun value digit =>
    let figure :=
      if digit.isDigit then digit.toNat - '0'.toNat
      else if digit.isLower then digit.toNat - 'a'.toNat + 10
      else digit.toNat - 'A'.toNat + 10
    value * base + figure) 0

/-- Split off a sign; the flag tells whether it is a minus sign. -/
def signed : List Char → Bool × List Char
  | '+' :: rest => (false, rest)
  | '-' :: rest => (true, rest)
  | text => (false, text)

/-- An integer of 64 bits. -/
def bounded? (value : Int) : Option Int :=
  if Int64.minValue.toInt ≤ value && value ≤ Int64.maxValue.toInt then some value else none

/-- The integer that a word writes in decimal. -/
def decimal? (word : List Char) : Option Int := do
  let (negative, unsigned) := signed word
  let magnitude := ofDigits 10 (← wholeDigits? unsigned)
  bounded? (if negative then -magnitude else magnitude)

/-- Whether the character is a digit in a base. -/
def isDigitIn (base : Nat) (char : Char) : Bool :=
  if base = 16 then char.isDigit || ('a' ≤ char && char ≤ 'f') || ('A' ≤ char && char ≤ 'F')
  else char.isDigit && char.toNat < '0'.toNat + base

/-- The integer that a word writes in another base. -/
def inBase? (base : Nat) (text : List Char) : Option Int := do
  bounded? (ofDigits base (← grouped? (isDigitIn base) text))

/-- The integer that a word writes. -/
def integer? : List Char → Option Int
  | '0' :: 'x' :: rest => inBase? 16 rest
  | '0' :: 'o' :: rest => inBase? 8 rest
  | '0' :: 'b' :: rest => inBase? 2 rest
  | word => decimal? word

/-- Whether `mantissa` times ten to the power of `exponent` is too large for a
double-precision number: at least half a unit in the last place beyond the
largest one.  The number of digits decides unless it is close to the limit. -/
def overflows (mantissa : Nat) (exponent : Int) : Bool :=
  let limit := (Nat.pow 2 54 - 1) * Nat.pow 2 970
  let size := (toString mantissa).length + exponent
  if mantissa = 0 || size < 309 then false
  else if 310 < size then true
  else if 0 ≤ exponent then limit ≤ mantissa * Nat.pow 10 exponent.toNat
  else limit * Nat.pow 10 (-exponent).toNat ≤ mantissa

/-- The exponent that a word writes behind its mark. -/
def exponent? (text : List Char) : Option Int := do
  let (negative, unsigned) := signed text
  let magnitude := ofDigits 10 (← grouped? Char.isDigit unsigned)
  return if negative then -magnitude else magnitude

/-- The whole and the fractional digits that a word writes, where both a
fraction and the point in front of it may be missing. -/
def fraction? (text : List Char) : Option (List Char × List Char) :=
  match text.dropWhile (· ≠ '.') with
  | [] => do return (← wholeDigits? text, [])
  | _ :: fraction => do
      return (← wholeDigits? (text.takeWhile (· ≠ '.')), ← grouped? Char.isDigit fraction)

/-- Whether the character is the mark of an exponent. -/
def isExponentMark (char : Char) : Bool :=
  char = 'e' || char = 'E'

/-- Whether a word writes a number with a fraction or an exponent, or one that
is no finite number.  A word with neither is an integer, also where it is too
large to be one.  A number too large to be represented is refused if it is
positive. -/
def isFloat (word : List Char) : Bool :=
  let (negative, unsigned) := signed word
  if unsigned = "inf".toList || unsigned = "nan".toList then true
  else if !(unsigned.any fun char => char = '.' || isExponentMark char) then false
  else
    let exponent :=
      match unsigned.dropWhile fun char => !isExponentMark char with
      | [] => some 0
      | _ :: rest => exponent? rest
    match fraction? (unsigned.takeWhile fun char => !isExponentMark char), exponent with
    | some (whole, fraction), some exponent =>
        negative ||
          !overflows (ofDigits 10 (whole ++ fraction)) (exponent - fraction.length)
    | _, _ => false

/-- Read a number of exactly `count` digits. -/
def digits? (count : Nat) (text : List Char) : Option (Nat × List Char) :=
  let digits := text.take count
  if digits.length = count && digits.all Char.isDigit then
    some (ofDigits 10 digits, text.drop count)
  else none

/-- Read a certain character. -/
def char? (char : Char) : List Char → Option (List Char)
  | first :: rest => if first = char then some rest else none
  | [] => none

/-- The number of days of a month. -/
def daysIn (year month : Nat) : Nat :=
  if month = 2 then
    if year % 4 = 0 && (year % 100 ≠ 0 || year % 400 = 0) then 29 else 28
  else if month = 4 || month = 6 || month = 9 || month = 11 then 30
  else 31

/-- Read a date of the calendar. -/
def date? (text : List Char) : Option (List Char) := do
  let (year, rest) ← digits? 4 text
  let (month, rest) ← digits? 2 (← char? '-' rest)
  let (day, rest) ← digits? 2 (← char? '-' rest)
  if 1 ≤ month && month ≤ 12 && 1 ≤ day && day ≤ daysIn year month then some rest else none

/-- Read a time of day.  A minute may have a leap second. -/
def time? (text : List Char) : Option (List Char) := do
  let (hour, rest) ← digits? 2 text
  let (minute, rest) ← digits? 2 (← char? ':' rest)
  let (second, rest) ← digits? 2 (← char? ':' rest)
  if hour ≤ 23 && minute ≤ 59 && second ≤ 60 then
    match rest with
    | '.' :: fraction =>
        if (fraction.takeWhile Char.isDigit) = [] then none
        else some (fraction.dropWhile Char.isDigit)
    | rest => some rest
  else none

/-- Whether a text is the distance of a time zone from universal time. -/
def isOffset : List Char → Bool
  | ['Z'] | ['z'] => true
  | sign :: rest =>
      let distance := do
        let (hour, rest) ← digits? 2 rest
        let (minute, rest) ← digits? 2 (← char? ':' rest)
        return hour ≤ 23 && minute ≤ 59 && rest = []
      (sign = '+' || sign = '-') && distance = some true
  | [] => false

/-- Whether a text is a time of day with or without a time zone. -/
def isZonedTime (text : List Char) : Bool :=
  match time? text with
  | some rest => rest = [] || isOffset rest
  | none => false

/-- Whether a word is a date, a time of day or both. -/
def isMoment (word : List Char) : Bool :=
  match date? word with
  | some [] => true
  | some (mark :: time) => (mark = 'T' || mark = 't') && isZonedTime time
  | none => time? word = some []

/-- The item that a word writes. -/
def word? (word : List Char) : Option Item :=
  if word = "true".toList then some (.bool true)
  else if word = "false".toList then some (.bool false)
  else
    match integer? word with
    | some value => some (.integer value)
    | none => if isMoment word || isFloat word then some .other else none

/-- Read a scalar that is no string.  A date may be parted from its time by one
space. -/
def scalarItem? (text : List Char) : Option (Item × List Char) := do
  let word := text.takeWhile isScalarChar
  let rest := text.dropWhile isScalarChar
  let item ← word? word
  if date? word = some [] then
    match rest with
    | ' ' :: more =>
        let time := more.takeWhile isScalarChar
        if time = [] then return (item, rest)
        else if isZonedTime time then return (item, more.dropWhile isScalarChar)
        else none
    | _ => return (item, rest)
  else return (item, rest)

end Toml

end CommandShell
