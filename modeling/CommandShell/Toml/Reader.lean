import CommandShell.Toml.Item
import CommandShell.Toml.Scalar
import CommandShell.Toml.Text

/-!
# Reading TOML documents

A document is read in two steps: its text is cut into statements, and the
statements are carried out one after the other.  Values may be nested to a fixed
depth, which bounds the recursion of the reader; within one level it goes on as
long as there are characters left.
-/

namespace CommandShell

namespace Toml

/-- How deep values may be nested and how many parts a key may have. -/
def nestingLimit : Nat := 79

/-- Read a dotted key. -/
def path? (text : List Char) : Option (List String × List Char) :=
  key? nestingLimit text

/-- Read the elements of an array behind its opening bracket. -/
def elements? (value? : List Char → Option (Item × List Char)) :
    (fuel : Nat) → List Char → Option (List Item × List Char)
  | 0, _ => none
  | fuel + 1, text =>
      match skipLines false text with
      | ']' :: rest => some ([], rest)
      | text => do
          let (element, rest) ← value? text
          match skipLines false rest with
          | ',' :: rest =>
              let (elements, rest) ← elements? value? fuel rest
              return (element :: elements, rest)
          | ']' :: rest => return ([element], rest)
          | _ => none

/-- Read the assignments in an inline table behind its opening brace. -/
def assignments? (value? : List Char → Option (Item × List Char)) :
    (fuel : Nat) → List Char → Option (List (List String × Item) × List Char)
  | 0, _ => none
  | fuel + 1, text => do
      let (path, rest) ← path? text
      let (item, rest) ← value? (skipBlanks (← char? '=' rest))
      match skipBlanks rest with
      | ',' :: rest =>
          let (assignments, rest) ← assignments? value? fuel rest
          return ((path, item) :: assignments, rest)
      | '\x7d' :: rest => return ([(path, item)], rest)
      | _ => none

/-- The inline table that consists of assignments. -/
def inlineTable? (assignments : List (List String × Item)) : Option Item := do
  let assign := fun members (path, item) => Members.assign item path members
  return .table .inline (← assignments.foldlM assign [])

/-- Read a value in which arrays and inline tables are nested at most `depth`
levels deep. -/
def value? : (depth : Nat) → List Char → Option (Item × List Char)
  | depth, '[' :: rest =>
      match depth with
      | 0 => none
      | depth + 1 => do
          let (elements, rest) ← elements? (value? depth) (rest.length + 1) rest
          return (.array elements, rest)
  | depth, '\x7b' :: rest =>
      match depth with
      | 0 => none
      | depth + 1 =>
          match skipBlanks rest with
          | '\x7d' :: rest => some (.table .inline [], rest)
          | rest => do
              let (assignments, rest) ← assignments? (value? depth) (rest.length + 1) rest
              return (← inlineTable? assignments, rest)
  | _, text =>
      match text with
      | '"' :: _ | '\'' :: _ => do
          let (content, rest) ← string? text
          return (.string content, rest)
      | _ => scalarItem? text

/-- Read a statement and the line that it stands on. -/
def statement? : List Char → Option (Statement × List Char)
  | '[' :: '[' :: rest => do
      let (path, rest) ← path? rest
      let rest ← restOfLine? (← char? ']' (← char? ']' rest))
      return (.element path.dropLast (← path.getLast?), rest)
  | '[' :: rest => do
      let (path, rest) ← path? rest
      let rest ← restOfLine? (← char? ']' rest)
      return (.table path.dropLast (← path.getLast?), rest)
  | text => do
      let (path, rest) ← path? text
      let (item, rest) ← value? nestingLimit (skipBlanks (← char? '=' rest))
      return (.assign path item, ← restOfLine? rest)

/-- Read the statements of a document, skipping lines that hold none. -/
def statements? : (fuel : Nat) → List Char → Option (List Statement)
  | 0, _ => none
  | fuel + 1, text =>
      match skipBlanks text with
      | [] => some []
      | text =>
          match restOfLine? text with
          | some rest => statements? fuel rest
          | none => do
              let (statement, rest) ← statement? text
              return statement :: (← statements? fuel rest)

/-- A byte order mark in front of a document does not belong to it. -/
def skipMark : List Char → List Char
  | '\ufeff' :: rest => rest
  | text => text

/-- The root table of the document with a text. -/
def ofText (text : String) : Option Members := do
  let content := skipMark text.toList
  ofStatements (← statements? (content.length + 1) content)

end Toml

end CommandShell
