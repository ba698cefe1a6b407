/-!
# TOML documents

A document is a table of items.  How a table came about decides what may still
be added to it: a table that has had a header takes no second header, only
tables that arose from dotted keys take further dotted keys, and an inline table
is complete as it stands.
-/

namespace CommandShell

namespace Toml

/-- How a table came about. -/
inductive Origin where
  /-- It has a header of its own. -/
  | header
  /-- It lies on the way to the header of another table. -/
  | implied
  /-- It lies on the way of a dotted key. -/
  | dotted
  /-- It is written as a value. -/
  | inline
  deriving DecidableEq, Repr

/-- What stands under a key.  Numbers with a fraction and dates are known to be
there, and not looked into. -/
inductive Item where
  | string (text : String)
  | integer (value : Int)
  | bool (value : Bool)
  | other
  | array (elements : List Item)
  | table (origin : Origin) (members : List (String × Item))
  /-- Tables under one repeated header, the last one apart. -/
  | tables (earlier : List (List (String × Item))) (last : List (String × Item))
  deriving Repr, Inhabited

/-- The members of a table in the order of their first mention. -/
abbrev Members := List (String × Item)

namespace Members

/-- The item under a key. -/
def item? (members : Members) (key : String) : Option Item :=
  (members.find? fun member => member.1 = key).map Prod.snd

/-- Put an item under a key that is there already. -/
def replace (members : Members) (key : String) (item : Item) : Members :=
  members.map fun member => if member.1 = key then (key, item) else member

/-- Put an item under a new key. -/
def add (members : Members) (key : String) (item : Item) : Members :=
  members ++ [(key, item)]

/-- Assign an item to a dotted key.  All but the last of its parts name tables:
the last of these has to arise from dotted keys, and none of them may have a
header or be written as a value. -/
def assign (item : Item) : List String → Members → Option Members
  | [], _ => none
  | [key], members => if (members.item? key).isSome then none else some (members.add key item)
  | key :: next :: rest, members =>
      match members.item? key with
      | none => do
          let inner ← assign item (next :: rest) []
          return members.add key (.table .dotted inner)
      | some (.table origin inner) =>
          if origin = .dotted ∨ (origin = .implied ∧ rest ≠ []) then do
            let inner ← assign item (next :: rest) inner
            return members.replace key (.table origin inner)
          else none
      | some (.tables earlier last) =>
          if rest ≠ [] then do
            let last ← assign item (next :: rest) last
            return members.replace key (.tables earlier last)
          else none
      | some _ => none

/-- Change the table that a header path leads to.  The way leads through the
last of the tables under a repeated header, and tables that are missing on the
way arise from it. -/
def descend (change : Members → Option Members) : List String → Members → Option Members
  | [], members => change members
  | key :: rest, members =>
      match members.item? key with
      | none => do
          let inner ← descend change rest []
          return members.add key (.table .implied inner)
      | some (.table origin inner) =>
          if origin = .inline then none
          else do
            let inner ← descend change rest inner
            return members.replace key (.table origin inner)
      | some (.tables earlier last) => do
          let last ← descend change rest last
          return members.replace key (.tables earlier last)
      | some _ => none

/-- Give a table its header.  It may already lie on the way to other tables. -/
def openTable (key : String) (members : Members) : Option Members :=
  match members.item? key with
  | none => some (members.add key (.table .header []))
  | some (.table .implied inner) => some (members.replace key (.table .header inner))
  | some _ => none

/-- Begin one more table under a repeated header. -/
def openElement (key : String) (members : Members) : Option Members :=
  match members.item? key with
  | none => some (members.add key (.tables [] []))
  | some (.tables earlier last) => some (members.replace key (.tables (earlier ++ [last]) []))
  | some _ => none

end Members

/-- One statement of a document. -/
inductive Statement where
  | table (parents : List String) (key : String)
  | element (parents : List String) (key : String)
  | assign (path : List String) (item : Item)
  deriving Repr

/-- A document as far as it has been read: the path of the header that is in
force, and the root table. -/
structure Draft where
  header : List String
  root : Members
  deriving Repr

namespace Draft

/-- The document before its first statement. -/
def blank : Draft where
  header := []
  root := []

/-- Carry out a statement, unless it contradicts an earlier one. -/
def add (draft : Draft) : Statement → Option Draft
  | .table parents key => do
      let root ← Members.descend (Members.openTable key) parents draft.root
      return { header := parents ++ [key], root }
  | .element parents key => do
      let root ← Members.descend (Members.openElement key) parents draft.root
      return { header := parents ++ [key], root }
  | .assign path item => do
      let root ← Members.descend (Members.assign item path) draft.header draft.root
      return { draft with root }

end Draft

/-- The root table of the document that consists of the statements. -/
def ofStatements (statements : List Statement) : Option Members := do
  return (← statements.foldlM Draft.add Draft.blank).root

end Toml

end CommandShell
