/-!
# JSON values

A value of a JSON document, as far as its readers look into it: numbers that
are not written as natural numbers are told apart from those that are, and not
from each other.
-/

namespace CommandShell

/-- A value of a JSON document. -/
inductive Json where
  | null
  | bool (value : Bool)
  /-- A number written as an integer literal without sign. -/
  | natural (value : Nat)
  /-- Any other number. -/
  | otherNumber
  | string (text : String)
  | array (elements : List Json)
  /-- The members in the order in which they are written, no name twice. -/
  | object (members : List (String × Json))
  deriving Repr, Inhabited

namespace Json

/-- The member with a name, if the value is an object that has one. -/
def member? : Json → String → Option Json
  | object members, name => (members.find? fun member => member.1 = name).map Prod.snd
  | _, _ => none

/-- The text of a string value. -/
def text? : Json → Option String
  | string text => some text
  | _ => none

/-- The value of a number that is written as a natural number. -/
def natural? : Json → Option Nat
  | natural value => some value
  | _ => none

def bool? : Json → Option Bool
  | bool value => some value
  | _ => none

/-- The elements of an array value. -/
def elements? : Json → Option (List Json)
  | array elements => some elements
  | _ => none

end Json

end CommandShell
