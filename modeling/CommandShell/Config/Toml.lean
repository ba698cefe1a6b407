import CommandShell.Config.Basic
import CommandShell.Toml.Reader

/-!
# Configurations in TOML

A configuration is written as a document whose keys are the settings.  Keys that
are no settings are ignored, but the whole document has to be well formed.
-/

namespace CommandShell

namespace Config

open Toml (Item Members)

def textOfItem : Item → Option String
  | .string text => some text
  | _ => none

def naturalOfItem : Item → Option Nat
  | .integer value => if 0 ≤ value then some value.toNat else none
  | _ => none

def boolOfItem : Item → Option Bool
  | .bool value => some value
  | _ => none

def textsOfItem : Item → Option (List String)
  | .array elements => elements.mapM textOfItem
  | _ => none

/-- The configuration that a root table writes down. -/
def ofMembers (root : Members) : Option Config := do
  let default : Config := {}
  return {
    home := ← orDefault (root.item? "home") textOfItem default.home
    promptSuffix := ← orDefault (root.item? "prompt_suffix") textOfItem default.promptSuffix
    historyLimit := ← orDefault (root.item? "history_limit") naturalOfItem default.historyLimit
    seedDemoFiles := ← orDefault (root.item? "seed_demo_files") boolOfItem default.seedDemoFiles
    startup := ← orDefault (root.item? "startup") textsOfItem default.startup }

/-- The configuration that a text writes down. -/
def ofToml (text : String) : Except Failure Config :=
  match Toml.ofText text with
  | none => .error (.malformedToml "the text is not a document")
  | some root =>
      match ofMembers root with
      | none => .error (.malformedToml "a setting has a value of another type")
      | some config => config.checked

end Config

end CommandShell
