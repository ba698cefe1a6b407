import CommandShell.Config.Basic
import CommandShell.Json

/-!
# Configurations in JSON

A configuration is written as an object whose members are the settings, or as
an array with the settings in their fixed order.  Both may leave settings out,
the array only at its end.  Members that are no settings are ignored.
-/

namespace CommandShell

namespace Config

/-- The settings in the order in which an array gives them. -/
def fieldNames : List String :=
  ["home", "prompt_suffix", "history_limit", "seed_demo_files", "startup"]

/-- The texts of an array of strings. -/
def textsOfJson (value : Json) : Option (List String) := do
  (← value.elements?).mapM Json.text?

/-- The configuration that gives the settings by their names. -/
def ofJsonFields (field : String → Option Json) : Option Config := do
  let default : Config := {}
  return {
    home := ← orDefault (field "home") Json.text? default.home
    promptSuffix := ← orDefault (field "prompt_suffix") Json.text? default.promptSuffix
    historyLimit := ← orDefault (field "history_limit") Json.natural? default.historyLimit
    seedDemoFiles := ← orDefault (field "seed_demo_files") Json.bool? default.seedDemoFiles
    startup := ← orDefault (field "startup") textsOfJson default.startup }

/-- The configuration that a JSON value writes down. -/
def ofJson : Json → Option Config
  | .object members => ofJsonFields (Json.object members).member?
  | .array elements =>
      if elements.length ≤ fieldNames.length then
        ofJsonFields (Json.object (fieldNames.zip elements)).member?
      else none
  | _ => none

end Config

end CommandShell
