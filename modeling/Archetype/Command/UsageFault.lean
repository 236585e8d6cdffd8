import Archetype.Command.Form
import Archetype.Text.Quoted

/-!
What can be wrong with a command line, and how it is told.
-/

namespace Archetype.Command

open Archetype.Text

inductive UsageFault where
  /-- An unknown option, with the names of options that are like it. -/
  | noSuchOption (name : String) (similar : List String)
  | missingValue (name : String)
  | unwantedValue (name : String)
  | missingPath (hint value : String)
  | notANumber (hint value : String)
  | extraWords (words : List String)
  | missingCommand
  | noSuchCommand (name : String)
deriving DecidableEq, Repr

/-- What is said of similar options. -/
def suggestion : List String → String
  | [] => ""
  | [name] => s!" Did you mean {name}?"
  | names => " (Possible options: " ++ ", ".intercalate names ++ ")"

namespace UsageFault

def message : UsageFault → String
  | .noSuchOption name similar => s!"No such option: {name}{suggestion similar}"
  | .missingValue name => s!"Option {quoted name} requires an argument."
  | .unwantedValue name => s!"Option {quoted name} does not take a value."
  | .missingPath hint value => s!"Invalid value for {hint}: Path {quoted value} does not exist."
  | .notANumber hint value => s!"Invalid value for {hint}: {quoted value} is not a valid float."
  | .extraWords words =>
    let noun := if words.length = 1 then "argument" else "arguments"
    s!"Got unexpected extra {noun} (" ++ " ".intercalate words ++ ")"
  | .missingCommand => "Missing command."
  | .noSuchCommand name => s!"No such command {quoted name}."

/-- Whether the fault is told without a word on how the command is called. -/
def isBare : UsageFault → Bool
  | .missingValue _ | .unwantedValue _ => true
  | _ => false

/-- The whole text that tells the fault. -/
def report (form : Form) (fault : UsageFault) : String :=
  let call :=
    if fault.isBare then ""
    else s!"Usage: {form.usage}\nTry '{form.title} --help' for help.\n\n"
  s!"{call}Error: {fault.message}"

end UsageFault

end Archetype.Command
