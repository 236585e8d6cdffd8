import Archetype.Command.Ending
import Archetype.Command.Line
import Archetype.Decimal.Reading

/-!
The values of a command line checked against what they have to be.
-/

namespace Archetype.Command

def quotedName (name : String) : String :=
  "'" ++ name ++ "'"

/-- How an option is called in messages. -/
def Switch.hint (switch : Switch) : String :=
  " / ".intercalate (switch.names.map quotedName)

def Argument.hint (argument : Argument) : String :=
  quotedName s!"[{argument.label}]"

variable {m : Type → Type} [Monad m] [Host m]

/-- Ends the run if a value is not what it has to be. What is no path at all is not foreseen. -/
def checkValue (form : Form) (kind : Kind) (hint value : String) : Run m Unit := do
  if kind.isPath && Path.hasNull value then Run.crash (.file ⟨.notAPath, value⟩)
  match kind with
  | .flag | .text | .path => return
  | .existingPath =>
    unless ← ExceptT.lift (Host.isThere value) do Run.refuse form (.missingPath hint value)
  | .number =>
    if (Decimal.readFloat? value.toList).isNone then Run.refuse form (.notANumber hint value)

/-- Checks the word besides the options, and that no others follow it. -/
def checkWords (form : Form) (words : List String) : Run m Unit := do
  match form.argument, words with
  | _, [] => return
  | none, words => Run.refuse form (.extraWords words)
  | some argument, word :: rest =>
    checkValue form argument.kind argument.hint word
    unless rest.isEmpty do Run.refuse form (.extraWords rest)

/-- Checks the values of the options, and then the words besides them. -/
def checkLine (form : Form) (line : Line) : Run m Unit := do
  line.switches.forM fun switch =>
    checkValue form switch.kind switch.hint ((line.value? switch).getD "")
  unless form.takesCommand do checkWords form line.words

/-- The command line of a command. Help is given before any value is looked at. -/
def readLine (form : Form) (words : List String) : Run m Line := do
  match Line.read form words with
  | .error fault => Run.refuse form fault
  | .ok line =>
    if line.has helpSwitch then Run.help form
    checkLine form line
    return line

/-- The word besides the options. -/
def Line.word? (line : Line) : Option String :=
  line.words.head?

end Archetype.Command
