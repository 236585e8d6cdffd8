/-!
What the command line of a command may hold: options by name, and one word besides them.
-/

namespace Archetype.Command

/-- What a value has to be. -/
inductive Kind where
  /-- An option that is given or not and has no value. -/
  | flag
  | text
  | path
  | existingPath
  | number
deriving DecidableEq, Repr

def Kind.isPath : Kind → Bool
  | .path | .existingPath => true
  | .flag | .text | .number => false

structure Switch where
  /-- Long names have two dashes in front, short ones have one dash and one letter. -/
  names : List String
  kind : Kind
deriving DecidableEq, Repr

def Switch.takesValue (switch : Switch) : Bool :=
  switch.kind != .flag

/-- The word besides the options. -/
structure Argument where
  label : String
  kind : Kind
deriving DecidableEq, Repr

structure Form where
  /-- The words that lead to the command. -/
  title : String
  switches : List Switch
  argument : Option Argument := none
  /-- Whether the first word is a command with a line of its own. -/
  takesCommand : Bool := false
deriving DecidableEq, Repr

/-- Every command tells about itself. -/
def helpSwitch : Switch := ⟨["--help"], .flag⟩

namespace Form

def allSwitches (form : Form) : List Switch :=
  form.switches ++ [helpSwitch]

def isLongName (name : String) : Bool :=
  name.startsWith "--"

def longNames (form : Form) : List String :=
  (form.allSwitches.flatMap (·.names)).filter isLongName

def switch? (form : Form) (name : String) : Option Switch :=
  form.allSwitches.find? (·.names.contains name)

/-- How the command is called. -/
def usage (form : Form) : String :=
  let words := match form.argument with
    | some argument => s!" [{argument.label}]"
    | none => if form.takesCommand then " COMMAND [ARGS]..." else ""
  s!"{form.title} [OPTIONS]{words}"

def help (form : Form) : String :=
  let lines := form.allSwitches.map fun switch => "  " ++ ", ".intercalate switch.names
  s!"Usage: {form.usage}\n\nOptions:\n" ++ "\n".intercalate lines

end Form

end Archetype.Command
