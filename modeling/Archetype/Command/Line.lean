import Archetype.Command.UsageFault
import Archetype.Text.Search
import Archetype.Text.Similar

/-!
Command lines read word by word. An option takes its value from its own word or from the next one.
-/

namespace Archetype.Command

open Archetype.Text

/-- What a command line says: options with their values, in order, and the other words. -/
structure Line where
  given : List (Switch × String)
  words : List String
deriving DecidableEq, Repr

/-- An option that waits for its value, by the name that was used. -/
abbrev Waiting := Switch × String

/-- What one word gives, and the option that takes the next word as its value. -/
abbrev Reading := List (Switch × String) × Option Waiting

def isOption (word : String) : Bool :=
  word.length > 1 && word.startsWith "-"

/-- Reads a word of short names after its dash. A name that takes a value takes what follows it. -/
def readShort (form : Form) : List Char → Except UsageFault Reading
  | [] => .ok ([], none)
  | c :: rest =>
    let name := String.ofList ['-', c]
    match form.switch? name with
    | none => .error (.noSuchOption name [])
    | some switch =>
      if !switch.takesValue then
        (readShort form rest).map fun (given, waiting) => ((switch, "") :: given, waiting)
      else if rest.isEmpty then
        .ok ([], some (switch, name))
      else
        .ok ([(switch, String.ofList rest)], none)

/-- Reads a long name with the value that was attached to it, if any. -/
def readLong (switch : Switch) (name : String) (attached : Option String) :
    Except UsageFault Reading :=
  match switch.takesValue, attached with
  | true, some value => .ok ([(switch, value)], none)
  | true, none => .ok ([], some (switch, name))
  | false, some _ => .error (.unwantedValue name)
  | false, none => .ok ([(switch, "")], none)

/-- Reads a word that begins with a dash. -/
def readOption (form : Form) (word : String) : Except UsageFault Reading :=
  let (name, attached) := match cut? ['='] word.toList with
    | some (name, value) => (String.ofList name, some (String.ofList value))
    | none => (word, none)
  match (form.switch? name).filter fun _ => Form.isLongName name with
  | some switch => readLong switch name attached
  | none =>
    if Form.isLongName word then
      .error (.noSuchOption name (similar name form.longNames))
    else
      readShort form (word.toList.drop 1)

/-- Reads words, the first of which is the value of an option that waits for one. Two dashes end
the options, and so does a command. -/
def readFrom (form : Form) (waiting : Option Waiting) : List String → Except UsageFault Line
  | [] =>
    match waiting with
    | some (_, name) => .error (.missingValue name)
    | none => .ok ⟨[], []⟩
  | word :: rest =>
    match waiting with
    | some (switch, _) =>
      (readFrom form none rest).map fun line =>
        { line with given := (switch, word) :: line.given }
    | none =>
      if word = "--" then
        .ok ⟨[], rest⟩
      else if isOption word then do
        let (given, waiting) ← readOption form word
        let line ← readFrom form waiting rest
        return { line with given := given ++ line.given }
      else if form.takesCommand then
        .ok ⟨[], word :: rest⟩
      else
        (readFrom form none rest).map fun line => { line with words := word :: line.words }

namespace Line

def read (form : Form) (words : List String) : Except UsageFault Line :=
  readFrom form none words

def has (line : Line) (switch : Switch) : Bool :=
  line.given.any (·.1 == switch)

/-- All values of an option. -/
def values (line : Line) (switch : Switch) : List String :=
  (line.given.filter (·.1 == switch)).map (·.2)

/-- The value of an option; the last one counts. -/
def value? (line : Line) (switch : Switch) : Option String :=
  (line.values switch).getLast?

/-- The options of a line, each once, in the order in which they come first. -/
def switches (line : Line) : List Switch :=
  (line.given.map (·.1)).eraseDups

end Line

end Archetype.Command
