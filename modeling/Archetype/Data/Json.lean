import Archetype.Data.Datum
import Archetype.Decimal.Text
import Archetype.Text.Quoted

/-!
Data as JSON text. Collections that are not empty take a line for each entry, indented by two blanks
for each level; characters outside the basic alphabet stand for themselves, and halves of characters
by their codes.
-/

namespace Archetype.Json

open Archetype.Text

/-- One character of a JSON string. -/
def stringChar (c : Char) : List Char :=
  if c = '"' ∨ c = '\\' then ['\\', c]
  else if c = '\n' then ['\\', 'n']
  else if c = '\r' then ['\\', 'r']
  else if c = '\t' then ['\\', 't']
  else if c.toNat = 0x08 then ['\\', 'b']
  else if c.toNat = 0x0C then ['\\', 'f']
  else if c.toNat < 0x20 then '\\' :: 'u' :: hexText 4 c.toNat
  else [c]

def stringPoint : CodePoint → List Char
  | .char c => stringChar c
  | .half h => '\\' :: 'u' :: hexText 4 (CodePoint.half h).code

def string (text : Text) : String :=
  "\"" ++ String.ofList (text.points.flatMap stringPoint) ++ "\""

/-- Numbers that are infinite or none go by their names. -/
def number (x : Float) : String :=
  match Decimal.Binary64.ofFloat x with
  | .nan => "NaN"
  | .infinite negative => if negative then "-Infinity" else "Infinity"
  | finite => String.ofList finite.write

/-- The name of an entry. A key that is no text goes by the text of its value. -/
def keyName : Datum → Text
  | .null => "null"
  | .bool value => if value then "true" else "false"
  | .int value => toString value
  | .float value => number value
  | .text value => value
  | .list _ | .map _ => ""

def indent (level : Nat) : String :=
  "\n" ++ String.ofList (List.replicate (2 * level) ' ')

/-- The lines of a collection between its brackets. -/
def bracketed (level : Nat) (opening closing : String) (lines : List String) : String :=
  if lines.isEmpty then opening ++ closing
  else
    let inner := indent (level + 1)
    opening ++ inner ++ (("," ++ inner).intercalate lines) ++ indent level ++ closing

mutual

def layout (level : Nat) : Datum → String
  | .null => "null"
  | .bool value => if value then "true" else "false"
  | .int value => toString value
  | .float value => number value
  | .text value => string value
  | .list items => bracketed level "[" "]" (layoutItems (level + 1) items)
  | .map entries => bracketed level "\x7b" "\x7d" (layoutEntries (level + 1) entries)

def layoutItems (level : Nat) : List Datum → List String
  | [] => []
  | item :: rest => layout level item :: layoutItems level rest

def layoutEntries (level : Nat) : List (Datum × Datum) → List String
  | [] => []
  | (key, value) :: rest =>
    (string (keyName key) ++ ": " ++ layout level value) :: layoutEntries level rest

end

def write (datum : Datum) : String :=
  layout 0 datum

end Archetype.Json
