import Archetype.Bytes.Utf8
import Archetype.Text.Halves
import Archetype.Text.Search

/-!
Paths as texts, and the places that they name without looking at any folder.
-/

namespace Archetype

/-- A place is the list of names on the way to it. -/
abbrev Place := List String

namespace Path

/-- How many bytes a name on a path has at most. -/
def maxNameSize : Nat := 255

/-- How many bytes a path has at most. -/
def maxSize : Nat := 4095

/-- The halves that stand for single bytes in a path: the first is that of the byte zero. -/
def byteHalves : Nat := 0xDC00

/-- The byte that a half stands for in a path. -/
def halfByte? (h : Half) : Option UInt8 :=
  let byte := (CodePoint.half h).code - byteHalves
  if 0x80 ≤ byte ∧ byte ≤ 0xFF then some (UInt8.ofNat byte) else none

/-- The bytes that a code point stands for in a path. Some halves stand for bytes that are no
characters, and the others for nothing. -/
def pointBytes? : CodePoint → Option Bytes
  | .char c => some (Bytes.Utf8.encode [c])
  | .half h => (halfByte? h).map ([·])

/-- The path that a text stands for; a text that stands for none gives the empty path, which leads
nowhere. -/
def ofText (text : Text) : String :=
  match text.points.mapM pointBytes? with
  | none => ""
  | some bytes =>
    match Bytes.Utf8.decode bytes.flatten with
    | .ok path => String.ofList path
    | .error _ => ""

/-- The halves in a text that stand for nothing in a path. -/
def halves? (text : Text) : Option Text.Halves :=
  Text.halvesFrom (fun h => (halfByte? h).isSome) 0 text.points

/-- A text with a null character is no path. -/
def hasNull (path : String) : Bool :=
  path.toList.contains '\x00'

/-- The names between the slashes of a path, empty ones included. -/
def steps (path : String) : List String :=
  (Text.divide '/' path.toList).map String.ofList

def isAbsolute (path : String) : Bool :=
  path.toList.head? == some '/'

/-- The steps that are left when steps have led straight to a place. -/
def stepsBelow? : Place → List String → Option (List String)
  | [], steps => some steps
  | _ :: _, [] => none
  | name :: names, step :: rest =>
    if step = "" ∨ step = "." then stepsBelow? (name :: names) rest
    else if step = name then stepsBelow? names rest
    else none

/-- Follows one step of a path from a place whose names are in reverse order. There is nothing
above the outermost place. A step is spelled as a string is by `spell`. -/
def follow {Step : Type} [DecidableEq Step] (spell : String → Step) (reversed : List Step)
    (step : Step) : List Step :=
  if step = spell "" ∨ step = spell "." then reversed
  else if step = spell ".." then reversed.drop 1
  else step :: reversed

/-- The place that a path names for a reader at `here`. -/
def place (here : Place) (path : String) : Place :=
  let start := if isAbsolute path then [] else here.reverse
  ((steps path).foldl (follow id) start).reverse

/-- The slashes in front of a path that are kept: exactly two are told from one and from more. -/
def root (path : String) : String :=
  match (path.toList.takeWhile (· == '/')).length with
  | 0 => ""
  | 2 => "//"
  | _ => "/"

/-- What a full path starts with. -/
def fullRoot (path : String) : String :=
  if isAbsolute path then root path else "/"

/-- The path from the outermost place to the place that a path names for a reader at `here`. -/
def full (here : Place) (path : String) : String :=
  fullRoot path ++ "/".intercalate (place here path)

/-- The full path of a text, which may hold halves that stand for nothing. -/
def fullText (here : Place) (text : Text) : Text :=
  let slash := CodePoint.char '/'
  let slashes := String.ofList ((text.points.takeWhile (· = slash)).filterMap CodePoint.char?)
  let start := if isAbsolute slashes then [] else here.reverse.map Text.ofString
  let steps := (Text.divide slash text.points).map Text.mk
  fullRoot slashes ++ Text.join "/" (steps.foldl (follow Text.ofString) start).reverse

/-- The path from one place to another. -/
def between : Place → Place → List String
  | a :: here, b :: there =>
    if a = b then between here there
    else List.replicate (here.length + 1) ".." ++ b :: there
  | here, there => List.replicate here.length ".." ++ there

/-- The path of a place for a reader at `here`. -/
def relative (here place : Place) : String :=
  match between here place with
  | [] => "."
  | names => "/".intercalate names

/-- The same path without empty steps and steps that stay in place. -/
def tidy (path : String) : String :=
  let names := (steps path).filter fun name => name != "" && name != "."
  let text := root path ++ "/".intercalate names
  if text.isEmpty then "." else text

/-- What stands before the last slash of a path, without slashes at its end. -/
def folderPart (path : String) : String :=
  let reversed := path.toList.reverse.dropWhile (· != '/')
  let trimmed := reversed.dropWhile (· == '/')
  String.ofList (if trimmed.isEmpty then reversed else trimmed).reverse

end Path

end Archetype
