import Archetype.Text.Basic
import Archetype.Text.Blank
import Archetype.Text.Search

/-!
Lines of an outline: depth marks, a name, a separator and a condition.
-/

namespace Archetype.Outline

open Archetype.Text

/-- What the node above all rules is called. -/
inductive RootName where
  | text (name : Text)
  /-- A number, a truth value or nothing, which no condition can mention. -/
  | unmentioned
  /-- A collection, of which no tree can be made. -/
  | collection (typeName : String)
deriving DecidableEq, Repr, Inhabited

/-- What divides the name of a rule from its condition. -/
inductive Separator where
  | text (value : Text)
  /-- The blanks between two words. Where the condition starts behind them is not told. -/
  | blanks
  /-- A value of another type, which divides nothing. -/
  | other (typeName : String)
deriving DecidableEq, Repr, Inhabited

/-- How an outline is written. -/
structure Format where
  rootName : RootName := .text "All Games"
  /-- The characters that are depth marks, unless something else than a text is given for them. -/
  depthMarks : Option String := some "|"
  separator : Separator := .text "|"
  /-- What the names of structural nodes begin with. -/
  structuralMark : Text := "$"
  ignoreBlankLines : Bool := false
deriving DecidableEq, Repr, Inhabited

/-- What a line says: how deep its rule stands, and where in the line its condition starts. -/
structure Line where
  depth : Nat
  name : List Char
  condition : List Char
  start : Nat
deriving DecidableEq, Repr

/-- Why a line states no rule. -/
inductive Defect where
  /-- The rule before the line has depth `limit - 1`, or there is none and `limit` is zero. -/
  | skippedLevel (depth limit : Nat)
  | missingSeparator
  | emptyPart
deriving DecidableEq, Repr

def Defect.reason : Defect → String
  | .skippedLevel depth limit =>
    s!"depth {depth} skips a level below depth {(limit : Int) - 1}"
  | .missingSeparator => "missing separator"
  | .emptyPart => "empty name or expression"

/-- Why a format allows no line to be read, or no tree to be made. -/
inductive FormatFault where
  | noDepthMarks
  | emptySeparator
  | noSeparator (typeName : String)
  /-- The separator is blanks, and a line has two words. -/
  | blankSeparator
  | collectionName (typeName : String)
deriving DecidableEq, Repr

def FormatFault.message : FormatFault → String
  | .noDepthMarks => "lstrip arg must be None or str"
  | .emptySeparator => "empty separator"
  | .noSeparator typeName => s!"must be str or None, not {typeName}"
  | .blankSeparator => "object of type 'NoneType' has no len()"
  | .collectionName typeName => s!"unhashable type: '{typeName}'"

/-- Whether the setting has the right type and a wrong value. -/
def FormatFault.isOfValue : FormatFault → Bool
  | .emptySeparator => true
  | _ => false

/-- Why a line cannot be read. -/
inductive LineFault where
  | defect (defect : Defect)
  | format (fault : FormatFault)
deriving DecidableEq, Repr

/-- How many depth marks a line starts with. -/
def depthOf (marks : List Char) (line : List Char) : Nat :=
  (line.takeWhile marks.contains).length

/-- The first word of a text and what follows the blanks behind it, if anything does. -/
def cutAtBlanks? (text : List Char) : Option (List Char × List Char) :=
  let words := trimStart text
  let rest := trimStart (words.dropWhile (!isBlank ·))
  if rest.isEmpty then none else some (words.takeWhile (!isBlank ·), rest)

/-- Whether a text holds the separator; then the parts around the first one and its length. -/
def Separator.cut (separator : Separator) (text : List Char) :
    Except LineFault (List Char × List Char × Nat) :=
  match separator with
  | .other typeName => .error (.format (.noSeparator typeName))
  | .text value =>
    if value.isEmpty then .error (.format .emptySeparator)
    else match value.chars?.bind fun value => cut? value text with
      | none => .error (.defect .missingSeparator)
      | some (before, after) => .ok (before, after, value.points.length)
  | .blanks =>
    match cutAtBlanks? text with
    | none => .error (.defect .missingSeparator)
    | some _ => .error (.format .blankSeparator)

/-- The rule of a line that may be `limit` deep. The separator is the first one after the depth
marks; the name and the condition are what stands around it, without blanks at their ends. -/
def Line.read (format : Format) (limit : Nat) (line : List Char) : Except LineFault Line := do
  match format.depthMarks with
  | none => .error (.format .noDepthMarks)
  | some marks =>
    let depth := depthOf marks.toList line
    if depth > limit then
      .error (.defect (.skippedLevel depth limit))
    else
      let (before, after, length) ← format.separator.cut (line.drop depth)
      let name := trim before
      let condition := trim after
      if name.isEmpty || condition.isEmpty then
        .error (.defect .emptyPart)
      else
        .ok {
          depth, name, condition
          start := depth + before.length + length + (after.length - (trimStart after).length) }

end Archetype.Outline
