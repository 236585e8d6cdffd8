import Archetype.Classifier
import Archetype.Settings.Basic
import Archetype.Text.Blank
import Archetype.Text.UpperCase

/-!
What settings mean where they are used: the format of rule files, and the paths of such files.
-/

namespace Archetype.Settings

/-- The characters that mark depth when none are set: the blank ones. -/
def blankMarks : String :=
  String.ofList ((List.range 0x3001).map Char.ofNat |>.filter Text.isBlank)

/-- The characters that mark depth. Halves are none, since rule files hold no halves. -/
def depthMarks : Datum → Option String
  | .text text => some (String.ofList (text.points.filterMap CodePoint.char?))
  | .null => some blankMarks
  | _ => none

def separatorOf : Datum → Outline.Separator
  | .text s => .text s
  | .null => .blanks
  | datum => .other datum.typeName

def rootNameOf : Datum → Outline.RootName
  | .text s => .text s
  | .list items => .collection (Datum.typeName (.list items))
  | .map entries => .collection (Datum.typeName (.map entries))
  | _ => .unmentioned

/-- The mark of structural nodes, as far as it is a text. -/
def structuralMark : Datum → Text
  | .text s => s
  | _ => ""

/-- How rule files are written. -/
def format (settings : Settings) : Outline.Format :=
  let rules := settings.rules
  { rootName := rootNameOf rules.rootName
    depthMarks := depthMarks rules.depthMarker
    separator := separatorOf rules.separator
    structuralMark := structuralMark rules.structuralMarker
    ignoreBlankLines := !rules.ignoreBlankLines.isEmpty }

def encodingName : Datum → Except Misuse String
  | .text text => text.whole.mapError .halves
  | .null => .ok "utf-8"
  | datum => .error (.notEncoding datum)

/-- A classifier without a tree that reads rule files as the settings say. -/
def classifier (settings : Settings) : Except Misuse Classifier :=
  (encodingName settings.rules.encoding).map fun encoding =>
    { format := settings.format, encoding }

/-- Structural nodes can be told only by a mark and names that are texts. The name of the root is
asked for first if the root is among the nodes; all other names are texts. -/
def structuralMisuse (settings : Settings) (usesRoot : Bool) : Option Misuse :=
  match usesRoot, settings.rules.rootName, settings.rules.structuralMarker with
  | true, .text _, .text _ => none
  | true, .text _, mark => some (.notStructuralMarker mark)
  | true, name, _ => some (.notName name)
  | false, _, .text _ => none
  | false, _, mark => some (.notStructuralMarker mark)

/-- The items that a datum runs through: those of a list, the code points of a text or the keys of a
mapping. -/
def itemsOf : Datum → Except Misuse (List Datum)
  | .list items => .ok items
  | .text text => .ok (text.points.map fun point => .text ⟨[point]⟩)
  | .map entries => .ok (entries.map (·.1))
  | datum => .error (.notIterable datum)

/-- The paths at which a rule file is looked for when none is named. -/
def ruleCandidates (settings : Settings) : Except Misuse (List Datum) :=
  (itemsOf settings.rules.searchPaths).map (settings.rules.rulesFile :: ·)

/-- The numbers that may stand for open files. -/
def maxFileNumber : Int := Int.pow 2 31 - 1

def minFileNumber : Int := -Int.pow 2 31

/-- The path that a candidate gives; numbers name no file, and what is empty is passed over. -/
def candidatePath (datum : Datum) : Except Misuse (Option Text) :=
  if datum.isEmpty then .ok none
  else match datum with
    | .text path => .ok (some path)
    | .int value =>
      if value > maxFileNumber then .error (.beyondFiles true)
      else if value < minFileNumber then .error (.beyondFiles false)
      else .ok none
    | .bool _ => .ok none
    | _ => .error (.notPath datum)

/-- Texts joined by a comma and a space. -/
def joined (position : Nat) : List Datum → Except Misuse (List Text)
  | [] => .ok []
  | .text s :: rest => (joined (position + 1) rest).map (s :: ·)
  | datum :: _ => .error (.notTextItem position datum)

def searchPathsText (settings : Settings) : Except Misuse Text :=
  match itemsOf settings.rules.searchPaths with
  | .error _ => .error .notJoinable
  | .ok items => (joined 0 items).map (Text.join ", ")

/-- The names that a level can be given by; some of them stand for no level and change nothing. -/
def levelNames : List String :=
  ["CRITICAL", "FATAL", "ERROR", "WARNING", "WARN", "INFO", "DEBUG", "NOTSET", "BASIC_FORMAT",
    "_STYLES"]

/-- The level from which on messages are logged. -/
def logLevel (settings : Settings) : Except Misuse String :=
  match settings.system.logLevel with
  | .text s =>
    let name := Text.upper s
    match name.string?.filter levelNames.contains with
    | some level => .ok level
    | none => .error (.unknownLevel name)
  | datum => .error (.notLevel datum)

/-- The file that messages are logged to, if any. -/
def logPath (settings : Settings) : Except Misuse (Option Text) :=
  let file := settings.system.logFile
  if file.isEmpty then .ok none
  else match file with
    | .text path => .ok (some path)
    | _ => .error (.notLogPath file)

end Archetype.Settings
