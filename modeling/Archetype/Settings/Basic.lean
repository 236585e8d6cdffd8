import Archetype.Data.Display
import Archetype.Text.Halves

/-!
Settings: where rules are found, how they are written, and how the program watches and logs. A
setting holds whatever a settings file says; it is understood where it is used. Settings of other
names are kept beside those that the program knows.
-/

namespace Archetype

/-- Settings by their names, in the order in which they were first assigned. -/
abbrev Settings.Others := List (Datum × Datum)

structure Settings.Rules where
  rulesFile : Datum := .text "decktypes.txt"
  searchPaths : Datum := .list [.text "../decktypes.txt", .text "decktypes.txt"]
  depthMarker : Datum := .text "|"
  separator : Datum := .text "|"
  structuralMarker : Datum := .text "$"
  rootName : Datum := .text "All Games"
  ignoreBlankLines : Datum := .bool false
  encoding : Datum := .text "utf-8"
  others : Settings.Others := []

structure Settings.Watch where
  /-- The seconds between two looks at the rule file. -/
  interval : Datum := .float 1.0
  others : Settings.Others := []

structure Settings.System where
  logLevel : Datum := .text "INFO"
  logFile : Datum := .null
  others : Settings.Others := []

structure Settings where
  rules : Settings.Rules := {}
  watch : Settings.Watch := {}
  system : Settings.System := {}
deriving Inhabited

namespace Settings

/-- A setting by its name in a file: how it is read from and put into a section. -/
structure Field (Section : Type) where
  name : String
  get : Section → Datum
  set : Section → Datum → Section

/-- What a section holds: the fields that are known, and the other settings. -/
structure Shape (Section : Type) where
  fields : List (Field Section)
  others : Section → Others
  setOthers : Section → Others → Section

def rulesShape : Shape Rules where
  fields :=
    [⟨"rules_file", (·.rulesFile), fun s v => { s with rulesFile := v }⟩,
      ⟨"search_paths", (·.searchPaths), fun s v => { s with searchPaths := v }⟩,
      ⟨"depth_marker", (·.depthMarker), fun s v => { s with depthMarker := v }⟩,
      ⟨"separator", (·.separator), fun s v => { s with separator := v }⟩,
      ⟨"structural_marker", (·.structuralMarker), fun s v => { s with structuralMarker := v }⟩,
      ⟨"root_name", (·.rootName), fun s v => { s with rootName := v }⟩,
      ⟨"ignore_blank_lines", (·.ignoreBlankLines), fun s v => { s with ignoreBlankLines := v }⟩,
      ⟨"encoding", (·.encoding), fun s v => { s with encoding := v }⟩]
  others := (·.others)
  setOthers s others := { s with others }

def watchShape : Shape Watch where
  fields := [⟨"interval", (·.interval), fun s v => { s with interval := v }⟩]
  others := (·.others)
  setOthers s others := { s with others }

def systemShape : Shape System where
  fields :=
    [⟨"log_level", (·.logLevel), fun s v => { s with logLevel := v }⟩,
      ⟨"log_file", (·.logFile), fun s v => { s with logFile := v }⟩]
  others := (·.others)
  setOthers s others := { s with others }

namespace Shape

variable {Section : Type} (shape : Shape Section)

/-- The entries of a section, the known ones first. -/
def entries (part : Section) : Datum :=
  .map (shape.fields.map (fun field => (.text field.name, field.get part)) ++ shape.others part)

/-- Assigns one setting; a name that is not known is added. -/
def assign (part : Section) (name : String) (value : Datum) : Section :=
  match shape.fields.find? (·.name == name) with
  | some field => field.set part value
  | none => shape.setOthers part (Datum.put (shape.others part) (.text name) value)

/-- A section with the known settings that entries name; the others keep their values. -/
def update (part : Section) (entries : List (Datum × Datum)) : Section :=
  shape.fields.foldl (fun part field =>
    match Datum.get? entries field.name with
    | some value => field.set part value
    | none => part) part

/-- Takes over those of the other settings, too, that are there already. -/
def updateOthers (part : Section) (entries : List (Datum × Datum)) : Section :=
  let value (key old : Datum) : Datum :=
    ((entries.find? fun (k, _) => k.sameKey key).map (·.2)).getD old
  shape.setOthers part ((shape.others part).map fun (key, old) => (key, value key old))

end Shape

/-- The settings as a document. -/
def toDatum (settings : Settings) : Datum :=
  .map [(.text "rules", rulesShape.entries settings.rules),
    (.text "watch", watchShape.entries settings.watch),
    (.text "system", systemShape.entries settings.system)]

/-- A setting of the wrong type or value where it is used. -/
inductive Misuse where
  /-- A number or truth value in place of a document. -/
  | notContainer (datum : Datum)
  /-- A text or list that mentions a section in place of a mapping that has it. -/
  | notIndexedByName (datum : Datum)
  | notMapping (datum : Datum)
  | notOrdered (datum : Datum)
  | notIterable (datum : Datum)
  | notPath (datum : Datum)
  /-- A number in place of a path that is too great or too small for the number of a file. -/
  | beyondFiles (isGreat : Bool)
  | notJoinable
  | notTextItem (position : Nat) (datum : Datum)
  | notLevel (datum : Datum)
  | unknownLevel (name : Text)
  | notLogPath (datum : Datum)
  | notStructuralMarker (datum : Datum)
  | notName (datum : Datum)
  | notEncoding (datum : Datum)
  /-- A text with halves where a name is needed. -/
  | halves (run : Text.Halves)
  /-- A number that has no text is to be shown. -/
  | noText
  | unknownSection (name : String)

/-- What is wrong with a value that is misused. -/
inductive Misuse.Kind where
  | missingMember
  | wrongType
  | wrongValue
  | tooLarge
  | unencodable
deriving DecidableEq, Repr

def Misuse.message : Misuse → Text
  | .notContainer datum => s!"argument of type '{datum.typeName}' is not iterable"
  | .notIndexedByName (.text _) => "string indices must be integers, not 'str'"
  | .notIndexedByName _ => "list indices must be integers or slices, not str"
  | .notMapping datum => s!"'{datum.typeName}' object has no attribute 'get'"
  | .notOrdered datum =>
    s!"'<=' not supported between instances of '{datum.typeName}' and 'int'"
  | .notIterable datum => s!"'{datum.typeName}' object is not iterable"
  | .notPath datum =>
    s!"stat: path should be string, bytes, os.PathLike or integer, not {datum.typeName}"
  | .beyondFiles isGreat =>
    if isGreat then "fd is greater than maximum" else "fd is less than minimum"
  | .notJoinable => "can only join an iterable"
  | .notTextItem position datum =>
    s!"sequence item {position}: expected str instance, {datum.typeName} found"
  | .notLevel datum => s!"'{datum.typeName}' object has no attribute 'upper'"
  | .unknownLevel name => "module 'logging' has no attribute '" ++ name ++ "'"
  | .notLogPath datum => s!"expected str, bytes or os.PathLike object, not {datum.typeName}"
  | .notStructuralMarker datum =>
    s!"startswith first arg must be str or a tuple of str, not {datum.typeName}"
  | .notName datum => s!"'{datum.typeName}' object has no attribute 'startswith'"
  | .notEncoding datum => s!"open() argument 'encoding' must be str or None, not {datum.typeName}"
  | .halves run => run.message
  | .noText => Text.noTextMessage
  | .unknownSection name => s!"'Config' object has no attribute '{name}'"

def Misuse.kind : Misuse → Misuse.Kind
  | .notMapping _ | .notLevel _ | .unknownLevel _ | .notName _ | .unknownSection _ =>
    .missingMember
  | .noText => .wrongValue
  | .beyondFiles _ => .tooLarge
  | .halves _ => .unencodable
  | _ => .wrongType

/-- Assigns one setting by the names of its section and itself. -/
def assign (settings : Settings) (sectionName name : String) (value : Datum) :
    Except Misuse Settings :=
  match sectionName with
  | "rules" => .ok { settings with rules := rulesShape.assign settings.rules name value }
  | "watch" => .ok { settings with watch := watchShape.assign settings.watch name value }
  | "system" => .ok { settings with system := systemShape.assign settings.system name value }
  | _ => .error (.unknownSection sectionName)

/-- A text of exactly one code point. -/
def isOneCharacter : Datum → Bool
  | .text text => text.points.length == 1
  | _ => false

/-- Whether a number is zero or below. -/
def isAtMostZero (datum : Datum) : Except Misuse Bool :=
  match datum with
  | .bool value => .ok !value
  | .int value => .ok (value ≤ 0)
  | .float value => .ok (value ≤ 0)
  | _ => .error (.notOrdered datum)

/-- The text that a setting stands for. -/
def shown (datum : Datum) : Except Misuse Text :=
  match datum.display? with
  | some text => .ok text
  | none => .error .noText

/-- A setting as it stands in messages. -/
def literal (datum : Datum) : Except Misuse String :=
  match datum.literal? with
  | some text => .ok text
  | none => .error .noText

/-- The complaint about a setting that is not one character. -/
def oneCharacter (name : String) (datum : Datum) : Except Misuse (List String) :=
  if isOneCharacter datum then .ok []
  else (literal datum).map fun text => [s!"{name} 必须是单个字符: {text}"]

/-- What is wrong with the settings, in the order of the settings. -/
def complaints (settings : Settings) : Except Misuse (List String) := do
  let rules := settings.rules
  let present (name : String) (datum : Datum) : List String :=
    if datum.isEmpty then [s!"{name} 不能为空"] else []
  let interval := settings.watch.interval
  let marks ← oneCharacter "depth_marker" rules.depthMarker
  let separators ← oneCharacter "separator" rules.separator
  let positive ← if ← isAtMostZero interval then
      pure [s!"interval 必须为正数: {← literal interval}"]
    else
      pure []
  return marks ++ separators ++ present "structural_marker" rules.structuralMarker ++
    present "root_name" rules.rootName ++ positive

end Settings

end Archetype
