import Archetype.Bytes.Utf8
import Archetype.Folder.Basic
import Archetype.Settings.Basic
import Archetype.Yaml.Document
import Archetype.Yaml.Writer

/-!
Settings files. A file that cannot be opened or is malformed is passed over, and so is an empty one.
A path that is none and numbers that cannot be read end the loading before it begins. The sections
of a file are taken over one after the other; a section of the wrong shape ends the loading, and the
sections before it stay.
-/

namespace Archetype.Settings

/-- Why loading a settings file ends early. -/
inductive LoadFault where
  | file (fault : FileFault)
  | document (fault : Yaml.Fault)
  | misuse (misuse : Misuse)

def LoadFault.message : LoadFault → Text
  | .file fault => fault.message
  | .document fault => fault.message
  | .misuse fault => fault.message

/-- A section of a document by its name, if the document mentions it. -/
def part? (document : Datum) (name : String) : Except Misuse (Option Datum) :=
  let mentions (found : Bool) : Except Misuse (Option Datum) :=
    if found then .error (.notIndexedByName document) else .ok none
  match document with
  | .map entries => .ok (Datum.get? entries name)
  | .list items => mentions (items.any (·.sameKey (.text name)))
  | .text text => mentions (Text.cut? (Text.ofString name).points text.points).isSome
  | _ => .error (.notContainer document)

/-- The entries of a section; an empty section has none. -/
def partEntries (part : Datum) : Except Misuse (List (Datum × Datum)) :=
  if part.isEmpty then .ok []
  else match part with
    | .map entries => .ok entries
    | _ => .error (.notMapping part)

/-- Loading changes settings step by step and may end early. -/
abbrev Loading (α : Type) := ExceptT Misuse (StateM Settings) α

def ofExcept {α : Type} : Except Misuse α → Loading α
  | .ok value => pure value
  | .error misuse => throw misuse

/-- Takes over the section of a name. -/
def takePart (document : Datum) (name : String)
    (change : List (Datum × Datum) → Settings → Settings) : Loading Unit := do
  match ← ofExcept (part? document name) with
  | none => return
  | some part =>
    let entries ← ofExcept (partEntries part)
    modify (change entries)

def takeDocument (document : Datum) : Loading Unit := do
  takePart document "rules" fun entries s =>
    { s with rules := rulesShape.updateOthers (rulesShape.update s.rules entries) entries }
  takePart document "watch" fun entries s =>
    { s with watch := watchShape.update s.watch entries }
  takePart document "system" fun entries s =>
    { s with system := systemShape.update s.system entries }

/-- The document of a file; a file that cannot be used gives none. -/
def document? (contents : Except FileFault Bytes) : Except LoadFault (Option Datum) :=
  match contents with
  | .error fault => if fault.isOfPath then .error (.file fault) else .ok none
  | .ok bytes =>
    match Yaml.read (.ofBytes bytes) with
    | .ok document => .ok (some document)
    | .error .malformed => .ok none
    | .error fault => .error (.document fault)

/-- The settings after loading a file, and why the loading ended early if it did. -/
def load (settings : Settings) (contents : Except FileFault Bytes) :
    Except LoadFault Unit × Settings :=
  match document? contents with
  | .error fault => (.error fault, settings)
  | .ok none => (.ok (), settings)
  | .ok (some document) =>
    if document.isEmpty then (.ok (), settings)
    else
      let (outcome, settings) := (takeDocument document).run.run settings
      (outcome.mapError .misuse, settings)

/-- The text of a settings file. -/
def fileText (settings : Settings) : String :=
  Yaml.write settings.toDatum

/-- The contents of a settings file. -/
def fileContents (settings : Settings) : Bytes :=
  Bytes.Utf8.encode settings.fileText.toList

/-- Where settings files are looked for when none is named; the last is below the home folder. -/
def usualPaths (home : String) : List String :=
  ["decktypes.yaml", "config/decktypes.yaml", home ++ "/.decktypes/config.yaml"]

/-- The settings file when no other is there. -/
def fallbackPath : String := "decktypes.yaml"

end Archetype.Settings
