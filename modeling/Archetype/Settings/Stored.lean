import Archetype.Host
import Archetype.Settings.File
import Archetype.Settings.Use

/-!
Settings that are kept in a file, and the rule file that settings lead to.
-/

namespace Archetype

structure StoredSettings where
  path : String
  settings : Settings := {}
deriving Inhabited

namespace StoredSettings

variable {m : Type → Type} [Monad m] [Host m]

/-- The path of the settings file: a named one, or the first usual one that is there. -/
def locate (named : Option String) : m String := do
  match named.filter (!·.isEmpty) with
  | some path => return path
  | none =>
    let found ← Host.firstThere? (Settings.usualPaths (← Host.home))
    return found.getD Settings.fallbackPath

/-- Loads the file once more; what it does not set stays. -/
def reload (stored : StoredSettings) : m (Except Settings.LoadFault Unit × StoredSettings) := do
  let (outcome, settings) := stored.settings.load (← Host.read stored.path)
  return (outcome, { stored with settings })

/-- The settings of a file, which need not be there. -/
def openAt (named : Option String) : m (Except Settings.LoadFault StoredSettings) := do
  let stored : StoredSettings := { path := ← locate named }
  if ← Host.isThere stored.path then
    let (outcome, loaded) ← stored.reload
    return outcome.map fun _ => loaded
  else
    return .ok stored

/-- Makes the folder of the file if it is not there. -/
def makeFolder (stored : StoredSettings) : m (Except FileFault Unit) := do
  let folder := Path.folderPart stored.path
  if folder.isEmpty then return .ok () else Host.makeFolders folder

/-- What is told of a fault in saving: nothing, unless the path is none. -/
def told : Except FileFault Unit → Except FileFault Unit
  | .error fault => if fault.isOfPath then .error fault else .ok ()
  | .ok _ => .ok ()

/-- Writes the settings to their file. Nothing happens if the folder does not allow that. -/
def save (stored : StoredSettings) : m (Except FileFault Unit) := do
  match ← stored.makeFolder with
  | .error fault => return told (.error fault)
  | .ok _ => return told (← Host.write stored.path stored.settings.fileContents)

/-- The same file with the settings that hold when there is none. -/
def fresh (stored : StoredSettings) : StoredSettings :=
  { path := stored.path }

end StoredSettings

namespace Settings

variable {m : Type → Type} [Monad m] [Host m]

/-- The first candidate that leads to a file. -/
def firstRuleFile? : List Datum → m (Except Misuse (Option Text))
  | [] => return .ok none
  | candidate :: rest =>
    match candidatePath candidate with
    | .error misuse => return .error misuse
    | .ok none => firstRuleFile? rest
    | .ok (some path) => do
      if ← Host.isFile (Path.ofText path) then return .ok (some path) else firstRuleFile? rest

/-- The rule file to use: a named one or none, and the first candidate if none is named. -/
def ruleFile? (settings : Settings) (named : Option String) :
    m (Except Misuse (Option Text)) := do
  match named.filter (!·.isEmpty) with
  | some path => return .ok (if ← Host.isFile path then some (Text.ofString path) else none)
  | none =>
    match settings.ruleCandidates with
    | .error misuse => return .error misuse
    | .ok candidates => firstRuleFile? candidates

end Settings

end Archetype
