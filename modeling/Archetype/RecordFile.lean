import Archetype.Folder.Basic
import Archetype.Record
import Archetype.Yaml.Document

/-!
Records read from files.
-/

namespace Archetype.Record

/-- Why a file gives no record. -/
inductive FileFault where
  | file (fault : Archetype.FileFault)
  | document (fault : Yaml.Fault)
  | notMapping (path : String)
  | record (fault : Fault)

def FileFault.message : FileFault → String
  | .file fault => fault.message
  | .document fault => fault.message
  | .notMapping path => s!"记录文件格式无效: {path}"
  | .record fault => fault.message

/-- Whether the fault lies in the contents of the file and is told to the user. Numbers that are too
large to be computed with and items that cannot be listed are not foreseen. -/
def FileFault.isForeseen : FileFault → Bool
  | .file _ | .record .infiniteCount | .record (.notItems _) => false
  | .document fault => !fault.isOverflow
  | .notMapping _ | .record (.invalidCount _ _) | .record .noText => true

/-- The record of a document; an empty document is an empty record. -/
def ofDocument (path : String) (document : Datum) : Except FileFault Record :=
  if document.isEmpty then (ofEntries []).mapError .record
  else match document with
    | .map entries => (ofEntries entries).mapError .record
    | _ => .error (.notMapping path)

/-- The record of a file, given what reading the file yields. -/
def ofFile (path : String) (contents : Except Archetype.FileFault Bytes) :
    Except FileFault Record := do
  let bytes ← contents.mapError .file
  let document ← (Yaml.read (.ofBytes bytes)).mapError .document
  ofDocument path document

end Archetype.Record
