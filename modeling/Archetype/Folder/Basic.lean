import Archetype.Bytes.Basic
import Archetype.Folder.Path
import Archetype.Text.Quoted

/-!
Folders of files as values: what reading and writing at a path finds and leaves there.
-/

namespace Archetype

/-- Why a file cannot be used. -/
inductive FileDefect where
  | notFound
  | notAFolder
  | isAFolder
  | nameTooLong
  /-- The text holds a null character, so it is no path. -/
  | notAPath
deriving DecidableEq, Repr

structure FileFault where
  defect : FileDefect
  path : String
deriving DecidableEq, Repr

def FileFault.message (fault : FileFault) : String :=
  let path := Text.quoted fault.path
  match fault.defect with
  | .notFound => s!"[Errno 2] No such file or directory: {path}"
  | .notAFolder => s!"[Errno 20] Not a directory: {path}"
  | .isAFolder => s!"[Errno 21] Is a directory: {path}"
  | .nameTooLong => s!"[Errno 36] File name too long: {path}"
  | .notAPath => "embedded null byte"

/-- Whether the fault lies in the text that is given for a path. Then no folder is looked at. -/
def FileFault.isOfPath (fault : FileFault) : Bool :=
  fault.defect == .notAPath

/-- A folder with all that is in it: the files by their places, and the folders below it. Places
are seen from the folder. -/
structure Folder where
  files : List (Place × Bytes)
  folders : List Place
deriving DecidableEq, Repr, Inhabited

namespace Folder

def empty : Folder := ⟨[], []⟩

/-- What is at a place. -/
inductive Spot where
  | file (place : Place) (contents : Bytes)
  | folder (place : Place)
  /-- A folder that contains this one, of which nothing is known. -/
  | outside
  /-- Nothing, in a folder that exists. -/
  | vacant (place : Place)
deriving DecidableEq, Repr

def file? (folder : Folder) (place : Place) : Option Bytes :=
  folder.files.lookup place

def hasFolder (folder : Folder) (place : Place) : Bool :=
  place.isEmpty || folder.folders.contains place

def spotAt (folder : Folder) (place : Place) : Spot :=
  match folder.file? place with
  | some contents => .file place contents
  | none => if folder.hasFolder place then .folder place else .vacant place

/-- One step of a path from a spot. Only folders can be stepped into. -/
def step (folder : Folder) (spot : Spot) (name : String) : Except FileDefect Spot :=
  match spot with
  | .file _ _ => .error .notAFolder
  | .vacant _ => .error .notFound
  | .outside =>
    if name.utf8ByteSize > Path.maxNameSize then .error .nameTooLong
    else if name = "" ∨ name = "." ∨ name = ".." then .ok .outside
    else .error .notFound
  | .folder place =>
    if name.utf8ByteSize > Path.maxNameSize then .error .nameTooLong
    else if name = "" ∨ name = "." then .ok spot
    else if name = ".." then
      .ok (if place.isEmpty then .outside else .folder place.dropLast)
    else .ok (folder.spotAt (place ++ [name]))

/-- What a path leads to. Absolute paths lead outside. -/
def find (folder : Folder) (path : String) : Except FileDefect Spot :=
  if Path.hasNull path then .error .notAPath
  else if path.isEmpty then .error .notFound
  else if path.utf8ByteSize > Path.maxSize then .error .nameTooLong
  else
    let start : Spot := if Path.isAbsolute path then .outside else .folder []
    (Path.steps path).foldlM folder.step start

def isFile (folder : Folder) (path : String) : Bool :=
  match folder.find path with
  | .ok (.file _ _) => true
  | _ => false

def isThere (folder : Folder) (path : String) : Bool :=
  match folder.find path with
  | .ok (.vacant _) | .error _ => false
  | _ => true

def read (folder : Folder) (path : String) : Except FileFault Bytes :=
  match folder.find path with
  | .ok (.file _ contents) => .ok contents
  | .ok (.folder _) | .ok .outside => .error ⟨.isAFolder, path⟩
  | .ok (.vacant _) => .error ⟨.notFound, path⟩
  | .error defect => .error ⟨defect, path⟩

def putFile (place : Place) (contents : Bytes) : List (Place × Bytes) → List (Place × Bytes)
  | [] => [(place, contents)]
  | (p, old) :: rest =>
    if p = place then (p, contents) :: rest else (p, old) :: putFile place contents rest

/-- Writes a file in a folder that exists. -/
def write (folder : Folder) (path : String) (contents : Bytes) : Except FileFault Folder :=
  match folder.find path with
  | .ok (.file place _) | .ok (.vacant place) =>
    .ok { folder with files := putFile place contents folder.files }
  | .ok (.folder _) | .ok .outside => .error ⟨.isAFolder, path⟩
  | .error defect => .error ⟨defect, path⟩

/-- Removes a file. -/
def delete (folder : Folder) (path : String) : Except FileFault Folder :=
  match folder.find path with
  | .ok (.file place _) =>
    .ok { folder with files := folder.files.filter fun (p, _) => p != place }
  | .ok (.folder _) | .ok .outside => .error ⟨.isAFolder, path⟩
  | .ok (.vacant _) => .error ⟨.notFound, path⟩
  | .error defect => .error ⟨defect, path⟩

/-- Follows a path from a spot and makes the folders on it that do not exist. Those that were made
stay if the path cannot be followed to its end. -/
def makeFrom (folder : Folder) (spot : Spot) : List String → Except FileDefect Spot × Folder
  | [] => (.ok spot, folder)
  | name :: rest =>
    if Path.hasNull name then (.error .notAPath, folder)
    else match folder.step spot name with
      | .error defect => (.error defect, folder)
      | .ok (.vacant place) =>
        makeFrom { folder with folders := folder.folders ++ [place] } (.folder place) rest
      | .ok next => makeFrom folder next rest

/-- Makes the folder at a path and those above it that do not exist. -/
def makeFolders (folder : Folder) (path : String) : Except FileFault Unit × Folder :=
  let start : Spot := if Path.isAbsolute path then .outside else .folder []
  let (outcome, folder) := folder.makeFrom start (Path.steps path)
  match outcome with
  | .ok (.file _ _) => (.error ⟨.notAFolder, path⟩, folder)
  | .ok _ => (.ok (), folder)
  | .error defect => (.error ⟨defect, path⟩, folder)

/-- Puts a file at a path, with all folders above it. -/
def put (folder : Folder) (path : String) (contents : Bytes) : Folder :=
  let place := Path.place [] path
  let above := (List.range place.length).map place.take |>.filter (!·.isEmpty)
  let missing := above.filter fun p => !folder.folders.contains p
  ⟨putFile place contents folder.files, folder.folders ++ missing⟩

/-- The first of several paths that leads to a file; empty paths lead nowhere. -/
def firstFile? (folder : Folder) (paths : List String) : Option String :=
  paths.find? fun path => !path.isEmpty && folder.isFile path

/-- The paths of all files. -/
def paths (folder : Folder) : List String :=
  folder.files.map fun (place, _) => "/".intercalate place

end Folder

end Archetype
