import Archetype.Host

/-!
A machine as a value: a folder, and what was said there. Paths start in the folder; absolute paths
lead into it if they pass through it on the straight way.
-/

namespace Archetype

structure Desk where
  folder : Folder := .empty
  here : Place := []
  home : String := "home"
  said : String := ""
  warned : String := ""
  /-- The pauses that were made, the last one first. -/
  pauses : List Datum := []
deriving Inhabited

namespace Desk

/-- A path as it is seen from the folder. Absolute paths that do not pass through it stay. -/
def inside (desk : Desk) (path : String) : String :=
  match if Path.isAbsolute path then Path.stepsBelow? desk.here (Path.steps path) else none with
  | some steps => "/".intercalate ("." :: steps)
  | none => path

/-- Changes the folder; faults name the path that was asked for. -/
def change (path : String) (change : Folder → Except FileFault Unit × Folder) :
    StateM Desk (Except FileFault Unit) := fun desk =>
  let (outcome, folder) := change desk.folder
  (outcome.mapError fun fault => { fault with path }, { desk with folder })

/-- At a desk the user asks everything to stop after one pause. -/
instance : Host (StateM Desk) where
  isFile path := return (← get).folder.isFile ((← get).inside path)
  isThere path := return (← get).folder.isThere ((← get).inside path)
  read path := do
    let desk ← get
    return (desk.folder.read (desk.inside path)).mapError fun fault => { fault with path }
  write path contents := do
    let inside := (← get).inside path
    change path fun folder =>
      match folder.write inside contents with
      | .ok folder => (.ok (), folder)
      | .error fault => (.error fault, folder)
  makeFolders path := do
    let inside := (← get).inside path
    change path (·.makeFolders inside)
  here := return (← get).here
  home := return (← get).home
  say text := modify fun desk => { desk with said := desk.said ++ text }
  warn text := modify fun desk => { desk with warned := desk.warned ++ text }
  attend pause _ _ := modify fun desk => { desk with pauses := pause :: desk.pauses }

end Desk

end Archetype
