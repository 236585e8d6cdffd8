import Archetype.Data.Datum
import Archetype.Folder.Basic

/-!
What the program asks of the machine that it runs on.
-/

namespace Archetype

class Host (m : Type → Type) where
  isFile : String → m Bool
  isThere : String → m Bool
  read : String → m (Except FileFault Bytes)
  write : String → Bytes → m (Except FileFault Unit)
  /-- Makes the folder at a path and those above it that do not exist. -/
  makeFolders : String → m (Except FileFault Unit)
  /-- The place from which paths start. -/
  here : m Place
  /-- The path of the user's own folder. -/
  home : m String
  say : String → m Unit
  warn : String → m Unit
  /-- Does something again and again after pauses of so many seconds, until the user asks it to
  stop. -/
  attend : {State : Type} → Datum → State → (State → m State) → m Unit

namespace Host

variable {m : Type → Type} [Monad m] [Host m]

/-- The first of several paths that leads to a file; empty paths lead nowhere. -/
def firstFile? : List String → m (Option String)
  | [] => return none
  | path :: rest => do
    if !path.isEmpty && (← isFile path) then return some path else firstFile? rest

/-- The first of several paths that leads anywhere. -/
def firstThere? : List String → m (Option String)
  | [] => return none
  | path :: rest => do
    if ← isThere path then return some path else firstThere? rest

/-- Makes a file that is empty if it is new. -/
def touch (path : String) : m (Except FileFault Unit) := do
  if ← isFile path then return .ok () else write path []

end Host

end Archetype
