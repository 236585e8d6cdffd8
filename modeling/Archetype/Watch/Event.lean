import Archetype.Folder.Path

/-!
Changes in a folder, and which of them may have changed a watched file.
-/

namespace Archetype.Watch

inductive Change where
  | created | modified | moved | deleted
deriving DecidableEq, Repr

structure Event where
  change : Change
  source : String
  /-- Where something moved to. -/
  destination : String := ""
  isFolder : Bool := false
deriving DecidableEq, Repr

/-- The path that has new contents after an event: nothing has where something went away. -/
def Event.target? (event : Event) : Option String :=
  if event.isFolder then none
  else match event.change with
    | .created | .modified => some event.source
    | .moved => some event.destination
    | .deleted => none

/-- Whether an event may have changed the contents of the file at a full path, for a reader at
`here`. -/
def Event.concerns (here : Place) (watched : String) (event : Event) : Bool :=
  event.target?.any fun path => Path.full here path == watched

end Archetype.Watch
