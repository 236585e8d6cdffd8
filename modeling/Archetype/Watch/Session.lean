import Archetype.Host
import Archetype.Watch.Event
import Archetype.Watch.Reloader

/-!
Watching one rule file on a machine.
-/

namespace Archetype.Watch

structure Session where
  /-- The path of the watched file. -/
  path : String
  reloader : Reloader

namespace Session

variable {m : Type → Type} [Monad m] [Host m]

/-- Reloads from a named file, or from the watched one. -/
def reload (session : Session) (named : Option String) : m (Watch.Outcome × Session) := do
  let path := (named.filter (!·.isEmpty)).getD session.path
  let (outcome, reloader) := session.reloader.reload (← Host.read path)
  return (outcome, { session with reloader })

/-- The full path of the watched file, which events are compared with. -/
def watchedPath (session : Session) (here : Place) : String :=
  Path.full here session.path

/-- Reloads after an event that may have changed the watched file. -/
def handle (session : Session) (event : Event) : m (Option Watch.Outcome × Session) := do
  let here ← Host.here
  let watched := session.watchedPath here
  if event.concerns here watched then
    let (outcome, session) ← session.reload (some watched)
    return (some outcome, session)
  else
    return (none, session)

end Session

end Archetype.Watch
