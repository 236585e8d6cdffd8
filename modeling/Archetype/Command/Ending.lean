import Archetype.Classifier
import Archetype.Command.UsageFault
import Archetype.RecordFile
import Archetype.Settings.Stored
import Archetype.Text.Halves
import Archetype.Text.Plain

/-!
How a run of the program ends, and what it says until then.
-/

namespace Archetype.Command

/-- What ends a run without being foreseen. -/
inductive Crash where
  | settings (fault : Settings.LoadFault)
  | misuse (misuse : Settings.Misuse)
  | file (fault : FileFault)
  | rules (fault : LoadFault)
  | record (fault : Record.FileFault)
  /-- A text with halves of characters was to be shown, or to name a file. -/
  | unencodable (halves : Text.Halves)
  /-- The first loading of a watched rule file crashed, and watching had not begun. -/
  | notWatching

def Crash.message : Crash → Text
  | .settings fault => fault.message
  | .misuse fault => fault.message
  | .file fault => fault.message
  | .rules fault => fault.message
  | .record fault => fault.message
  | .unencodable halves => halves.message
  | .notWatching => "cannot join thread before it is started"

inductive Ending where
  | exit (code : Nat)
  | crash (crash : Crash)

/-- The exit code of a run. -/
def Ending.code : Ending → Nat
  | .exit code => code
  | .crash _ => 1

/-- A run goes on until it ends early. -/
abbrev Run (m : Type → Type) := ExceptT Ending m

namespace Run

variable {m : Type → Type} [Monad m] [Host m] {α : Type}

def crash (c : Crash) : Run m α :=
  throw (.crash c)

def orCrash {Fault : Type} (kind : Fault → Crash) : Except Fault α → Run m α
  | .ok value => return value
  | .error fault => crash (kind fault)

/-- Says a text. One with halves of characters cannot be said. -/
def say (text : Text) : Run m Unit := do
  let text ← orCrash .unencodable (Text.plain text).whole
  ExceptT.lift (Host.say (text ++ "\n"))

/-- Warns with a text. Halves of characters are spelled out. -/
def warn (text : Text) : Run m Unit :=
  ExceptT.lift (Host.warn ((Text.plain text).spelled ++ "\n"))

/-- Tells what went wrong and ends the run. -/
def fail (text : Text) : Run m α := do
  warn text
  throw (.exit 1)

/-- Tells what is wrong with the command line and ends the run. -/
def refuse (form : Form) (fault : UsageFault) : Run m α := do
  warn (fault.report form)
  throw (.exit 2)

/-- Tells how a command is called and ends the run. -/
def help (form : Form) : Run m α := do
  say form.help
  throw (.exit 0)

/-- Does one thing and then, however it ends, another. -/
def andFinally (first last : Run m Unit) : Run m Unit := do
  let outcome ← ExceptT.lift first.run
  last
  MonadExcept.ofExcept outcome

end Run

end Archetype.Command
