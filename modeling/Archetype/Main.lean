import Archetype.Command.Program
import Archetype.Watch.Pause

/-!
The program on a real machine.
-/

namespace Archetype

namespace Machine

/-- The defect of a file that an error of the system stands for. -/
def defect? (error : IO.Error) : Option FileDefect :=
  match error with
  | .noFileOrDirectory .. | .noSuchThing .. => some .notFound
  | .inappropriateType _ code _ => some (if code = 20 then .notAFolder else .isAFolder)
  | .invalidArgument _ code _ | .otherError code _ =>
    if code = 36 then some .nameTooLong else none
  | _ => none

/-- Errors that are no defects of a file end the program. -/
def faults {α : Type} (path : String) (action : IO α) : IO (Except FileFault α) := do
  if Path.hasNull path then return .error ⟨.notAPath, path⟩
  match ← action.toBaseIO with
  | .ok value => return .ok value
  | .error error =>
    match defect? error with
    | some defect => return .error ⟨defect, path⟩
    | none => throw error

/-- What kind of thing is at a path. -/
def kind? (path : String) : IO (Option IO.FS.FileType) := do
  let look : IO IO.FS.FileType := do return (← (← IO.FS.realPath path).metadata).type
  return (← look.toBaseIO).toOption

partial def attend {State : Type} (pause : Datum) (state : State) (look : State → IO State) :
    IO Unit := do
  match Watch.pauseMilliseconds? pause with
  | none => throw (IO.userError "sleep length must be a number that is not negative")
  | some milliseconds =>
    IO.sleep milliseconds.toUInt32
    attend pause (← look state) look

end Machine

open Machine

instance : Host IO where
  isFile path := return (← kind? path).any (· matches .file)
  isThere path := return (← kind? path).isSome
  read path := faults path do return (← IO.FS.readBinFile path).toList
  write path contents := faults path (IO.FS.writeBinFile path ⟨contents.toArray⟩)
  makeFolders path := faults path (IO.FS.createDirAll path)
  here := return Path.place [] (← IO.FS.realPath ".").toString
  home := return (← IO.getEnv "HOME").getD ""
  say text := do
    let out ← IO.getStdout
    out.putStr text
    out.flush
  warn text := do (← IO.getStderr).putStr text
  attend := Machine.attend

end Archetype

def main (args : List String) : IO UInt32 := do
  let ending ← (Archetype.Command.run args : IO _)
  match ending with
  | .exit _ => pure ()
  | .crash crash => IO.eprintln crash.message.spelled
  return ending.code.toUInt32
