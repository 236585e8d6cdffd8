import Archetype.Command.Watching

/-!
The program: options of its own, then a command with its own command line. The settings are loaded
and the log is opened before the command line of the command is read.
-/

namespace Archetype.Command

variable {m : Type → Type} [Monad m] [Host m]

/-- What the program can do. -/
inductive Task where
  | init | info | check | tree | classify | watch
deriving DecidableEq, Repr

namespace Task

def all : List Task :=
  [.init, .info, .check, .tree, .classify, .watch]

def name : Task → String
  | .init => "init"
  | .info => "info"
  | .check => "check"
  | .tree => "tree"
  | .classify => "classify"
  | .watch => "watch"

def ofName? (name : String) : Option Task :=
  all.find? (·.name == name)

def switches : Task → List Switch
  | .init | .info | .check => []
  | .tree => [expressionsSwitch]
  | .classify =>
    [rulesSwitch, categorySwitch, colorSwitch, cardSwitch, wordSwitch, jsonSwitch, explainSwitch]
  | .watch => [recordSwitch, intervalSwitch]

def argument : Task → Option Argument
  | .init | .info => none
  | .check | .tree => some ⟨"RULES_FILE", .path⟩
  | .classify => some ⟨"RECORD_FILE", .existingPath⟩
  | .watch => some ⟨"RULES_FILE", .existingPath⟩

def form (task : Task) : Form where
  title := s!"main {task.name}"
  switches := task.switches
  argument := task.argument

def run (task : Task) (stored : StoredSettings) (line : Line) : Run m Unit :=
  match task with
  | .init => initialSettings stored
  | .info => showSettings stored
  | .check => checkRules stored.settings line
  | .tree => showTree stored.settings line
  | .classify => classifyRecord stored.settings line
  | .watch => watchRules stored.settings line

end Task

def configSwitch : Switch := ⟨["--config", "-c"], .text⟩

def verboseSwitch : Switch := ⟨["--verbose", "-v"], .flag⟩

def programForm : Form where
  title := "main"
  switches := [configSwitch, verboseSwitch]
  takesCommand := true

/-- Opens the log file that the settings name. -/
def openLog (settings : Settings) : Run m Unit := do
  match ← Run.orCrash .misuse settings.logPath with
  | none => return
  | some path =>
    let here ← ExceptT.lift Host.here
    match Path.halves? (Path.fullText here path) with
    | some halves => Run.crash (.unencodable halves)
    | none =>
      Run.orCrash .file (← ExceptT.lift (Host.touch (Path.full here (Path.ofText path))))

/-- Loads the settings and makes them hold. Whoever wants to be told everything does not depend on
the level that is set. -/
def prepare (line : Line) : Run m StoredSettings := do
  let opened ← ExceptT.lift (StoredSettings.openAt (line.value? configSwitch))
  let stored ← Run.orCrash .settings opened
  openLog stored.settings
  if line.has verboseSwitch then
    Run.say s!"配置文件: {stored.path}"
  else
    discard <| Run.orCrash .misuse stored.settings.logLevel
  return stored

/-- Names of commands begin with a letter or digit. -/
def looksLikeOption (name : String) : Bool :=
  name.toList.head?.any fun c => c.toNat < 0x80 && !c.isAlphanum

/-- The task of a name. Help is given if the name looks like an option. -/
def task (name : String) : Run m Task :=
  match Task.ofName? name with
  | some task => return task
  | none =>
    if looksLikeOption name then Run.help programForm
    else Run.refuse programForm (.noSuchCommand name)

def perform (words : List String) : Run m Unit := do
  if words.isEmpty then Run.help programForm
  let line ← readLine programForm words
  match line.words with
  | [] => Run.refuse programForm .missingCommand
  | name :: rest =>
    let task ← task name
    let stored ← prepare line
    task.run stored (← readLine task.form rest)

/-- Runs the program on the words of its command line. -/
def run (words : List String) : m Ending := do
  match ← (perform words).run with
  | .ok _ => return .exit 0
  | .error ending => return ending

end Archetype.Command
