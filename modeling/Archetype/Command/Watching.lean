import Archetype.Command.Classify
import Archetype.Command.Inspect
import Archetype.Watch.Session

/-!
The command that watches a rule file and loads it whenever its contents change.
-/

namespace Archetype.Command

variable {m : Type → Type} [Monad m] [Host m]

def recordSwitch : Switch := ⟨["--record"], .existingPath⟩

def intervalSwitch : Switch := ⟨["--interval", "-i"], .number⟩

/-- The pause between two looks: a given one unless it is zero, or that of the settings. -/
def pauseOf (settings : Settings) (line : Line) : Datum :=
  match (line.value? intervalSwitch).bind fun text => Decimal.readFloat? text.toList with
  | some seconds => if seconds == 0 then settings.watch.interval else .float seconds
  | none => settings.watch.interval

/-- Tells that a tree was loaded, and how it classifies the record at hand. -/
def sayLoaded (settings : Settings) (record : Option Record) (classifier : Classifier) :
    Run m Unit := do
  Run.say s!"🔄 规则树已加载: {ruleCount classifier} 条规则"
  match record with
  | none => return
  | some record =>
    if meetsMarks classifier record then requireMarks settings false
    let name := ((classifier.classify record).map (·.name)).getD "无"
    Run.say s!"   分类结果: {name}"

/-- Tells what came of a reload. -/
def sayOutcome (settings : Settings) (record : Option Record) (outcome : Watch.Outcome)
    (classifier : Classifier) : Run m Unit := do
  match outcome with
  | .unreadable | .unchanged => return
  | .published => sayLoaded settings record classifier
  | .refused fault =>
    warnOfRules fault
    Run.say "⚠️ 保留之前的规则树"
  | .escaped fault => Run.crash (.rules fault)

/-- Loads the file if its contents are new. -/
def look (settings : Settings) (record : Option Record) (session : Watch.Session) :
    Run m Watch.Session := do
  let (outcome, session) ← ExceptT.lift (session.reload none)
  sayOutcome settings record outcome session.reloader.classifier
  return session

/-- A look whose crash does not end the watching. -/
def lookAgain (settings : Settings) (record : Option Record) (session : Watch.Session) :
    m Watch.Session := do
  match ← (look settings record session).run with
  | .ok session => return session
  | .error _ => return session

/-- Watches until the user asks it to stop. -/
def attendRules (settings : Settings) (line : Line) (record : Option Record) (path : Text)
    (session : Watch.Session) : Run m Unit := do
  Run.say ("✅ 正在监听规则文件: " ++ path)
  Run.say "💡 按 Ctrl+C 停止监听"
  ExceptT.lift (Host.attend (pauseOf settings line) session (lookAgain settings record))
  Run.say "\n🛑 收到关闭信号，正在停止监听..."

def watchRules (settings : Settings) (line : Line) : Run m Unit := do
  let path ← ruleFile settings line.word?
  let record ← match line.value? recordSwitch with
    | some file => some <$> readRecord file
    | none => pure none
  let classifier ← Run.orCrash (fun _ => .notWatching) settings.classifier
  let session ← tryCatch (look settings record ⟨Path.ofText path, { classifier }⟩) fun _ =>
    Run.crash .notWatching
  Run.andFinally (attendRules settings line record path session) (Run.say "监听已停止")

end Archetype.Command
