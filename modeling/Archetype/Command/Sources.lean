import Archetype.Command.Ending

/-!
The files that commands work on, and what is said when one of them is missing or faulty.
-/

namespace Archetype.Command

variable {m : Type → Type} [Monad m] [Host m]

/-- The rule file to work on: a named one, or one that the settings lead to. -/
def ruleFile (settings : Settings) (named : Option String) : Run m Text := do
  let found ← ExceptT.lift (settings.ruleFile? named)
  match ← Run.orCrash .misuse found with
  | some path => return path
  | none =>
    let wanted ← match named.filter (!·.isEmpty) with
      | some path => pure (Text.ofString path)
      | none => Run.orCrash .misuse (Settings.shown settings.rules.rulesFile)
    Run.fail ("❌ 找不到规则文件: " ++ wanted)

/-- What faults of rules are called. -/
def faultName : RuleTree.Fault → String
  | .conditions _ => "CompileError"
  | _ => "StructuralError"

/-- The lines that tell the faults of rules. -/
def faultLines (fault : RuleTree.Fault) : List String :=
  match fault with
  | .conditions issues => issues.map (·.shown)
  | _ => [fault.message]

def warnOfRules (fault : RuleTree.Fault) : Run m Unit := do
  Run.warn s!"❌ 规则树加载失败: {faultName fault}"
  (faultLines fault).forM fun line => Run.warn s!"   {line}"

/-- A classifier with the tree of the rule file. -/
def loadClassifier (settings : Settings) (named : Option String) : Run m Classifier := do
  let path ← ruleFile settings named
  let empty ← Run.orCrash .misuse settings.classifier
  match ← ExceptT.lift (empty.loadFile (Path.ofText path)) with
  | .ok classifier => return classifier
  | .error (.tree fault) =>
    if fault.isRuleFault then
      warnOfRules fault
      throw (.exit 1)
    else
      Run.crash (.rules (.tree fault))
  | .error fault => Run.crash (.rules fault)

/-- The record of a file. Faults of its contents are told, others are not foreseen. -/
def readRecord (path : String) : Run m Record := do
  let contents ← ExceptT.lift (Host.read path)
  match Record.ofFile path contents with
  | .ok record => return record
  | .error fault =>
    if fault.isForeseen then Run.fail s!"❌ {fault.message}" else Run.crash (.record fault)

/-- Structural nodes are told from others only if the settings allow it. -/
def requireMarks (settings : Settings) (usesRoot : Bool) : Run m Unit :=
  match settings.structuralMisuse usesRoot with
  | some misuse => Run.crash (.misuse misuse)
  | none => return

end Archetype.Command
