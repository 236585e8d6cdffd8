import Archetype.Command.Given
import Archetype.Command.Sources

/-!
The commands that show settings and rule trees.
-/

namespace Archetype.Command

variable {m : Type → Type} [Monad m] [Host m]

/-- Writes a settings file with the settings that hold when there is none. -/
def initialSettings (stored : StoredSettings) : Run m Unit := do
  Run.orCrash .file (← ExceptT.lift stored.fresh.save)
  Run.say s!"配置文件已保存: {stored.path}"

/-- The text that a setting stands for. -/
def shown (datum : Datum) : Run m Text :=
  Run.orCrash .misuse (Settings.shown datum)

def showSettings (stored : StoredSettings) : Run m Unit := do
  let settings := stored.settings
  let rules := settings.rules
  Run.say "=== 系统配置信息 ==="
  Run.say s!"配置文件: {stored.path}"
  Run.say ("规则文件: " ++ (← shown rules.rulesFile))
  Run.say ("备选路径: " ++ (← Run.orCrash .misuse settings.searchPathsText))
  let marks := "层级标记: " ++ (← shown rules.depthMarker)
  Run.say (marks ++ "  分隔符: " ++ (← shown rules.separator))
  Run.say ("结构节点前缀: " ++ (← shown rules.structuralMarker))
  Run.say ("根节点: " ++ (← shown rules.rootName))
  unless (← Run.orCrash .misuse settings.complaints).isEmpty do
    Run.fail "⚠️ 配置存在问题，详见日志"

def isStructural (classifier : Classifier) (node : Outline.Node) : Bool :=
  classifier.tree.any (·.outline.isStructural node)

/-- How many rules a classifier holds; the root is none. -/
def ruleCount (classifier : Classifier) : Nat :=
  classifier.nodeCount - 1

def checkRules (settings : Settings) (line : Line) : Run m Unit := do
  let classifier ← loadClassifier settings line.word?
  requireMarks settings true
  let structural := classifier.nodes.countP (isStructural classifier)
  Run.say s!"✅ 规则树有效: {ruleCount classifier} 条规则（{structural} 个结构节点）"

def expressionsSwitch : Switch := ⟨["--expressions", "-e"], .flag⟩

/-- The lines that show a node: its name, and its condition if that is wanted. -/
def nodeLines (classifier : Classifier) (withCondition : Bool) (node : Outline.Node) :
    List Text :=
  let indent := String.ofList (List.replicate (2 * node.level) ' ')
  let mark := if isStructural classifier node then " (结构)" else ""
  let name := indent ++ classifier.nameOf node ++ mark
  if withCondition then [name, indent ++ "  " ++ node.expression] else [name]

def showTree (settings : Settings) (line : Line) : Run m Unit := do
  let classifier ← loadClassifier settings line.word?
  requireMarks settings true
  let lines := classifier.nodes.flatMap (nodeLines classifier (line.has expressionsSwitch))
  lines.forM fun line => Run.say line

end Archetype.Command
