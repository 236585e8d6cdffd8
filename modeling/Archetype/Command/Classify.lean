import Archetype.Command.Given
import Archetype.Command.Sources
import Archetype.Data.Json

/-!
The command that classifies one record, which is given as a file or by options.
-/

namespace Archetype.Command

variable {m : Type → Type} [Monad m] [Host m]

def rulesSwitch : Switch := ⟨["--rules"], .path⟩

def categorySwitch : Switch := ⟨["--category"], .text⟩

def colorSwitch : Switch := ⟨["--color"], .text⟩

def cardSwitch : Switch := ⟨["--card"], .text⟩

def wordSwitch : Switch := ⟨["--word"], .text⟩

def jsonSwitch : Switch := ⟨["--json"], .flag⟩

def explainSwitch : Switch := ⟨["--explain"], .flag⟩

/-- The record that options describe. An option for items can be given several times. -/
def optionRecord (line : Line) : Except Record.Fault Record :=
  let items (switch : Switch) : Datum := .list ((line.values switch).map .ofString)
  Record.ofEntries [
    (.text "category", (line.value? categorySwitch).elim .null .ofString),
    (.text "colors", items colorSwitch),
    (.text "cards", items cardSwitch),
    (.text "words", items wordSwitch)]

def lineRecord (line : Line) : Run m Record := do
  match line.word?.filter (!·.isEmpty) with
  | some path => readRecord path
  | none => Run.orCrash (fun fault => .record (.record fault)) (optionRecord line)

/-- Whether classifying a record asks of any node whether it is structural. -/
def meetsMarks (classifier : Classifier) (record : Record) : Bool :=
  classifier.tree.any fun tree =>
    (tree.outline.walk (tree.holds record)).any fun node => !node.isRoot

def verdictDatum (verdict : RuleTree.Verdict) : Datum :=
  .map [(.text "name", .text verdict.name), (.text "level", .int verdict.level),
    (.text "path", .list (verdict.path.map .ofString))]

def levelEntry (level : Nat × List Outline.Node) : Datum × Datum :=
  (.text (toString level.1), .list (level.2.map fun node => .text node.name))

/-- The verdict on a record as a document, with the matches of each level if they are wanted. -/
def resultDatum (classifier : Classifier) (record : Record) (withMatches : Bool) : Datum :=
  let result := (classifier.classify record).elim .null verdictDatum
  let levels := (classifier.explain record).map levelEntry
  .map ((.text "result", result) ::
    if withMatches then [(.text "matches", .map levels)] else [])

/-- The matches of one level; a single one is marked as such. -/
def levelLine (level : Nat × List Outline.Node) : String :=
  let names := ", ".intercalate (level.2.map (·.name))
  let mark := if level.2.length = 1 then "✓" else "✗"
  s!"  [{level.1}] {mark} {names}"

def sayVerdict (verdict : Option RuleTree.Verdict) : Run m Unit := do
  match verdict with
  | none => Run.say "未找到唯一的分类"
  | some verdict =>
    Run.say s!"分类结果: {verdict.name}"
    Run.say ("路径: " ++ " > ".intercalate verdict.path)

def classifyRecord (settings : Settings) (line : Line) : Run m Unit := do
  let classifier ← loadClassifier settings (line.value? rulesSwitch)
  let record ← lineRecord line
  if meetsMarks classifier record then requireMarks settings false
  let explains := line.has explainSwitch
  if line.has jsonSwitch then
    Run.say (Json.write (resultDatum classifier record explains))
  else
    if explains then
      Run.say "=== 各层匹配 ==="
      (classifier.explain record).forM fun level => Run.say (levelLine level)
    sayVerdict (classifier.classify record)

end Archetype.Command
