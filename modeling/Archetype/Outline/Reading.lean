import Archetype.Outline.Node
import Archetype.Text.Lines

/-!
Reading an outline line by line. A draft keeps the nodes that the next rule can stand below, one for
each depth up to that of the last rule.
-/

namespace Archetype.Outline

open Archetype.Text

/-- A defect with its line, counted from one. -/
structure Fault where
  defect : Defect
  number : Nat
  line : String
deriving DecidableEq, Repr

def Fault.message (fault : Fault) : String :=
  s!"Invalid tree structure at line {fault.number} ({fault.defect.reason}): {fault.line}"

/-- Why a text is no outline: one of its lines, or a format that does not fit. -/
inductive ReadFault where
  | line (fault : Fault)
  | format (fault : FormatFault)
deriving DecidableEq, Repr

/-- The rule of a numbered line. -/
def readLine (format : Format) (limit number : Nat) (line : List Char) : Except ReadFault Line :=
  (Line.read format limit line).mapError fun
    | .defect defect => .line ⟨defect, number, String.ofList line⟩
    | .format fault => .format fault

/-- The nodes that rules can stand below: `above` is for a rule as deep as the last one, and `outer`
are the nodes for less deep ones, the innermost first. -/
structure Levels where
  above : Node
  outer : List Node

def Levels.push (levels : Levels) (node : Node) : Levels :=
  ⟨node, levels.above :: levels.outer⟩

/-- The levels without the innermost one. The root is always left. -/
def Levels.pop (levels : Levels) : Levels :=
  match levels.outer with
  | [] => levels
  | above :: outer => ⟨above, outer⟩

/-- The levels without the innermost `count` ones. -/
def Levels.leave (levels : Levels) : (count : Nat) → Levels
  | 0 => levels
  | count + 1 => levels.pop.leave count

/-- An outline that is being read. -/
structure Draft where
  outline : Outline
  levels : Levels
  /-- The node of the last rule, or the root. -/
  last : Node
  /-- How deep the next rule may stand: one deeper than the last one. -/
  limit : Nat

namespace Draft

def start (format : Format) : Draft where
  outline := .start format
  levels := ⟨.root format.rootName, []⟩
  last := .root format.rootName
  limit := 0

/-- The levels for a rule of some depth. A rule one deeper than the last one stands below it, and a
less deep one closes the levels in between. -/
def levelsFor (draft : Draft) (depth : Nat) : Levels :=
  let levels :=
    if depth = draft.limit ∧ 0 < draft.limit then draft.levels.push draft.last else draft.levels
  levels.leave (draft.limit - (depth + 1))

/-- The draft with the rule of a line. -/
def add (draft : Draft) (number : Nat) (line : Line) : Draft :=
  let levels := draft.levelsFor line.depth
  let node := Node.ofLine line levels.above draft.outline.nodes.length number
  { outline := draft.outline.addChild levels.above node
    levels
    last := node
    limit := line.depth + 1 }

/-- The draft with one more line. -/
def read (draft : Draft) (entry : List Char × Nat) : Except ReadFault Draft :=
  if draft.outline.format.ignoreBlankLines && isBlankText entry.1 then
    .ok draft
  else
    (readLine draft.outline.format draft.limit entry.2 entry.1).map (draft.add entry.2)

end Draft

/-- The outline that a text describes. -/
def read (format : Format) (text : String) : Except ReadFault Outline :=
  (((lines text.toList).zipIdx 1).foldlM Draft.read (.start format)).map (·.outline)

end Archetype.Outline
