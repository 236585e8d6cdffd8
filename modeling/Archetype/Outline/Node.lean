import Archetype.Outline.Line

/-!
Nodes of an outline in the order of their lines, and the ways through them.
-/

namespace Archetype.Outline

/-- A rule and its place: `index` among all nodes, `level` below the root, and the line and column
where its condition starts. The root has no line; it has level and index zero. -/
structure Node where
  /-- The name; that of the root only as far as it is a string. -/
  name : String
  expression : String
  level : Nat
  index : Nat
  line : Nat
  column : Nat
  /-- The index of the node above, unless this is the root. -/
  parent : Option Nat
  /-- Whether conditions can mention the node by its name. -/
  isMentionable : Bool := true
deriving DecidableEq, Repr, Inhabited

def Node.isRoot (node : Node) : Bool :=
  node.parent.isNone

/-- The name as far as it is a text. -/
def RootName.shown : RootName → Text
  | .text name => name
  | .unmentioned | .collection _ => ""

/-- The name as a string, which conditions can mention. -/
def RootName.string? : RootName → Option String
  | .text name => name.string?
  | .unmentioned | .collection _ => none

/-- The node above all rules, which holds for every record. -/
def Node.root (name : RootName) : Node where
  name := name.string?.getD ""
  isMentionable := name.string?.isSome
  expression := "true"
  level := 0
  index := 0
  line := 0
  column := 1
  parent := none

/-- The node of the rule of a line, right below another node. -/
def Node.ofLine (line : Line) (above : Node) (index number : Nat) : Node where
  name := String.ofList line.name
  expression := String.ofList line.condition
  level := above.level + 1
  index
  line := number
  column := line.start + 1
  parent := some above.index

end Outline

open Outline

/-- The nodes of an outline in the order of their lines, the root first, and for each of them the
indexes of the nodes right below it. -/
structure Outline where
  format : Format
  nodes : List Node
  below : List (List Nat)
deriving DecidableEq, Repr, Inhabited

namespace Outline

/-- The whole name of a node. -/
def nameOf (outline : Outline) (node : Node) : Text :=
  if node.isRoot then outline.format.rootName.shown else node.name

/-- Structural nodes gather what their children have in common; they are no deck types. -/
def isStructural (outline : Outline) (node : Node) : Bool :=
  outline.format.structuralMark.points.isPrefixOf (outline.nameOf node).points

def node? (outline : Outline) (index : Nat) : Option Node :=
  outline.nodes.find? (·.index == index)

/-- The outline of the root alone. -/
def start (format : Format) : Outline where
  format
  nodes := [.root format.rootName]
  below := [[]]

/-- Adds a node right below another one, behind those that stand there. -/
def addChild (outline : Outline) (above node : Node) : Outline where
  format := outline.format
  nodes := outline.nodes ++ [node]
  below := outline.below.modify above.index (· ++ [node.index]) ++ [[]]

/-- The nodes right below a node, in the order in which they were added. -/
def children (outline : Outline) (index : Nat) : List Node :=
  (outline.below[index]?.getD []).filterMap outline.node?

/-- The nodes met on the way through the nodes of `pending` and all below them, where a node comes
before the nodes below it and the nodes below a node that is not kept are passed over. -/
def walkFrom (outline : Outline) (keep : Node → Bool) : Nat → List Node → List Node
  | 0, _ => []
  | _, [] => []
  | fuel + 1, node :: pending =>
    if keep node then
      node :: walkFrom outline keep fuel (outline.children node.index ++ pending)
    else
      walkFrom outline keep fuel pending

/-- The way from the root through the kept nodes. -/
def walk (outline : Outline) (keep : Node → Bool) : List Node :=
  outline.walkFrom keep outline.nodes.length (outline.nodes.take 1)

/-- All nodes on the way from the root. -/
def preorder (outline : Outline) : List Node :=
  outline.walk fun _ => true

/-- The names from below the root to a node, followed upward for at most `fuel` nodes. -/
def pathFrom (outline : Outline) : Nat → Node → List String
  | 0, _ => []
  | fuel + 1, node =>
    match node.parent with
    | none => []
    | some above =>
      match outline.node? above with
      | none => [node.name]
      | some parent => outline.pathFrom fuel parent ++ [node.name]

/-- The names on the way down to a node; the root has none. -/
def path (outline : Outline) (node : Node) : List String :=
  outline.pathFrom outline.nodes.length node

end Outline

end Archetype
