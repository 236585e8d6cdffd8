import Archetype.Condition.Compiler
import Archetype.Outline.Reading

/-!
Rule trees: outlines whose conditions are compiled. A condition may refer to a rule above it in the
text whose name is unique there. All conditions are compiled or none.
-/

namespace Archetype

open Archetype.Condition Archetype.Outline

structure RuleTree where
  outline : Outline
  /-- What holds of a record at each node, by its index. -/
  predicates : List Predicate

namespace RuleTree

/-- Something wrong with the condition of a rule, at its place in the text of the outline. -/
structure RuleIssue where
  name : String
  line : Nat
  column : Nat
  cause : Cause
deriving DecidableEq, Repr

def RuleIssue.message (issue : RuleIssue) : String :=
  issue.cause.message

def RuleIssue.shown (issue : RuleIssue) : String :=
  s!"Line {issue.line}:{issue.column} [{issue.name}] {issue.message}"

def RuleIssue.ofIssue (node : Node) (issue : Issue) : RuleIssue :=
  ⟨node.name, node.line, node.column + issue.offset, issue.cause⟩

/-- A rule that later rules may refer to. The depth counts the levels of its condition and of the
deepest rule that it refers to; a rule whose condition is refused has depth zero and is never asked,
since the whole tree is refused with it. -/
structure Earlier where
  name : String
  depth : Nat
  holds : Predicate

def Earlier.refused (name : String) (depth : Nat) : Earlier :=
  ⟨name, depth, fun _ => false⟩

/-- The one earlier rule of a name. -/
def resolve (earlier : List Earlier) (name : String) : Except Cause Predicate :=
  match earlier.filter (·.name == name) with
  | [] => .error (.unknownRule name)
  | [rule] => .ok rule.holds
  | _ => .error (.ambiguousRule name)

/-- The depth of the deepest rule that a condition refers to. -/
def referenceDepth (earlier : List Earlier) (expr : Expr) : Nat :=
  let depths := earlier.filter (fun rule => expr.references.contains rule.name) |>.map (·.depth)
  depths.foldl max 0

/-- Compiles the condition of a node after the rules before it. -/
def compileNode (earlier : List Earlier) (node : Node) :
    Except Nat (Earlier × Option RuleIssue) :=
  let refuse (depth : Nat) (issue : Issue) :=
    (Earlier.refused node.name depth, some (RuleIssue.ofIssue node issue))
  match Expr.parse node.expression with
  | .error (.numberTooLong digits) => .error digits
  | .error (.issue issue) => .ok (refuse 0 issue)
  | .ok expr =>
    match expr.compile (some (resolve earlier)) with
    | (.error issue, _) => .ok (refuse 0 issue)
    | (.ok holds, deepest) =>
      let depth := deepest + referenceDepth earlier expr
      if depth > maxDepth then
        .ok (refuse depth ⟨.tooDeepThroughReferences, 0⟩)
      else
        .ok (⟨node.name, depth, holds⟩, none)

/-- Compiles nodes in order: their predicates, and the issues of those that are refused. -/
def compileFrom (earlier : List Earlier) : List Node → Except Nat (List Predicate × List RuleIssue)
  | [] => .ok ([], [])
  | node :: rest => do
    let (rule, issue) ← compileNode earlier node
    let earlier := if node.isMentionable then rule :: earlier else earlier
    let (predicates, issues) ← compileFrom earlier rest
    return (rule.holds :: predicates, issue.toList ++ issues)

/-- Why a text gives no rule tree. -/
inductive Fault where
  | outline (fault : Outline.Fault)
  | conditions (issues : List RuleIssue)
  | format (fault : FormatFault)
  | numberTooLong (digits : Nat)
deriving DecidableEq, Repr

def Fault.message : Fault → String
  | .outline fault => fault.message
  | .conditions issues =>
    "Unable to compile deck types:\n" ++ "\n".intercalate (issues.map RuleIssue.shown)
  | .format fault => fault.message
  | .numberTooLong digits => Text.tooLongMessage digits

/-- Whether the fault lies in the rules. The others end a reload, too. -/
def Fault.isRuleFault : Fault → Bool
  | .outline _ | .conditions _ => true
  | .format _ | .numberTooLong _ => false

def ofOutline (outline : Outline) : Except Fault RuleTree :=
  match compileFrom [] outline.nodes with
  | .error digits => .error (.numberTooLong digits)
  | .ok (predicates, []) => .ok ⟨outline, predicates⟩
  | .ok (_, issues) => .error (.conditions issues)

/-- Trees are made only below a root whose name can be looked up. -/
def checkRoot : RootName → Except Fault Unit
  | .collection typeName => .error (.format (.collectionName typeName))
  | .text _ | .unmentioned => .ok ()

/-- The rule tree that a text describes. -/
def read (format : Format) (text : String) : Except Fault RuleTree :=
  match Outline.read format text with
  | .error (.line fault) => .error (.outline fault)
  | .error (.format fault) => .error (.format fault)
  | .ok outline => do
    checkRoot format.rootName
    ofOutline outline

/-- Whether the condition of a node holds of a record. -/
def holds (tree : RuleTree) (record : Record) (node : Node) : Bool :=
  (tree.predicates[node.index]?).any (· record)

/-- Whether a node can be the type of a deck. -/
def isType (tree : RuleTree) (node : Node) : Bool :=
  !node.isRoot && !tree.outline.isStructural node

/-- The types whose conditions hold, together with those of all nodes above them. The way through
the tree does not go below a node whose condition fails. -/
def matching (tree : RuleTree) (record : Record) : List Node :=
  (tree.outline.walk (tree.holds record)).filter tree.isType

/-- Nodes by level, the levels in ascending order and without the empty ones. -/
def byLevel (nodes : List Node) : List (Nat × List Node) :=
  let top := (nodes.map (·.level)).foldl max 0
  (List.range (top + 1)).filterMap fun level =>
    match nodes.filter (·.level == level) with
    | [] => none
    | found => some (level, found)

/-- The matching types of a record at each level. -/
def explain (tree : RuleTree) (record : Record) : List (Nat × List Node) :=
  byLevel (tree.matching record)

/-- The type of a deck, with the names that lead to it. -/
structure Verdict where
  name : String
  level : Nat
  path : List String
deriving DecidableEq, Repr

/-- The only match of the deepest level that has exactly one. -/
def deepestUnique (levels : List (Nat × List Node)) : Option Node :=
  levels.foldl (fun best (_, nodes) =>
    match nodes with
    | [node] => some node
    | _ => best) none

def classify (tree : RuleTree) (record : Record) : Option Verdict :=
  (deepestUnique (tree.explain record)).map fun node =>
    ⟨node.name, node.level, tree.outline.path node⟩

end RuleTree

end Archetype
