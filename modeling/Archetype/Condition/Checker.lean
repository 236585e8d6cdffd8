import Archetype.Condition.Meaning
import Archetype.Condition.Parser

/-!
Checking a condition: its kinds, its names and its depth are verified while its meaning is built.

The levels of a condition count from one at the whole; a condition may have `maxDepth` of them. The
deepest level that was entered is known also when the check fails.
-/

namespace Archetype.Condition

/-- The most levels of a condition, those of the rules it refers to included. -/
def maxDepth : Nat := 200

/-- What the name of a rule refers to, if conditions can refer to rules at all. -/
abbrev References := Option (String → Except Cause Predicate)

/-- A check carries the deepest level that it entered. -/
abbrev Check (α : Type) := ExceptT Issue (StateM Nat) α

/-- Enters a level at the node of an offset. -/
def enter (level offset : Nat) : Check Unit :=
  if level > maxDepth then throw ⟨.tooDeep, offset⟩ else modify (max level)

def raise {α : Type} (offset : Nat) (cause : Cause) : Check α :=
  throw ⟨cause, offset⟩

/-- What a part has to say about itself is an issue at the offset of its node. -/
def located {α : Type} (offset : Nat) : Except Cause α → Check α
  | .ok value => pure value
  | .error cause => raise offset cause

/-- The rule name that is the only argument of a reference, with its offset. -/
def ruleName? : List Expr → Option (String × Nat)
  | [.literal offset (.text name)] => some (name, offset)
  | _ => none

/-- A call refers to a rule by its name; there is no other function. -/
def reference (references : References) (offset : Nat) (name : String) (args : List Expr) :
    Check Meaning :=
  if canonical name != "matches" then
    raise offset (.unknownName name)
  else
    match ruleName? args with
    | none => raise offset .notRuleName
    | some (rule, place) =>
      match references with
      | none => raise offset .referencesUnavailable
      | some resolve => do return ⟨.bool, ← located place (resolve rule)⟩

/-- A bag has members, and nothing else has. -/
def bagOf (offset : Nat) (name : String) (target : Meaning) : Check (Record → Bag) :=
  match target.bag? with
  | some bag => pure bag
  | none => raise offset (.noMembers target.kind name)

mutual

/-- The meaning of a condition whose outermost node is at `level`. -/
def check (references : References) (level : Nat) : Expr → Check Meaning
  | .literal offset value => do
    enter level offset
    return .ofLiteral value
  | .attribute offset name => do
    enter level offset
    match Meaning.attribute? name with
    | some meaning => return meaning
    | none => raise offset (.unknownName name)
  | .property offset target name => do
    enter level offset
    let bag ← bagOf offset name (← check references (level + 1) target)
    match Meaning.property? bag name with
    | some meaning => return meaning
    | none => raise offset (.unknownProperty name)
  | .method offset target name args => do
    enter level offset
    let bag ← bagOf offset name (← check references (level + 1) target)
    match args, Meaning.property? bag name with
    | [], some meaning => return meaning
    | _, _ =>
      let args ← checkAll references (level + 1) args
      located offset (Meaning.method bag name args)
  | .index offset target key => do
    enter level offset
    let target ← check references (level + 1) target
    match target.bag? with
    | none => raise offset (.notIndexable target.kind)
    | some _ =>
      let key ← check references (level + 1) key
      located offset (Meaning.index target key)
  | .call offset name args => do
    enter level offset
    reference references offset name args
  | .not offset operand => do
    enter level offset
    located offset (← check references (level + 1) operand).not
  | .binary offset left op right => do
    enter level offset
    let left ← check references (level + 1) left
    let right ← check references (level + 1) right
    match Meaning.binary? op left right with
    | some meaning => return meaning
    | none => raise offset (.wrongOperands op left.kind right.kind)

def checkAll (references : References) (level : Nat) : List Expr → Check (List Meaning)
  | [] => return []
  | expr :: rest => do
    let first ← check references level expr
    return first :: (← checkAll references level rest)

end

mutual

/-- The names of the rules that a condition refers to, in the order of their mention. -/
def Expr.references : Expr → List String
  | .literal _ _ | .attribute _ _ => []
  | .property _ target _ => target.references
  | .method _ target _ args => target.references ++ referencesOfAll args
  | .index _ target key => target.references ++ key.references
  | .call _ _ args => ((ruleName? args).map (·.1)).toList
  | .not _ operand => operand.references
  | .binary _ left _ right => left.references ++ right.references

def referencesOfAll : List Expr → List String
  | [] => []
  | expr :: rest => expr.references ++ referencesOfAll rest

end

end Archetype.Condition
