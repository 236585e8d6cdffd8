import Archetype.Condition.Checker

/-!
Compiling conditions, one by itself or one after the other. A compiler counts the levels of the
condition that it is in: it enters a level for a node and leaves it when the node has a meaning. An
issue ends the work in the middle and leaves the levels entered that were entered then, so the count
starts again with the next condition that can be read.
-/

namespace Archetype.Condition

/-- A whole condition must be a truth value. -/
def checkWhole (references : References) (expr : Expr) : Check Predicate := do
  match ← check references 1 expr with
  | ⟨.bool, holds⟩ => return holds
  | ⟨kind, _⟩ => raise expr.offset (.notBool kind)

/-- The predicate of a condition or what is wrong with it, and the deepest level entered. -/
def Expr.compile (references : References) (expr : Expr) : Except Issue Predicate × Nat :=
  (checkWhole references expr).run.run 0

/-- How many levels are entered, and how many were entered at most. -/
structure Compiler where
  level : Nat := 0
  deepest : Nat := 0
deriving DecidableEq, Repr

namespace Compiler

/-- A step of a compiler has a result or an issue; either way the compiler goes on from where the
step has left it. -/
abbrev Step (α : Type) := ExceptT Issue (StateM Compiler) α

/-- What is checked at a level that is known. -/
def Step.ofCheck {α : Type} (check : Check α) : Step α :=
  ExceptT.mk fun compiler =>
    let (outcome, deepest) := check.run.run compiler.deepest
    (outcome, { compiler with deepest })

instance : MonadLift Check Step := ⟨Step.ofCheck⟩

/-- A step at the level of a node. The level is left only if the step has a result. -/
def within {α : Type} (offset : Nat) (step : Step α) : Step α := do
  modifyThe Compiler fun compiler => { compiler with level := compiler.level + 1 }
  enter (← getThe Compiler).level offset
  let result ← step
  modifyThe Compiler fun compiler => { compiler with level := compiler.level - 1 }
  return result

mutual

/-- The meaning of a condition that stands below the levels entered. -/
def meaning (references : References) : Expr → Step Meaning
  | .literal offset value => within offset do
    return .ofLiteral value
  | .attribute offset name => within offset do
    match Meaning.attribute? name with
    | some meaning => return meaning
    | none => raise offset (.unknownName name)
  | .property offset target name => within offset do
    let bag ← bagOf offset name (← meaning references target)
    match Meaning.property? bag name with
    | some meaning => return meaning
    | none => raise offset (.unknownProperty name)
  | .method offset target name args => within offset do
    let bag ← bagOf offset name (← meaning references target)
    match args, Meaning.property? bag name with
    | [], some meaning => return meaning
    | _, _ =>
      let args ← meanings references args
      located offset (Meaning.method bag name args)
  | .index offset target key => within offset do
    let target ← meaning references target
    match target.bag? with
    | none => raise offset (.notIndexable target.kind)
    | some _ =>
      let key ← meaning references key
      located offset (Meaning.index target key)
  | .call offset name args => within offset do
    reference references offset name args
  | .not offset operand => within offset do
    located offset (← meaning references operand).not
  | .binary offset left op right => within offset do
    let left ← meaning references left
    let right ← meaning references right
    match Meaning.binary? op left right with
    | some meaning => return meaning
    | none => raise offset (.wrongOperands op left.kind right.kind)

def meanings (references : References) : List Expr → Step (List Meaning)
  | [] => return []
  | expr :: rest => do
    let first ← meaning references expr
    return first :: (← meanings references rest)

end

/-- The count starts anew, and what the condition means must be a truth value. -/
def predicate (references : References) (expr : Expr) : Step Predicate := do
  set ({} : Compiler)
  match ← meaning references expr with
  | ⟨.bool, holds⟩ => return holds
  | ⟨kind, _⟩ => raise expr.offset (.notBool kind)

/-- A text that cannot be read leaves the compiler as it was. -/
def compile (compiler : Compiler) (references : References) (text : String) :
    Except Failure Predicate × Compiler :=
  match Expr.parse text with
  | .error failure => (.error failure, compiler)
  | .ok expr =>
    let (outcome, later) := (predicate references expr).run.run compiler
    (outcome.mapError .issue, later)

end Compiler

/-- The predicate of a condition that refers to no rule. -/
def compile (text : String) : Except Failure Predicate :=
  (Compiler.compile {} none text).1

end Archetype.Condition
