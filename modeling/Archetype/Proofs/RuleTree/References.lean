import Mathlib.Data.List.FinRange
import Archetype.Proofs.Condition.Inlining
import Archetype.RuleTree

/-!
# Rules and what they refer to

References see little of a tree: for each node, in the order of the lines, a name and a condition.
Where the nodes stand below one another is not part of it. A name refers to the one rule of that
name before the rule that mentions it, so references go strictly backward, and both the values of
rules and their conditions without references are found by recursion on the place of a rule.
-/

namespace Archetype.RuleTree

open Archetype.Condition Archetype.Outline

/-- What references see of a node. The name is missing if no condition can mention it. -/
structure Rule where
  name : Option String
  condition : String
deriving DecidableEq, Repr

def Rule.ofNode (node : Node) : Rule where
  name := if node.isMentionable then some node.name else none
  condition := node.expression

def rules (nodes : List Node) : List Rule :=
  nodes.map Rule.ofNode

section Rules

variable (rules : List Rule)

/-- The places before an index at which rules of a name stand. -/
def places (index : Nat) (name : String) : List (Fin index) :=
  (List.finRange index).filter fun place => (rules[place.val]?).any (·.name == some name)

/-- The place of the one rule of a name before an index. -/
def referent? (index : Nat) (name : String) : Option (Fin index) :=
  match places rules index name with
  | [place] => some place
  | _ => none

/-- The condition of the rule at an index, if it can be read. -/
def conditionAt? (index : Nat) : Option Expr := do
  let rule ← rules[index]?
  (Expr.parse rule.condition).toOption

/-- The condition of the rule at an index with every reference replaced by the condition, treated in
the same way, of the rule that is referred to. -/
def inlined? (index : Nat) : Option Expr := do
  let expr ← conditionAt? rules index
  expr.inline fun name => do
    let place ← referent? rules index name
    inlined? place.val
termination_by index
decreasing_by exact place.isLt

/-- The value of the rule that a name refers to, mentioned at an index. -/
def refer (record : Record) (index : Nat) (name : String) : Except Mishap Value :=
  match referent? rules index name with
  | none => .error (.unresolvedRule name)
  | some place =>
    match conditionAt? rules place.val with
    | none => .error (.unresolvedRule name)
    | some expr => expr.eval (fun other => refer record place.val other) record
termination_by index
decreasing_by exact place.isLt

end Rules

theorem referent?_eq_some_iff {rules : List Rule} {index : Nat} {name : String}
    {place : Fin index} :
    referent? rules index name = some place ↔ places rules index name = [place] := by
  unfold referent?
  split
  · next only honly => simp [honly]
  · next hnot =>
    simp only [reduceCtorEq, false_iff]
    exact hnot place

/-- **A condition without references has the value of the condition with them.** The induction is
on the place of the rule, since references go backward. -/
theorem eval_inlined {rules : List Rule} {other : String → Except Mishap Value} {record : Record}
    {index : Nat} : ∀ {expr result : Expr}, conditionAt? rules index = some expr →
      inlined? rules index = some result →
        result.eval other record = expr.eval (refer rules record index) record := by
  induction index using Nat.strongRecOn with
  | ind index ih =>
      intro expr result hexpr hresult
      rw [inlined?, hexpr] at hresult
      refine eval_inline ?_ expr hresult
      intro name found hfound
      obtain ⟨place, hplace, hinlined⟩ := Option.bind_eq_some_iff.mp hfound
      obtain ⟨inner, hinner, -⟩ : ∃ inner, conditionAt? rules place.val = some inner ∧
          inner.inline _ = some found := by
        rw [inlined?] at hinlined
        exact Option.bind_eq_some_iff.mp hinlined
      rw [refer, hplace]
      dsimp only
      rw [hinner]
      exact ih place.val place.isLt hinner hinlined

theorem conditionAt?_of_getElem? {nodes : List Node} {index : Nat} {node : Node}
    (hnode : nodes[index]? = some node) :
    conditionAt? (rules nodes) index = (Expr.parse node.expression).toOption := by
  rw [conditionAt?, rules, List.getElem?_map, hnode]
  rfl

theorem places_succ (rules : List Rule) (index : Nat) (name : String) :
    places rules (index + 1) name = (places rules index name).map Fin.castSucc ++
      if (rules[index]?).any (·.name == some name) then [Fin.last index] else [] := by
  rw [places, List.finRange_succ_last, List.filter_append, List.filter_map]
  congr 1
  rw [List.filter_singleton, cond_eq_ite]
  rfl

end Archetype.RuleTree
