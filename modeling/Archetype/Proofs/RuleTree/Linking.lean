import Archetype.Proofs.Condition.Soundness
import Archetype.Proofs.RuleTree.Compiling
import Archetype.Proofs.RuleTree.References

/-!
# References of an accepted tree

While a tree is compiled, the earlier rules are kept with their predicates, the last one first.
Under each name they are the rules of that name before the node, so what a name resolves to is the
predicate of the rule that it refers to. From there on both directions are inductions on the place
of a rule: its condition evaluates to its predicate, and its references can all be replaced.
-/

namespace Archetype.RuleTree

open Archetype.Condition Archetype.Outline

/-- A rule is remembered under its name, if it can be mentioned at all. -/
theorem filter_remembered {node : Node} {rule : Earlier} (hrule : rule.name = node.name)
    (earlier : List Earlier) (name : String) :
    (if node.isMentionable then rule :: earlier else earlier).filter (·.name == name) =
      (if (Rule.ofNode node).name == some name then [rule] else []) ++
        earlier.filter (·.name == name) := by
  by_cases hmention : node.isMentionable = true
  · have hbears : ((Rule.ofNode node).name == some name) = (rule.name == name) := by
      rw [Rule.ofNode, if_pos hmention, hrule]
      rfl
    rw [if_pos hmention, hbears, List.filter_cons]
    split <;> rfl
  · have hbears : ((Rule.ofNode node).name == some name) = false := by
      rw [Rule.ofNode, if_neg hmention]
      rfl
    rw [if_neg hmention, hbears]
    rfl

/-- What is known of the rules of a name, as far as `value` tells it from their places. -/
theorem map_filter_earlierBefore_succ {α : Type} {say : Earlier → α} (value : Nat → α)
    {nodes : List Node} {index : Nat} {node : Node} {rule : Earlier} {issue : Option RuleIssue}
    (hnode : nodes[index]? = some node)
    (hrule : compileNode (earlierBefore nodes index) node = .ok (rule, issue))
    (hvalue : say rule = value index) {name : String}
    (hbefore : ((earlierBefore nodes index).filter (·.name == name)).map say =
      (places (rules nodes) index name).reverse.map fun place => value place.val) :
    ((earlierBefore nodes (index + 1)).filter (·.name == name)).map say =
      (places (rules nodes) (index + 1) name).reverse.map fun place => value place.val := by
  have hat : (rules nodes)[index]? = some (Rule.ofNode node) := by
    rw [rules, List.getElem?_map, hnode]
    rfl
  have hname := (outcome_of_compileNode hrule).name_eq
  rw [earlierBefore_succ hnode hrule, filter_remembered hname, places_succ, hat, Option.any_some,
    List.map_append, hbefore, List.reverse_append, List.map_append, ← List.map_reverse,
    List.map_map]
  congr 1
  split
  · simp [hvalue]
  · rfl

section Accepted

variable {nodes : List Node} {predicates : List Predicate}
  (hcompile : compileFrom [] nodes = .ok (predicates, []))
include hcompile

/-- **The earlier rules of a name are the rules of that name before the node.** -/
theorem filter_earlierBefore (name : String) : ∀ index ≤ nodes.length,
    ((earlierBefore nodes index).filter (·.name == name)).map (fun rule => some rule.holds) =
      (places (rules nodes) index name).reverse.map fun place => predicates[place.val]? := by
  intro index
  induction index with
  | zero =>
      intro _
      rfl
  | succ index ih =>
      intro hindex
      have hnode : nodes[index]? = some nodes[index] := List.getElem?_eq_getElem hindex
      generalize nodes[index] = node at hnode
      obtain ⟨rule, hrule, hholds⟩ := compileNode_of_getElem? hcompile hnode
      exact map_filter_earlierBefore_succ (fun place => predicates[place]?) hnode hrule hholds.symm
        (ih (Nat.le_of_succ_le hindex))

/-- What a name resolves to is the predicate of the rule that it refers to. -/
theorem exists_referent_of_resolve {index : Nat} (hindex : index ≤ nodes.length) {name : String}
    {holds : Predicate} (hresolve : resolve (earlierBefore nodes index) name = .ok holds) :
    ∃ place, referent? (rules nodes) index name = some place ∧
      predicates[place.val]? = some holds := by
  have hfilter := filter_earlierBefore hcompile name index hindex
  unfold resolve at hresolve
  split at hresolve
  · cases hresolve
  · next rule hone =>
    cases hresolve
    rw [hone, List.map_singleton] at hfilter
    obtain ⟨place, hplace⟩ : ∃ place, places (rules nodes) index name = [place] := by
      have hlength := congrArg List.length hfilter
      rw [List.length_map, List.length_reverse] at hlength
      exact List.length_eq_one_iff.mp hlength.symm
    rw [hplace] at hfilter
    refine ⟨place, ?_, ?_⟩
    · exact referent?_eq_some_iff.mpr hplace
    · exact (List.cons.inj hfilter).1.symm
  · cases hresolve

/-- A node compiles with what is known at its index, and its condition is that of its rule. -/
theorem exists_compiles {index : Nat} {node : Node} (hnode : nodes[index]? = some node) :
    ∃ expr holds, Compiles (earlierBefore nodes index) node expr holds ∧
      conditionAt? (rules nodes) index = some expr ∧ predicates[index]? = some holds := by
  obtain ⟨rule, hrule, hholds⟩ := compileNode_of_getElem? hcompile hnode
  obtain ⟨expr, hexpr⟩ := (outcome_of_compileNode hrule).compiles
  refine ⟨expr, rule.holds, hexpr, ?_, hholds⟩
  rw [conditionAt?_of_getElem? hnode, hexpr.parse]
  rfl

/-- **References evaluate to the predicates that they resolve to.** -/
theorem agree_refer (record : Record) {index : Nat} : index ≤ nodes.length →
    References.Agree (some (resolve (earlierBefore nodes index)))
      (refer (rules nodes) record index) record := by
  induction index using Nat.strongRecOn with
  | ind index ih =>
      intro hindex resolve' hsome name holds hholds
      cases hsome
      obtain ⟨place, hplace, hpredicate⟩ := exists_referent_of_resolve hcompile hindex hholds
      have hbefore : place.val < nodes.length := Nat.lt_of_lt_of_le place.isLt hindex
      obtain ⟨expr, holds', hcompiles, hexpr, hpredicate'⟩ :=
        exists_compiles hcompile (List.getElem?_eq_getElem hbefore)
      obtain ⟨deepest, hcheck⟩ := hcompiles.check
      have hagree := ih place.val place.isLt (Nat.le_of_lt hbefore)
      have heval := eval_of_check hagree expr (gives_of_compile hcheck)
      rw [hpredicate] at hpredicate'
      rw [refer, hplace]
      dsimp only
      rw [hexpr, Option.some.inj hpredicate']
      exact heval

/-- **The references of every condition can all be replaced.** -/
theorem exists_inlined {index : Nat} : index < nodes.length →
    ∃ result, inlined? (rules nodes) index = some result ∧ result.CallFree := by
  induction index using Nat.strongRecOn with
  | ind index ih =>
      intro hindex
      obtain ⟨expr, holds, hcompiles, hexpr, -⟩ :=
        exists_compiles hcompile (List.getElem?_eq_getElem hindex)
      obtain ⟨deepest, hcheck⟩ := hcompiles.check
      rw [inlined?, hexpr]
      refine exists_inline_of_check ?_ expr (gives_of_compile hcheck)
      intro resolve' hsome name found hfound
      cases hsome
      obtain ⟨place, hplace, -⟩ :=
        exists_referent_of_resolve hcompile (Nat.le_of_lt hindex) hfound
      obtain ⟨result, hresult, hfree⟩ :=
        ih place.val place.isLt (Nat.lt_trans place.isLt hindex)
      refine ⟨result, ?_, hfree⟩
      rw [hplace]
      exact hresult

end Accepted

end Archetype.RuleTree
