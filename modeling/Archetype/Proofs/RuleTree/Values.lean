import Archetype.Proofs.Condition.Reuse
import Archetype.Proofs.Outline.Linkage
import Archetype.Proofs.RuleTree.Linking

/-!
# What the predicates of a tree are worth

The predicate of a node is the value of its condition, with the rules that it refers to evaluated
in the same way, and also the value of the condition that is left when all references are replaced.
Neither depends on where the nodes stand below one another, or on which nodes a way through the
tree passes over. No evaluation goes wrong.
-/

namespace Archetype.RuleTree

open Archetype.Condition Archetype.Outline

section Tree

variable {format : Format} {text : String} {tree : RuleTree}
  (hread : RuleTree.read format text = .ok tree)
include hread

theorem outline_of_read : Outline.read format text = .ok tree.outline ∧
    compileFrom [] tree.outline.nodes = .ok (tree.predicates, []) := by
  unfold RuleTree.read at hread
  cases houtline : Outline.read format text with
  | error fault =>
      rw [houtline] at hread
      cases fault with
      | line fault => cases hread
      | format fault => cases hread
  | ok outline =>
      rw [houtline] at hread
      obtain ⟨-, -, hmake⟩ := exists_of_bind_eq_ok hread
      obtain ⟨rfl, hcompile⟩ := compileFrom_of_ofOutline hmake
      exact ⟨rfl, hcompile⟩

theorem getElem?_index_of_read {node : Node} (hnode : node ∈ tree.outline.nodes) :
    tree.outline.nodes[node.index]? = some node :=
  (linked_of_read (outline_of_read hread).1).getElem?_index hnode

/-- The predicate of a node and the condition that it was compiled from. -/
theorem exists_compiles_of_read {node : Node} (hnode : node ∈ tree.outline.nodes) :
    ∃ expr holds, Compiles (earlierBefore tree.outline.nodes node.index) node expr holds ∧
      conditionAt? (rules tree.outline.nodes) node.index = some expr ∧
      ∀ record, tree.holds record node = holds record := by
  obtain ⟨-, hcompile⟩ := outline_of_read hread
  obtain ⟨expr, holds, hcompiles, hexpr, hholds⟩ :=
    exists_compiles hcompile (getElem?_index_of_read hread hnode)
  refine ⟨expr, holds, hcompiles, hexpr, ?_⟩
  intro record
  rw [RuleTree.holds, hholds]
  rfl

theorem agree_of_read (record : Record) {node : Node} (hnode : node ∈ tree.outline.nodes) :
    References.Agree (some (resolve (earlierBefore tree.outline.nodes node.index)))
      (refer (rules tree.outline.nodes) record node.index) record := by
  obtain ⟨hindex, -⟩ := List.getElem?_eq_some_iff.mp (getElem?_index_of_read hread hnode)
  exact agree_refer (outline_of_read hread).2 record (Nat.le_of_lt hindex)

theorem exists_inlined_of_read {node : Node} (hnode : node ∈ tree.outline.nodes) :
    ∃ expr, inlined? (rules tree.outline.nodes) node.index = some expr ∧ expr.CallFree ∧
      ∀ record, expr.eval noRules record = .ok (.bool (tree.holds record node)) := by
  obtain ⟨hindex, -⟩ := List.getElem?_eq_some_iff.mp (getElem?_index_of_read hread hnode)
  obtain ⟨result, hresult, hfree⟩ := exists_inlined (outline_of_read hread).2 hindex
  obtain ⟨expr, holds, hcompiles, hexpr, hholds⟩ := exists_compiles_of_read hread hnode
  obtain ⟨deepest, hcheck⟩ := hcompiles.check
  refine ⟨result, hresult, hfree, ?_⟩
  intro record
  rw [eval_inlined hexpr hresult, hholds]
  exact eval_of_check (agree_of_read hread record hnode) expr (gives_of_compile hcheck)

/-- **Predicates are the values of conditions without references.** The condition of a node, with
each reference replaced by the condition of the one earlier rule of that name and so on, mentions no
rule any more and evaluates to what the predicate says. It is made of names and conditions in their
order alone: a tree of the same rules holds of the same records, whatever its links. -/
theorem holds_eq_eval_inlined :
    (∀ node ∈ tree.outline.nodes,
      ∃ expr, inlined? (rules tree.outline.nodes) node.index = some expr ∧ expr.CallFree ∧
        ∀ record, expr.eval noRules record = .ok (.bool (tree.holds record node))) ∧
    (∀ (otherFormat : Format) (otherText : String) (other : RuleTree),
      RuleTree.read otherFormat otherText = .ok other →
      rules other.outline.nodes = rules tree.outline.nodes →
      ∀ node ∈ tree.outline.nodes, ∀ twin ∈ other.outline.nodes, twin.index = node.index →
        ∀ record, other.holds record twin = tree.holds record node) := by
  refine ⟨fun node hnode => exists_inlined_of_read hread hnode, ?_⟩
  intro otherFormat otherText other hother hrules node hnode twin htwin hindex record
  obtain ⟨expr, hexpr, -, hvalue⟩ := exists_inlined_of_read hread hnode
  obtain ⟨expr', hexpr', -, hvalue'⟩ := exists_inlined_of_read hother htwin
  rw [hrules, hindex, hexpr] at hexpr'
  have hsame := hvalue' record
  rw [← Option.some.inj hexpr', hvalue record] at hsame
  exact (Value.bool.inj (Except.ok.inj hsame)).symm

end Tree

theorem eval_inlined_of_backward_reference :
    ∃ tree, RuleTree.read {} "A|Colors.Count > 0\n|B|!matches(\"A\")" = .ok tree ∧
      ∃ node ∈ tree.outline.nodes, node.expression = "!matches(\"A\")" ∧
        ∃ expr, inlined? (rules tree.outline.nodes) node.index = some expr ∧ expr.CallFree ∧
          ∀ record, expr.eval noRules record = .ok (.bool (tree.holds record node)) := by
  have hconditions : (RuleTree.read {} "A|Colors.Count > 0\n|B|!matches(\"A\")").map
      (fun tree => tree.outline.nodes.map (·.expression)) =
        .ok ["true", "Colors.Count > 0", "!matches(\"A\")"] := by
    decide +kernel
  obtain ⟨tree, hread, hexpressions⟩ := exists_of_map_eq_ok hconditions
  have hmem : "!matches(\"A\")" ∈ tree.outline.nodes.map (·.expression) := by
    rw [hexpressions]
    simp
  obtain ⟨node, hnode, hcondition⟩ := List.mem_map.mp hmem
  exact ⟨tree, hread, node, hnode, hcondition, (holds_eq_eval_inlined hread).1 node hnode⟩

/-! ### Nothing goes wrong -/

theorem exists_gives_of_compile_text {text : String} {holds : Predicate}
    (hcompile : Condition.compile text = .ok holds) :
    ∃ expr, Expr.parse text = .ok expr ∧ (check none 1 expr).Gives ⟨.bool, holds⟩ := by
  rw [Condition.compile, Compiler.fst_compile] at hcompile
  obtain ⟨expr, hparse, hchecked⟩ := exists_of_bind_eq_ok hcompile
  cases hrun : expr.compile none with
  | mk outcome deepest =>
      rw [hrun] at hchecked
      cases eq_ok_of_mapError hchecked
      exact ⟨expr, hparse, gives_of_compile hrun⟩

/-- **Accepted conditions evaluate to truth values, and all their parts to values of their kinds**,
for a condition by itself and for every node of a tree. -/
theorem kindsKept_of_accepted :
    (∀ (text : String) (holds : Predicate), Condition.compile text = .ok holds →
      ∃ expr, Expr.parse text = .ok expr ∧ ∀ record,
        expr.eval noRules record = .ok (.bool (holds record)) ∧
        KindsKept none noRules record expr) ∧
    (∀ (format : Format) (text : String) (tree : RuleTree),
      RuleTree.read format text = .ok tree → ∀ node ∈ tree.outline.nodes,
        ∃ expr, Expr.parse node.expression = .ok expr ∧ ∀ record,
          expr.eval (refer (rules tree.outline.nodes) record node.index) record =
            .ok (.bool (tree.holds record node)) ∧
          KindsKept (some (resolve (earlierBefore tree.outline.nodes node.index)))
            (refer (rules tree.outline.nodes) record node.index) record expr) := by
  constructor
  · intro text holds hcompile
    obtain ⟨expr, hparse, hgives⟩ := exists_gives_of_compile_text hcompile
    refine ⟨expr, hparse, ?_⟩
    intro record
    have hagree := agree_none noRules record
    exact ⟨eval_of_check hagree expr hgives, kindsKept_of_check hagree hgives⟩
  · intro format text tree hread node hnode
    obtain ⟨expr, holds, hcompiles, -, hholds⟩ := exists_compiles_of_read hread hnode
    obtain ⟨deepest, hcheck⟩ := hcompiles.check
    refine ⟨expr, hcompiles.parse, ?_⟩
    intro record
    have hagree := agree_of_read hread record hnode
    have hgives := gives_of_compile hcheck
    rw [hholds]
    exact ⟨eval_of_check hagree expr hgives, kindsKept_of_check hagree hgives⟩

theorem kindsKept_of_absent_category :
    (∃ holds, Condition.compile "Category == null || Cards[Category] >= 2" = .ok holds ∧
      ∃ expr, Expr.parse "Category == null || Cards[Category] >= 2" = .ok expr ∧ ∀ record,
        expr.eval noRules record = .ok (.bool (holds record)) ∧
        KindsKept none noRules record expr) ∧
    ∃ tree, RuleTree.read {} "A|Colors.Count > 0\n|B|!matches(\"A\")" = .ok tree ∧
      ∀ node ∈ tree.outline.nodes, ∃ expr, Expr.parse node.expression = .ok expr ∧ ∀ record,
        expr.eval (refer (rules tree.outline.nodes) record node.index) record =
          .ok (.bool (tree.holds record node)) ∧
        KindsKept (some (resolve (earlierBefore tree.outline.nodes node.index)))
          (refer (rules tree.outline.nodes) record node.index) record expr := by
  have haccepted : (Condition.compile "Category == null || Cards[Category] >= 2").map
      (fun _ => ()) = .ok () := by
    decide +kernel
  have hmade : (RuleTree.read {} "A|Colors.Count > 0\n|B|!matches(\"A\")").map
      (fun _ => ()) = .ok () := by
    decide +kernel
  obtain ⟨holds, hcompile, -⟩ := exists_of_map_eq_ok haccepted
  obtain ⟨tree, hread, -⟩ := exists_of_map_eq_ok hmade
  exact ⟨⟨holds, hcompile, kindsKept_of_accepted.1 _ holds hcompile⟩,
    tree, hread, kindsKept_of_accepted.2 _ _ tree hread⟩

end Archetype.RuleTree
