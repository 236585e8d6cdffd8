import Archetype.Proofs.Condition.Pointing
import Archetype.Proofs.Outline.Positions
import Archetype.Proofs.RuleTree.Refusals

/-!
# Where issues point

An issue of a rule tree has the line of its node and a column of that line. The column is that of
the condition together with the place inside the condition, so it is in the condition or right
behind it. Lines rise, since nodes come in the order of their lines and each has one issue at most;
the root has none.
-/

namespace Archetype.RuleTree

open Archetype.Condition Archetype.Outline

theorem parse_true : Expr.parse "true" = .ok (.literal 0 (.bool true)) := by
  have htokens : tokenize "true".toList = .ok [⟨.word "true", 0⟩] := by decide +kernel
  have hvalue : Derives (maxNesting - 1) .primary [⟨.word "true", 0⟩] (.literal 0 (.bool true)) :=
    .value rfl (by decide +kernel)
  rw [parse_of_tokenize htokens]
  refine ofTokens_of_derives (by decide) (.conjunction (.negation (.comparison ?_ ?_)))
  · exact .sum (.operand (.primary hvalue))
  · intro token hhead hspells
    cases hhead
    have hnone : keyword? "true" = none := by decide +kernel
    have hsymbol : keyword? "true" = some .not := spells_iff.mp hspells
    rw [hnone] at hsymbol
    cases hsymbol

/-- The condition of the root is never refused. -/
theorem not_refused_root {nodes : List Node} {name : RootName}
    (hroot : nodes[0]? = some (.root name)) : ¬ Refused (rules nodes) 0 := by
  have hexpr : conditionAt? (rules nodes) 0 = some (.literal 0 (.bool true)) := by
    rw [conditionAt?_of_getElem? hroot]
    change (Expr.parse "true").toOption = _
    rw [parse_true]
    rfl
  refine not_refused_of_depthless hexpr ⟨.literal, by decide⟩ ?_
  simp [Expr.references]

/-- An issue is in the condition of its node or right behind it. -/
theorem Outcome.column_bounds {earlier : List Earlier} {node : Node} {rule : Earlier}
    {issue : RuleIssue} (houtcome : Outcome earlier node rule (some issue)) :
    node.column ≤ issue.column ∧ issue.column ≤ node.column + node.expression.length := by
  cases houtcome with
  | unreadable hparse =>
      have hoffset := offset_le_of_parse_error hparse
      simp only [RuleIssue.ofIssue]
      omega
  | rejected hparse hcheck =>
      have hoffset := offset_lt_of_compile_error hparse hcheck
      simp only [RuleIssue.ofIssue]
      omega
  | tooDeep hparse hcheck hdepth =>
      simp only [RuleIssue.ofIssue]
      omega

section Reading

variable {format : Format} {text : String} {outline : Outline}
  (hread : Outline.read format text = .ok outline)
include hread

theorem not_isRoot_of_refused {node : Node} (hnode : node ∈ refusedNodes outline.nodes) :
    node ∈ outline.nodes ∧ node.isRoot = false := by
  have hlinked := linked_of_read hread
  obtain ⟨hmem, hrefused⟩ := List.mem_filter.mp hnode
  refine ⟨hmem, ?_⟩
  by_cases hzero : node.index = 0
  · have hroot := hlinked.getElem?_index hmem
    rw [hzero, hlinked.eq_root_of_index_eq_zero hmem hzero] at hroot
    rw [hzero] at hrefused
    exact absurd (of_decide_eq_true hrefused) (not_refused_root hroot)
  · obtain ⟨above, -, hbelow⟩ := hlinked.below node hmem hzero
    rw [Node.isRoot, hbelow.parent]
    rfl

/-- **Positions are real.** Every condition is the part of its line that starts at the column of its
node, and every issue points into the condition of a node or right behind it, each in a later line
than the one before. -/
theorem positions_of_read :
    (∀ node ∈ outline.nodes, node.isRoot = false →
      ∃ line, 1 ≤ node.line ∧ (Text.splitLines text.toList)[node.line - 1]? = some line ∧
        1 ≤ node.column ∧
        (line.drop (node.column - 1)).take node.expression.length = node.expression.toList) ∧
    ∀ issues, ofOutline outline = .error (.conditions issues) →
      issues.Pairwise (fun first second => first.line < second.line) ∧
      ∀ issue ∈ issues, ∃ node ∈ outline.nodes, node.isRoot = false ∧ issue.IsOf node ∧
        node.column ≤ issue.column ∧ issue.column ≤ node.column + node.expression.length := by
  constructor
  · intro node hnode hroot
    obtain ⟨line, hnumber, hline, hstands⟩ := exists_line_of_read hread hnode hroot
    exact ⟨line, hnumber, hline, hstands.column, hstands.condition⟩
  · intro issues herror
    obtain ⟨outcomes, hrun, rfl, -⟩ := exists_run_of_ofOutline_error herror
    have hissues := hrun.forall₂_refused
      fun index node hnode => (linked_of_read hread).index_of_getElem? hnode
    constructor
    · have hlines : (refusedNodes outline.nodes).map (·.line) =
          (outcomes.filterMap (·.2)).map (·.line) := by
        rw [← List.forall₂_eq_eq_eq, List.forall₂_map_left_iff, List.forall₂_map_right_iff]
        exact hissues.imp fun _ _ ⟨_, _, houtcome⟩ => houtcome.isOf.line.symm
      rw [← List.pairwise_map (f := RuleIssue.line) (R := (· < ·)), ← hlines, List.pairwise_map]
      exact (pairwise_line_of_read hread).filter _
    · intro issue hissue
      obtain ⟨index, hindex, rfl⟩ := List.getElem_of_mem hissue
      have hinside : index < (refusedNodes outline.nodes).length := by
        rw [refusedNodes, hissues.length_eq]
        exact hindex
      obtain ⟨earlier, rule, houtcome⟩ := hissues.get hinside hindex
      obtain ⟨hnode, hroot⟩ := not_isRoot_of_refused hread (List.getElem_mem hinside)
      exact ⟨_, hnode, hroot, houtcome.isOf, houtcome.column_bounds⟩

end Reading

theorem positions_of_broken_conditions :
    ∃ outline issues,
      Outline.read { separator := .text "::", ignoreBlankLines := true }
        "A :: colors.count\r\n\n|B::  colors + \rC:: true" = .ok outline ∧
      ofOutline outline = .error (.conditions issues) ∧ issues.map (·.column) = [13, 15] ∧
      issues.Pairwise (fun first second => first.line < second.line) ∧
      ∀ issue ∈ issues, ∃ node ∈ outline.nodes, node.isRoot = false ∧ issue.IsOf node ∧
        node.column ≤ issue.column ∧ issue.column ≤ node.column + node.expression.length := by
  have hrun : (Outline.read { separator := .text "::", ignoreBlankLines := true }
      "A :: colors.count\r\n\n|B::  colors + \rC:: true").map
        (fun outline => (ofOutline outline).map fun _ => ()) =
      .ok (.error (.conditions
        [⟨"A", 1, 13, .notBool .int⟩, ⟨"B", 3, 15, .expectedExpression⟩])) := by
    decide +kernel
  obtain ⟨outline, hread, houtcome⟩ := exists_of_map_eq_ok hrun
  cases herror : ofOutline outline with
  | ok tree =>
      rw [herror] at houtcome
      cases houtcome
  | error fault =>
      rw [herror] at houtcome
      cases houtcome
      exact ⟨outline, _, hread, herror, rfl, (positions_of_read hread).2 _ herror⟩

end Archetype.RuleTree
