import Archetype.Proofs.Condition.Checking
import Archetype.Proofs.Outcome
import Archetype.RuleTree

/-!
# How a rule tree is compiled

The compilation goes through the nodes in their order, whether or not one before them was refused.
It makes of each node an outcome: a rule that later nodes may refer to, and an issue if the node is
refused. The predicates and the issues of the whole compilation are read off the outcomes, and a
tree is accepted if there is no issue among them.

What the compilation knows when it comes to a node depends on the nodes before it alone:
`earlierBefore` is that knowledge, said for every index at once.
-/

namespace Archetype.RuleTree

open Archetype.Condition Archetype.Outline

/-- What is known after one more node. -/
def learn (earlier : List Earlier) (node : Node) : List Earlier :=
  match compileNode earlier node with
  | .ok (rule, _) => if node.isMentionable then rule :: earlier else earlier
  | .error _ => earlier

/-- The rules that the conditions of the node at an index may refer to. -/
def earlierBefore (nodes : List Node) : Nat → List Earlier
  | 0 => []
  | index + 1 =>
    match nodes[index]? with
    | some node => learn (earlierBefore nodes index) node
    | none => earlierBefore nodes index

/-- A node is compiled without an issue: its condition is read, checked against the earlier rules,
and found to hold of these records. -/
structure Compiles (earlier : List Earlier) (node : Node) (expr : Expr) (holds : Predicate) :
    Prop where
  parse : Expr.parse node.expression = .ok expr
  check : ∃ deepest, expr.compile (some (resolve earlier)) = (.ok holds, deepest)

/-- What can come of a node: its condition cannot be read, it is refused by the check, it nests too
deeply together with the rules that it refers to, or it is accepted. -/
inductive Outcome (earlier : List Earlier) (node : Node) : Earlier → Option RuleIssue → Prop
  | unreadable {issue : Issue} (hparse : Expr.parse node.expression = .error (.issue issue)) :
      Outcome earlier node (.refused node.name 0) (some (.ofIssue node issue))
  | rejected {expr : Expr} {issue : Issue} {deepest : Nat}
      (hparse : Expr.parse node.expression = .ok expr)
      (hcheck : expr.compile (some (resolve earlier)) = (.error issue, deepest)) :
      Outcome earlier node (.refused node.name 0) (some (.ofIssue node issue))
  | tooDeep {expr : Expr} {holds : Predicate} {deepest : Nat}
      (hparse : Expr.parse node.expression = .ok expr)
      (hcheck : expr.compile (some (resolve earlier)) = (.ok holds, deepest))
      (hdepth : maxDepth < deepest + referenceDepth earlier expr) :
      Outcome earlier node (.refused node.name (deepest + referenceDepth earlier expr))
        (some (.ofIssue node ⟨.tooDeepThroughReferences, 0⟩))
  | accepted {expr : Expr} {holds : Predicate} {deepest : Nat}
      (hparse : Expr.parse node.expression = .ok expr)
      (hcheck : expr.compile (some (resolve earlier)) = (.ok holds, deepest))
      (hdepth : deepest + referenceDepth earlier expr ≤ maxDepth) :
      Outcome earlier node ⟨node.name, deepest + referenceDepth earlier expr, holds⟩ none

section Node

variable {earlier : List Earlier} {node : Node} {rule : Earlier} {issue : Option RuleIssue}

theorem outcome_of_compileNode (hnode : compileNode earlier node = .ok (rule, issue)) :
    Outcome earlier node rule issue := by
  unfold compileNode at hnode
  cases hparse : Expr.parse node.expression with
  | error failure =>
      rw [hparse] at hnode
      cases failure with
      | issue issue =>
          cases hnode
          exact .unreadable hparse
      | numberTooLong digits => cases hnode
  | ok expr =>
      rw [hparse] at hnode
      dsimp only at hnode
      cases hcheck : expr.compile (some (resolve earlier)) with
      | mk outcome deepest =>
          rw [hcheck] at hnode
          cases outcome with
          | error issue =>
              cases hnode
              exact .rejected hparse hcheck
          | ok holds =>
              dsimp only at hnode
              split at hnode
              · next hdepth =>
                cases hnode
                exact .tooDeep hparse hcheck hdepth
              · next hdepth =>
                cases hnode
                exact .accepted hparse hcheck (by omega)

/-- Only a number that is too long leaves a node without an outcome. -/
theorem exists_compileNode (hparse : ∀ digits,
    Expr.parse node.expression ≠ .error (.numberTooLong digits)) (earlier : List Earlier) :
    ∃ outcome, compileNode earlier node = .ok outcome := by
  unfold compileNode
  cases houtcome : Expr.parse node.expression with
  | error failure =>
      cases failure with
      | issue issue => exact ⟨_, rfl⟩
      | numberTooLong digits => exact absurd houtcome (hparse digits)
  | ok expr =>
      dsimp only
      split
      · exact ⟨_, rfl⟩
      · split <;> exact ⟨_, rfl⟩

theorem Outcome.name_eq (houtcome : Outcome earlier node rule issue) : rule.name = node.name := by
  cases houtcome <;> rfl

theorem Outcome.compiles (houtcome : Outcome earlier node rule none) :
    ∃ expr, Compiles earlier node expr rule.holds := by
  cases houtcome with
  | accepted hparse hcheck _ => exact ⟨_, hparse, _, hcheck⟩

theorem learn_of_compileNode (hnode : compileNode earlier node = .ok (rule, issue)) :
    learn earlier node = if node.isMentionable then rule :: earlier else earlier := by
  rw [learn, hnode]

end Node

theorem earlierBefore_succ {nodes : List Node} {index : Nat} {node : Node} {rule : Earlier}
    {issue : Option RuleIssue} (hnode : nodes[index]? = some node)
    (hrule : compileNode (earlierBefore nodes index) node = .ok (rule, issue)) :
    earlierBefore nodes (index + 1) =
      if node.isMentionable then rule :: earlierBefore nodes index
      else earlierBefore nodes index := by
  rw [earlierBefore, hnode]
  exact learn_of_compileNode hrule

/-! ### Runs -/

/-- The compilation of nodes after earlier rules has these outcomes, one for each node. -/
inductive Run : List Earlier → List Node → List (Earlier × Option RuleIssue) → Prop
  | nil {earlier : List Earlier} : Run earlier [] []
  | cons {earlier : List Earlier} {node : Node} {rest : List Node}
      {outcome : Earlier × Option RuleIssue} {outcomes : List (Earlier × Option RuleIssue)}
      (hnode : compileNode earlier node = .ok outcome)
      (hrest : Run (learn earlier node) rest outcomes) :
      Run earlier (node :: rest) (outcome :: outcomes)

theorem compileFrom_of_run {earlier : List Earlier} {nodes : List Node}
    {outcomes : List (Earlier × Option RuleIssue)} (hrun : Run earlier nodes outcomes) :
    compileFrom earlier nodes =
      .ok (outcomes.map (·.1.holds), outcomes.filterMap (·.2)) := by
  induction hrun with
  | nil => rfl
  | @cons earlier node rest outcome outcomes hnode _ ih =>
      obtain ⟨rule, issue⟩ := outcome
      rw [learn_of_compileNode hnode] at ih
      rw [compileFrom, hnode, ok_bind]
      dsimp only
      rw [ih, ok_bind]
      cases issue <;> rfl

theorem exists_run {nodes : List Node} (hnodes : ∀ node ∈ nodes, ∀ digits,
    Expr.parse node.expression ≠ .error (.numberTooLong digits)) :
    ∀ earlier, ∃ outcomes, Run earlier nodes outcomes := by
  induction nodes with
  | nil => exact fun earlier => ⟨[], .nil⟩
  | cons node rest ih =>
      intro earlier
      obtain ⟨hnode, hrest⟩ := List.forall_mem_cons.mp hnodes
      obtain ⟨outcome, houtcome⟩ := exists_compileNode hnode earlier
      obtain ⟨outcomes, houtcomes⟩ := ih hrest (learn earlier node)
      exact ⟨outcome :: outcomes, .cons houtcome houtcomes⟩

theorem exists_run_of_compileFrom {nodes : List Node} : ∀ {earlier : List Earlier}
    {predicates : List Predicate} {issues : List RuleIssue},
    compileFrom earlier nodes = .ok (predicates, issues) →
      ∃ outcomes, Run earlier nodes outcomes ∧ predicates = outcomes.map (·.1.holds) ∧
        issues = outcomes.filterMap (·.2) := by
  induction nodes with
  | nil =>
      intro earlier predicates issues hcompile
      cases hcompile
      exact ⟨[], .nil, rfl, rfl⟩
  | cons node rest ih =>
      intro earlier predicates issues hcompile
      have hwhole := hcompile
      rw [compileFrom] at hcompile
      obtain ⟨⟨rule, issue⟩, hnode, hrest⟩ := exists_of_bind_eq_ok hcompile
      obtain ⟨⟨later, others⟩, hlater, -⟩ := exists_of_bind_eq_ok hrest
      rw [← learn_of_compileNode hnode] at hlater
      obtain ⟨outcomes, hrun, -⟩ := ih hlater
      have hrun := Run.cons hnode hrun
      rw [compileFrom_of_run hrun] at hwhole
      cases hwhole
      exact ⟨_, hrun, rfl, rfl⟩

section Runs

variable {earlier : List Earlier} {nodes more : List Node}
  {outcomes : List (Earlier × Option RuleIssue)}

theorem Run.length_eq (hrun : Run earlier nodes outcomes) : outcomes.length = nodes.length := by
  induction hrun with
  | nil => rfl
  | cons _ _ ih => simp [ih]

/-- **Nodes that follow do not change the outcomes of those before them.** -/
theorem Run.exists_append (hrun : Run earlier (nodes ++ more) outcomes) :
    ∃ first second, outcomes = first ++ second ∧ Run earlier nodes first := by
  induction nodes generalizing earlier outcomes with
  | nil => exact ⟨[], outcomes, rfl, .nil⟩
  | cons node rest ih =>
      cases hrun with
      | cons hnode hrest =>
          obtain ⟨first, second, rfl, hfirst⟩ := ih hrest
          exact ⟨_ :: first, second, rfl, .cons hnode hfirst⟩

theorem Run.unique {others : List (Earlier × Option RuleIssue)}
    (hrun : Run earlier nodes outcomes) (hother : Run earlier nodes others) :
    outcomes = others := by
  induction hrun generalizing others with
  | nil =>
      cases hother
      rfl
  | cons hnode _ ih =>
      cases hother with
      | cons hnode' hrest =>
          rw [hnode] at hnode'
          rw [Except.ok.inj hnode', ih hrest]

/-- Where a run stands when it comes to an index. -/
theorem Run.drop (hrun : Run [] nodes outcomes) : ∀ index ≤ nodes.length,
    Run (earlierBefore nodes index) (nodes.drop index) (outcomes.drop index) := by
  intro index
  induction index with
  | zero => exact fun _ => hrun
  | succ index ih =>
      intro hindex
      have hbefore := ih (Nat.le_of_succ_le hindex)
      rw [← List.drop_drop, ← List.drop_drop, earlierBefore, List.getElem?_eq_getElem hindex]
      rw [List.drop_eq_getElem_cons hindex] at hbefore ⊢
      cases hdrop : outcomes.drop index with
      | nil =>
          rw [hdrop] at hbefore
          cases hbefore
      | cons outcome later =>
          rw [hdrop] at hbefore
          cases hbefore with
          | cons _ hrest => exact hrest

/-- **Each node is compiled with the rules before it.** -/
theorem Run.compileNode_of_getElem? (hrun : Run [] nodes outcomes) {index : Nat} {node : Node}
    (hnode : nodes[index]? = some node) :
    ∃ outcome, outcomes[index]? = some outcome ∧
      compileNode (earlierBefore nodes index) node = .ok outcome := by
  obtain ⟨hindex, rfl⟩ := List.getElem?_eq_some_iff.mp hnode
  have hbefore := hrun.drop index (Nat.le_of_lt hindex)
  rw [List.drop_eq_getElem_cons hindex] at hbefore
  have hhead : outcomes[index]? = (outcomes.drop index)[0]? := by
    rw [List.getElem?_drop]
    rfl
  cases hdrop : outcomes.drop index with
  | nil =>
      rw [hdrop] at hbefore
      cases hbefore
  | cons outcome later =>
      rw [hdrop] at hbefore hhead
      cases hbefore with
      | cons hrule _ => exact ⟨outcome, hhead, hrule⟩

end Runs

theorem forall₂_filterMap {keep : Node → Bool} {tells : Node → RuleIssue → Prop} {nodes : List Node}
    {outcomes : List (Earlier × Option RuleIssue)}
    (houtcomes : List.Forall₂ (fun node outcome => (outcome.2 ≠ none ↔ keep node = true) ∧
      ∀ issue ∈ outcome.2, tells node issue) nodes outcomes) :
    List.Forall₂ tells (nodes.filter keep) (outcomes.filterMap (·.2)) := by
  induction houtcomes with
  | nil => exact .nil
  | @cons node outcome _ _ hfirst _ ih =>
      obtain ⟨hkeep, htells⟩ := hfirst
      obtain ⟨rule, issue⟩ := outcome
      cases issue with
      | none =>
          rw [List.filter_cons_of_neg (fun htrue => hkeep.mpr htrue rfl)]
          exact ih
      | some issue =>
          rw [List.filter_cons_of_pos (hkeep.mp (Option.some_ne_none issue))]
          exact .cons (htells issue rfl) ih

/-- The nodes of an accepted tree compile without an issue. -/
theorem compileNode_of_getElem? {nodes : List Node} {predicates : List Predicate}
    (hcompile : compileFrom [] nodes = .ok (predicates, [])) {index : Nat} {node : Node}
    (hnode : nodes[index]? = some node) :
    ∃ rule, compileNode (earlierBefore nodes index) node = .ok (rule, none) ∧
      predicates[index]? = some rule.holds := by
  obtain ⟨outcomes, hrun, rfl, hissues⟩ := exists_run_of_compileFrom hcompile
  obtain ⟨⟨rule, issue⟩, houtcome, hrule⟩ := hrun.compileNode_of_getElem? hnode
  have hissue : issue = none :=
    List.filterMap_eq_nil_iff.mp hissues.symm _ (List.mem_of_getElem? houtcome)
  rw [hissue] at hrule
  refine ⟨rule, hrule, ?_⟩
  rw [List.getElem?_map, houtcome]
  rfl

theorem length_of_compileFrom {earlier : List Earlier} {nodes : List Node}
    {predicates : List Predicate} {issues : List RuleIssue}
    (hcompile : compileFrom earlier nodes = .ok (predicates, issues)) :
    predicates.length = nodes.length := by
  obtain ⟨outcomes, hrun, rfl, -⟩ := exists_run_of_compileFrom hcompile
  rw [List.length_map, hrun.length_eq]

/-! ### Trees -/

section Trees

variable {outline : Outline} {outcomes : List (Earlier × Option RuleIssue)}

theorem ofOutline_of_run (hrun : Run [] outline.nodes outcomes) :
    ofOutline outline = if outcomes.filterMap (·.2) = [] then
      .ok ⟨outline, outcomes.map (·.1.holds)⟩ else .error (.conditions (outcomes.filterMap (·.2))) := by
  rw [ofOutline, compileFrom_of_run hrun]
  cases outcomes.filterMap (·.2) <;> rfl

theorem exists_run_of_ofOutline_error {issues : List RuleIssue}
    (herror : ofOutline outline = .error (.conditions issues)) :
    ∃ outcomes, Run [] outline.nodes outcomes ∧ issues = outcomes.filterMap (·.2) ∧
      issues ≠ [] := by
  unfold ofOutline at herror
  split at herror
  · cases herror
  · cases herror
  · next predicates found hne hcompile =>
    cases herror
    obtain ⟨outcomes, hrun, -, hissues⟩ := exists_run_of_compileFrom hcompile
    exact ⟨outcomes, hrun, hissues, hne⟩

theorem compileFrom_of_ofOutline {tree : RuleTree} (htree : ofOutline outline = .ok tree) :
    tree.outline = outline ∧ compileFrom [] outline.nodes = .ok (tree.predicates, []) := by
  unfold ofOutline at htree
  split at htree
  · cases htree
  · next predicates hcompile =>
    cases htree
    exact ⟨rfl, hcompile⟩
  · cases htree

theorem exists_run_of_ofOutline {tree : RuleTree} (htree : ofOutline outline = .ok tree) :
    ∃ outcomes, Run [] outline.nodes outcomes ∧ tree.outline = outline ∧
      tree.predicates = outcomes.map (·.1.holds) := by
  obtain ⟨houtline, hcompile⟩ := compileFrom_of_ofOutline htree
  obtain ⟨outcomes, hrun, hpredicates, -⟩ := exists_run_of_compileFrom hcompile
  exact ⟨outcomes, hrun, houtline, hpredicates⟩

end Trees

end Archetype.RuleTree
