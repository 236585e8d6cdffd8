import Archetype.Proofs.Condition.Fitting
import Archetype.Proofs.Condition.Places
import Archetype.Proofs.Outline.Linkage
import Archetype.Proofs.RuleTree.Linking

/-!
# Which nodes are refused

A node is refused for what it is: its condition cannot be read, is no truth value, mentions a name
that is not the name of exactly one rule before it, or goes too deep together with the rules that it
refers to. Of the rules before it only their names and their depths matter, and a rule that is
refused on its own account has depth zero. So no refusal brings about or hides another one, unless a
chain of references has become too deep already.
-/

namespace Archetype.RuleTree

open Archetype.Condition Archetype.Outline

section Rules

variable (rules : List Rule) (index : Nat)

/-- A condition at an index that is refused for its depth at most: it is a truth value, has no more
levels than a condition may have, and mentions only names of one rule each. -/
def Compilable (expr : Expr) : Prop :=
  expr.Admissible ∧ ∀ name ∈ expr.references, (places rules index name).length = 1

instance (expr : Expr) : Decidable (Compilable rules index expr) :=
  inferInstanceAs (Decidable (_ ∧ _))

/-- The levels of a compilable rule together with those of the deepest rule that it refers to. Any
other rule has none. -/
def recordedDepth (index : Nat) : Nat :=
  match conditionAt? rules index with
  | none => 0
  | some expr =>
    if Compilable rules index expr then
      expr.levels + ((expr.references.flatMap (places rules index)).map
        fun place => recordedDepth place.val).foldl max 0
    else 0
termination_by index
decreasing_by exact place.isLt

/-- The recorded depth of the deepest rule that a condition at an index refers to. -/
def referredDepth (expr : Expr) : Nat :=
  ((expr.references.flatMap (places rules index)).map
    fun place => recordedDepth rules place.val).foldl max 0

/-- The rule at an index is refused for what it is. -/
inductive Refused : Prop
  | unreadable (hcondition : conditionAt? rules index = none)
  | wrongKind {expr : Expr} (hexpr : conditionAt? rules index = some expr)
      (hkind : ¬ OfKind expr .bool)
  | unresolved {expr : Expr} {name : String} (hexpr : conditionAt? rules index = some expr)
      (hname : name ∈ expr.references) (hplaces : (places rules index name).length ≠ 1)
  | tooDeep {expr : Expr} (hexpr : conditionAt? rules index = some expr)
      (hdepth : maxDepth < expr.levels + referredDepth rules index expr)

end Rules

section Rules

variable {rules : List Rule} {index : Nat} {expr : Expr}

theorem recordedDepth_eq (hexpr : conditionAt? rules index = some expr) :
    recordedDepth rules index =
      if Compilable rules index expr then expr.levels + referredDepth rules index expr else 0 := by
  rw [recordedDepth, hexpr]
  rfl

theorem refused_iff (hexpr : conditionAt? rules index = some expr) :
    Refused rules index ↔
      ¬ (Compilable rules index expr ∧
        expr.levels + referredDepth rules index expr ≤ maxDepth) := by
  constructor
  · rintro hrefused ⟨⟨⟨hkind, -⟩, hreferences⟩, hdepth⟩
    cases hrefused with
    | unreadable hcondition =>
        rw [hexpr] at hcondition
        cases hcondition
    | wrongKind hother hnot =>
        rw [hexpr] at hother
        cases hother
        exact hnot hkind
    | unresolved hother hname hplaces =>
        rw [hexpr] at hother
        cases hother
        exact hplaces (hreferences _ hname)
    | tooDeep hother hdeep =>
        rw [hexpr] at hother
        cases hother
        omega
  · intro hnot
    by_cases hkind : OfKind expr .bool
    · by_cases hdepth : expr.levels + referredDepth rules index expr ≤ maxDepth
      · by_cases hreferences : ∀ name ∈ expr.references, (places rules index name).length = 1
        · exact absurd ⟨⟨⟨hkind, by omega⟩, hreferences⟩, hdepth⟩ hnot
        · push Not at hreferences
          obtain ⟨name, hname, hplaces⟩ := hreferences
          exact .unresolved hexpr hname hplaces
      · exact .tooDeep hexpr (by omega)
    · exact .wrongKind hexpr hkind

end Rules

instance (rules : List Rule) (index : Nat) : Decidable (Refused rules index) :=
  match hcondition : conditionAt? rules index with
  | none => isTrue (.unreadable hcondition)
  | some _ => decidable_of_iff _ (refused_iff hcondition).symm

/-! ### What is known of earlier rules -/

theorem foldl_max_le_iff {depths : List Nat} {bound : Nat} : ∀ {start : Nat},
    depths.foldl max start ≤ bound ↔ start ≤ bound ∧ ∀ depth ∈ depths, depth ≤ bound := by
  induction depths with
  | nil => simp
  | cons depth rest ih =>
      intro start
      rw [List.foldl_cons, ih]
      simp [and_assoc]

theorem referredDepth_le_iff {rules : List Rule} {index bound : Nat} {expr : Expr} :
    referredDepth rules index expr ≤ bound ↔ ∀ name ∈ expr.references,
      ∀ place ∈ places rules index name, recordedDepth rules place.val ≤ bound := by
  rw [referredDepth, foldl_max_le_iff]
  simp only [Nat.zero_le, true_and, List.forall_mem_map, List.forall_mem_flatMap]

/-- Under every name, the earlier rules have the depths of the rules of that name. -/
def Knows (rules : List Rule) (index : Nat) (earlier : List Earlier) : Prop :=
  ∀ name, (earlier.filter (·.name == name)).map (·.depth) =
    (places rules index name).reverse.map fun place => recordedDepth rules place.val

section Known

variable {rules : List Rule} {index : Nat} {earlier : List Earlier}
  (hknows : Knows rules index earlier)
include hknows

theorem exists_resolve_iff {name : String} :
    (∃ holds, resolve earlier name = .ok holds) ↔ (places rules index name).length = 1 := by
  have hlength := congrArg List.length (hknows name)
  rw [List.length_map, List.length_map, List.length_reverse] at hlength
  rw [← hlength]
  unfold resolve
  split
  · next hnone => simp [hnone]
  · next hone => simp [hone]
  · next hnone hone =>
    rw [List.length_eq_one_iff]
    simp only [reduceCtorEq, exists_const, false_iff]
    rintro ⟨rule, hrule⟩
    exact hone rule hrule

theorem referenceDepth_eq (expr : Expr) :
    referenceDepth earlier expr = referredDepth rules index expr := by
  -- the same depths in another order, some of them repeated
  have hdepths : ∀ depth,
      depth ∈ (earlier.filter fun rule => expr.references.contains rule.name).map (·.depth) ↔
        depth ∈ (expr.references.flatMap (places rules index)).map
          fun place => recordedDepth rules place.val := by
    intro depth
    calc _ ↔ ∃ name ∈ expr.references,
            depth ∈ (earlier.filter (·.name == name)).map (·.depth) := by
          simp only [List.mem_map, List.mem_filter, List.contains_eq_mem, decide_eq_true_eq,
            beq_iff_eq]
          grind
      _ ↔ _ := by
          simp only [hknows _, List.map_flatMap, List.mem_flatMap, List.map_reverse,
            List.mem_reverse]
  refine eq_of_forall_ge_iff fun bound => ?_
  unfold referenceDepth referredDepth
  dsimp only
  rw [foldl_max_le_iff, foldl_max_le_iff]
  simp only [hdepths]

theorem fits_iff_compilable {expr : Expr} :
    Fits (some (resolve earlier)) 1 expr .bool ↔ Compilable rules index expr := by
  rw [fits_iff, Compilable]
  refine and_congr_right fun _ => forall_congr' fun name => forall_congr' fun _ => ?_
  exact exists_resolve_iff hknows

theorem not_compilable_of_rejected {expr : Expr} {issue : Issue} {deepest : Nat}
    (hcheck : expr.compile (some (resolve earlier)) = (.error issue, deepest)) :
    ¬ Compilable rules index expr := by
  intro hexpr
  obtain ⟨holds, hcompile⟩ := exists_compile_of_fits ((fits_iff_compilable hknows).mpr hexpr)
  rw [hcheck] at hcompile
  cases congrArg Prod.fst hcompile

theorem compilable_and_depth_of_compile {expr : Expr} {holds : Predicate} {deepest : Nat}
    (hcheck : expr.compile (some (resolve earlier)) = (.ok holds, deepest)) :
    Compilable rules index expr ∧
      deepest + referenceDepth earlier expr = expr.levels + referredDepth rules index expr := by
  refine ⟨(fits_iff_compilable hknows).mp (fits_of_compile hcheck), ?_⟩
  rw [deepest_of_compile hcheck, referenceDepth_eq hknows]

/-- **What comes of a node is what its rule says.** -/
theorem depth_and_refused_of_outcome {node : Node} {rule : Earlier} {issue : Option RuleIssue}
    (hcondition : conditionAt? rules index = (Expr.parse node.expression).toOption)
    (houtcome : Outcome earlier node rule issue) :
    rule.depth = recordedDepth rules index ∧ (issue ≠ none ↔ Refused rules index) := by
  cases houtcome with
  | unreadable hparse =>
      rw [hparse] at hcondition
      have hnone : conditionAt? rules index = none := hcondition
      refine ⟨?_, fun _ => .unreadable hnone, fun _ => Option.some_ne_none _⟩
      rw [recordedDepth, hnone]
      rfl
  | @rejected expr _ _ hparse hcheck =>
      rw [hparse] at hcondition
      have hexpr : conditionAt? rules index = some expr := hcondition
      have hnot := not_compilable_of_rejected hknows hcheck
      rw [recordedDepth_eq hexpr, if_neg hnot, refused_iff hexpr]
      exact ⟨rfl, fun _ hboth => hnot hboth.1, fun _ => Option.some_ne_none _⟩
  | @tooDeep expr _ _ hparse hcheck hdepth =>
      rw [hparse] at hcondition
      have hexpr : conditionAt? rules index = some expr := hcondition
      obtain ⟨hcompilable, hsum⟩ := compilable_and_depth_of_compile hknows hcheck
      rw [hsum] at hdepth ⊢
      rw [recordedDepth_eq hexpr, if_pos hcompilable]
      exact ⟨rfl, fun _ => .tooDeep hexpr hdepth, fun _ => Option.some_ne_none _⟩
  | @accepted expr _ _ hparse hcheck hdepth =>
      rw [hparse] at hcondition
      have hexpr : conditionAt? rules index = some expr := hcondition
      obtain ⟨hcompilable, hsum⟩ := compilable_and_depth_of_compile hknows hcheck
      rw [hsum] at hdepth ⊢
      rw [recordedDepth_eq hexpr, if_pos hcompilable, refused_iff hexpr]
      exact ⟨rfl, fun hissue => absurd rfl hissue, fun hnot => absurd ⟨hcompilable, hdepth⟩ hnot⟩

end Known

section Runs

variable {nodes : List Node} {outcomes : List (Earlier × Option RuleIssue)}
  (hrun : Run [] nodes outcomes)
include hrun

/-- **A compilation knows the rules before each node**, refused or not. -/
theorem knows_earlierBefore : ∀ index ≤ nodes.length,
    Knows (rules nodes) index (earlierBefore nodes index) := by
  intro index
  induction index with
  | zero =>
      intro _ name
      rfl
  | succ index ih =>
      intro hindex name
      have hbefore := ih (Nat.le_of_succ_le hindex)
      have hnode : nodes[index]? = some nodes[index] := List.getElem?_eq_getElem hindex
      generalize nodes[index] = node at hnode
      obtain ⟨⟨rule, issue⟩, -, hrule⟩ := hrun.compileNode_of_getElem? hnode
      have houtcome := outcome_of_compileNode hrule
      obtain ⟨hdepth, -⟩ :=
        depth_and_refused_of_outcome hbefore (conditionAt?_of_getElem? hnode) houtcome
      exact map_filter_earlierBefore_succ _ hnode hrule hdepth (hbefore name)

/-- **The issues of a compilation belong to the nodes that are refused for what they are.** -/
theorem Run.forall₂_refused
    (hindex : ∀ (index : Nat) (node : Node), nodes[index]? = some node → node.index = index) :
    List.Forall₂ (fun node issue => ∃ earlier rule, Outcome earlier node rule (some issue))
      (nodes.filter fun node => Refused (rules nodes) node.index) (outcomes.filterMap (·.2)) := by
  refine forall₂_filterMap (List.forall₂_iff_get.mpr ⟨hrun.length_eq.symm, ?_⟩)
  intro index hnodes houtcomes
  have hnode : nodes[index]? = some nodes[index] := List.getElem?_eq_getElem hnodes
  obtain ⟨⟨rule, issue⟩, hsame, hrule⟩ := hrun.compileNode_of_getElem? hnode
  have hknows := knows_earlierBefore hrun index (Nat.le_of_lt hnodes)
  have hrefused := (depth_and_refused_of_outcome hknows (conditionAt?_of_getElem? hnode)
    (outcome_of_compileNode hrule)).2
  rw [List.get_eq_getElem, List.get_eq_getElem, (List.getElem?_eq_some_iff.mp hsame).2,
    decide_eq_true_eq, hindex index _ hnode]
  refine ⟨hrefused, ?_⟩
  intro found hfound
  obtain rfl : issue = some found := hfound
  exact ⟨_, _, outcome_of_compileNode hrule⟩

end Runs

/-- An issue names its node and the line of it. -/
structure RuleIssue.IsOf (issue : RuleIssue) (node : Node) : Prop where
  name : issue.name = node.name
  line : issue.line = node.line

theorem Outcome.isOf {earlier : List Earlier} {node : Node} {rule : Earlier} {issue : RuleIssue}
    (houtcome : Outcome earlier node rule (some issue)) : issue.IsOf node := by
  cases houtcome <;> exact ⟨rfl, rfl⟩

/-- The nodes that are refused for what they are, in the order of the text. -/
def refusedNodes (nodes : List Node) : List Node :=
  nodes.filter fun node => Refused (rules nodes) node.index

theorem Run.forall₂_isOf {nodes : List Node} {outcomes : List (Earlier × Option RuleIssue)}
    (hrun : Run [] nodes outcomes)
    (hindex : ∀ (index : Nat) (node : Node), nodes[index]? = some node → node.index = index) :
    List.Forall₂ (fun node issue => issue.IsOf node) (refusedNodes nodes)
      (outcomes.filterMap (·.2)) := by
  refine (hrun.forall₂_refused hindex).imp ?_
  rintro node issue ⟨earlier, rule, houtcome⟩
  exact houtcome.isOf

theorem not_refused_of_depthless {rules : List Rule} {index : Nat} {expr : Expr}
    (hexpr : conditionAt? rules index = some expr) (hadmissible : expr.Admissible)
    (hreferences : ∀ name ∈ expr.references, ∃ place, referent? rules index name = some place ∧
      recordedDepth rules place.val = 0) : ¬ Refused rules index := by
  rw [refused_iff hexpr, not_not]
  refine ⟨⟨hadmissible, ?_⟩, ?_⟩
  · intro name hname
    obtain ⟨place, hplace, -⟩ := hreferences name hname
    rw [referent?_eq_some_iff.mp hplace]
    rfl
  · have hdepth : referredDepth rules index expr ≤ 0 := by
      rw [referredDepth_le_iff]
      intro name hname place hmem
      obtain ⟨only, honly, hzero⟩ := hreferences name hname
      rw [referent?_eq_some_iff.mp honly, List.mem_singleton] at hmem
      rw [hmem, hzero]
    have hlevels := hadmissible.2
    omega

/-- **A compilation refuses exactly the nodes that are refused for what they are**, and tells of each
of them once, in the order of the text. If there are none, every node has a predicate; otherwise
there is no tree. A node that refers to refused nodes without depth is not refused on their
account. -/
theorem ofOutline_eq_refusals {format : Format} {text : String} {outline : Outline}
    (hread : Outline.read format text = .ok outline)
    (hshort : ∀ node ∈ outline.nodes, ShortNumbers node.expression) :
    (refusedNodes outline.nodes = [] → ∃ tree, ofOutline outline = .ok tree ∧
      tree.outline = outline ∧
      ∀ node ∈ outline.nodes, ∃ holds, tree.predicates[node.index]? = some holds) ∧
    (refusedNodes outline.nodes ≠ [] → ∃ issues, ofOutline outline = .error (.conditions issues) ∧
      List.Forall₂ (fun node issue => issue.IsOf node) (refusedNodes outline.nodes) issues) ∧
    ∀ node ∈ outline.nodes, ∀ expr, Expr.parse node.expression = .ok expr → expr.Admissible →
      (∀ name ∈ expr.references, ∃ place,
        referent? (rules outline.nodes) node.index name = some place ∧
        recordedDepth (rules outline.nodes) place.val = 0) →
      node ∉ refusedNodes outline.nodes := by
  have hlinked := linked_of_read hread
  have hindex : ∀ (index : Nat) (node : Node), outline.nodes[index]? = some node →
      node.index = index :=
    fun _ _ hnode => hlinked.index_of_getElem? hnode
  obtain ⟨outcomes, hrun⟩ := exists_run
    (fun node hnode => parse_ne_numberTooLong (hshort node hnode)) []
  have hissues := (hrun.forall₂_refused hindex).imp
    fun _ _ ⟨_, _, houtcome⟩ => houtcome.isOf
  have hcompile : ofOutline outline = _ := ofOutline_of_run hrun
  refine ⟨?_, ?_, ?_⟩
  · intro hnone
    rw [refusedNodes] at hnone
    rw [hnone, List.forall₂_nil_left_iff] at hissues
    rw [hissues] at hcompile
    refine ⟨_, hcompile, rfl, ?_⟩
    intro node hnode
    obtain ⟨outcome, houtcome, -⟩ := hrun.compileNode_of_getElem? (hlinked.getElem?_index hnode)
    exact ⟨outcome.1.holds, by simp [houtcome]⟩
  · intro hsome
    have hnonempty : outcomes.filterMap (·.2) ≠ [] := by
      intro hnone
      rw [hnone, List.forall₂_nil_right_iff] at hissues
      exact hsome hissues
    rw [if_neg hnonempty] at hcompile
    exact ⟨_, hcompile, hissues⟩
  · intro node hnode expr hparse hadmissible hreferences hmem
    have hexpr : conditionAt? (rules outline.nodes) node.index = some expr := by
      rw [conditionAt?_of_getElem? (hlinked.getElem?_index hnode), hparse]
      rfl
    have hrefused := of_decide_eq_true (List.mem_filter.mp hmem).2
    exact not_refused_of_depthless hexpr hadmissible hreferences hrefused

/-- A node is not refused with the rule that it refers to. -/
theorem refusedNodes_of_broken_referent :
    ∃ outline, Outline.read {} "A|colors.count\nB|matches(\"A\")\nC|matches(\"D\")\nD|true" =
      .ok outline ∧ (∀ node ∈ outline.nodes, ShortNumbers node.expression) ∧
      (refusedNodes outline.nodes).map (·.name) = ["A", "C"] := by
  have hrun : (Outline.read {}
      "A|colors.count\nB|matches(\"A\")\nC|matches(\"D\")\nD|true").map
        (fun outline => (outline.nodes.map (·.expression), (ofOutline outline).map fun _ => ())) =
      .ok (["true", "colors.count", "matches(\"A\")", "matches(\"D\")", "true"],
        .error (.conditions [⟨"A", 1, 10, .notBool .int⟩, ⟨"C", 3, 11, .unknownRule "D"⟩])) := by
    decide +kernel
  obtain ⟨outline, hread, hpair⟩ := exists_of_map_eq_ok hrun
  obtain ⟨hexpressions, houtcome⟩ := Prod.mk.inj hpair
  have hshort : ∀ node ∈ outline.nodes, ShortNumbers node.expression := by
    rw [← List.forall_mem_map (P := ShortNumbers), hexpressions]
    decide +kernel
  refine ⟨outline, hread, hshort, ?_⟩
  obtain ⟨hnone, hsome, -⟩ := ofOutline_eq_refusals hread hshort
  have hrefused : refusedNodes outline.nodes ≠ [] := by
    intro hempty
    obtain ⟨tree, htree, -⟩ := hnone hempty
    rw [htree] at houtcome
    cases houtcome
  obtain ⟨issues, hissues, hnodes⟩ := hsome hrefused
  have hnames : (refusedNodes outline.nodes).map (·.name) = issues.map (·.name) := by
    rw [← List.forall₂_eq_eq_eq, List.forall₂_map_left_iff, List.forall₂_map_right_iff]
    exact hnodes.imp fun _ _ hof => hof.name.symm
  rw [hissues] at houtcome
  cases houtcome
  exact hnames

end Archetype.RuleTree
