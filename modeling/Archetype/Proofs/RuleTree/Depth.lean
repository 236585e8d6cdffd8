import Archetype.Proofs.RuleTree.Refusals

/-!
# How deep conditions nest through their references

A reference can be expanded: the condition of the rule that it refers to is put below the call.
Nothing ever builds the condition that results, and with several references on each line it grows
beyond all bounds. Its height does not. The compilation adds the levels of a condition to the
greatest depth recorded for a rule that it refers to, and this sum is never exceeded by the expanded
condition, nor by the levels that an evaluation comes to.
-/

namespace Archetype.Condition

mutual

/-- The number of levels of a condition as a tree, with those of the arguments of a call. -/
def Expr.height : Expr → Nat
  | .literal _ _ | .attribute _ _ => 1
  | .property _ target _ => target.height + 1
  | .method _ target _ args => max target.height (heightOfAll args) + 1
  | .index _ target key => max target.height key.height + 1
  | .call _ _ args => heightOfAll args + 1
  | .not _ operand => operand.height + 1
  | .binary _ left _ right => max left.height right.height + 1

def heightOfAll : List Expr → Nat
  | [] => 0
  | expr :: rest => max expr.height (heightOfAll rest)

end

theorem heightOfAll_le {bound : Nat} : ∀ {args : List Expr},
    (∀ arg ∈ args, arg.height ≤ bound) → heightOfAll args ≤ bound
  | [], _ => Nat.zero_le _
  | first :: rest, hargs => by
      obtain ⟨hfirst, hrest⟩ := List.forall_mem_cons.mp hargs
      exact Nat.max_le.mpr ⟨hfirst, heightOfAll_le hrest⟩

/-- What is found for a reference takes its place on one level, and has `bound` more below it. -/
def Below (find : String → Option Expr) (bound : Nat) (expr : Expr) : Prop :=
  ∀ name ∈ expr.references, ∃ found, find name = some found ∧ found.height ≤ bound + 1

section Heights

variable {find : String → Option Expr} {bound : Nat}

theorem Below.child {expr child : Expr} (hbelow : Below find bound expr)
    (hchild : child ∈ expr.children) : Below find bound child :=
  fun name hname => hbelow name (references_subset_of_mem_children hchild hname)

/-- **Putting conditions in the place of references adds no more than their own height.** -/
theorem exists_inline_height_le {expr : Expr} {kind : Kind} (hkind : OfKind expr kind) :
    Below find bound expr →
      ∃ result, expr.inline find = some result ∧ result.height ≤ expr.levels + bound := by
  induction hkind with
  | literal | text | bag =>
      intro _
      refine ⟨_, by rw [Expr.inline], ?_⟩
      simp only [Expr.height, Expr.levels]
      omega
  | @property offset target name _ _ ih | @not offset target _ ih =>
      intro hbelow
      obtain ⟨inner, hinner, hheight⟩ := ih (hbelow.child (by simp [Expr.children]))
      refine ⟨_, by rw [Expr.inline, hinner]; rfl, ?_⟩
      simp only [Expr.height, Expr.levels]
      omega
  | @number offset target name _ _ ih =>
      intro hbelow
      obtain ⟨inner, hinner, hheight⟩ := ih (hbelow.child (by simp [Expr.children]))
      refine ⟨_, by rw [Expr.inline, hinner]; rfl, ?_⟩
      simp only [Expr.height, heightOfAll, Expr.levels]
      omega
  | @method offset target name args kind _ _ _ ih ihargs =>
      intro hbelow
      obtain ⟨inner, hinner, hheight⟩ := ih (hbelow.child (by simp [Expr.children]))
      have hargs : ∀ arg ∈ args.map (·.1), ∃ result, arg.inline find = some result ∧
          result.height ≤ levelsOfAll (args.map (·.1)) + bound := by
        intro arg hmem
        obtain ⟨typed, htyped, rfl⟩ := List.mem_map.mp hmem
        obtain ⟨result, hresult, hle⟩ :=
          ihargs typed htyped (hbelow.child (List.mem_cons_of_mem _ hmem))
        have harg := levels_le_levelsOfAll hmem
        exact ⟨result, hresult, by omega⟩
      obtain ⟨results, hresults, hall⟩ := exists_inlineAll hargs
      have hmost := heightOfAll_le hall
      refine ⟨_, by rw [Expr.inline, hinner, hresults]; rfl, ?_⟩
      simp only [Expr.height, Expr.levels]
      omega
  | @reference offset place name rule hname =>
      intro hbelow
      obtain ⟨found, hfound, hheight⟩ := hbelow rule (by simp [Expr.references, ruleName?])
      refine ⟨found, ?_, ?_⟩
      · rw [Expr.inline, inlineCall]
        exact (if_pos hname).trans hfound
      · rw [Expr.levels]
        omega
  | @index offset left right _ _ ihleft ihright
  | @binary offset left right _ _ _ _ _ _ _ ihleft ihright =>
      intro hbelow
      obtain ⟨first, hfirst, hheight⟩ := ihleft (hbelow.child (by simp [Expr.children]))
      obtain ⟨second, hsecond, hheight'⟩ := ihright (hbelow.child (by simp [Expr.children]))
      refine ⟨_, by rw [Expr.inline, hfirst, hsecond]; rfl, ?_⟩
      simp only [Expr.height, Expr.levels]
      omega

end Heights

end Archetype.Condition

namespace Archetype.RuleTree

open Archetype.Condition Archetype.Outline

section Rules

variable (rules : List Rule)

/-- The condition of the rule at an index with every reference expanded: below the call stands the
condition, treated in the same way, of the rule that is referred to. -/
def expanded? (index : Nat) : Option Expr := do
  let expr ← conditionAt? rules index
  expr.inline fun name => do
    let place ← referent? rules index name
    return .call 0 "matches" [← expanded? place.val]
termination_by index
decreasing_by exact place.isLt

/-- Evaluating the condition of the rule at an index can come to this part of the condition of the
rule at this place, so many levels deep: from a condition to what stands right below it, and from a
reference to the condition of the rule that is referred to. -/
inductive Visits (index : Nat) : Nat → Nat → Expr → Prop
  | whole {expr : Expr} (hexpr : conditionAt? rules index = some expr) : Visits index 1 index expr
  | child {level place : Nat} {expr child : Expr} (hvisits : Visits index level place expr)
      (hchild : child ∈ expr.children) : Visits index (level + 1) place child
  | referred {level place offset spot : Nat} {callee name : String} {args : List Expr}
      {target : Fin place} {expr : Expr}
      (hvisits : Visits index level place (.call offset callee args))
      (hname : ruleName? args = some (name, spot))
      (hplace : referent? rules place name = some target)
      (hexpr : conditionAt? rules target.val = some expr) :
      Visits index (level + 1) target.val expr

end Rules

section Rules

variable {rules : List Rule} {index : Nat}

theorem referredDepth_mono {part expr : Expr} (hreferences : part.references ⊆ expr.references) :
    referredDepth rules index part ≤ referredDepth rules index expr :=
  referredDepth_le_iff.mpr fun name hname =>
    referredDepth_le_iff.mp (Nat.le_refl _) name (hreferences hname)

theorem recordedDepth_le_referredDepth {expr : Expr} {name : String} {place : Fin index}
    (hname : name ∈ expr.references) (hplace : referent? rules index name = some place) :
    recordedDepth rules place.val ≤ referredDepth rules index expr := by
  refine referredDepth_le_iff.mp (Nat.le_refl _) name hname place ?_
  rw [referent?_eq_some_iff.mp hplace]
  exact List.mem_singleton_self place

/-- All rules are compilable and within the depth that is allowed. -/
def Bounded (rules : List Rule) : Prop :=
  ∀ index < rules.length, ∃ expr, conditionAt? rules index = some expr ∧
    Compilable rules index expr ∧ recordedDepth rules index ≤ maxDepth

theorem lt_length_of_conditionAt? {expr : Expr} (hexpr : conditionAt? rules index = some expr) :
    index < rules.length := by
  obtain ⟨rule, hrule, -⟩ := Option.bind_eq_some_iff.mp hexpr
  exact (List.getElem?_eq_some_iff.mp hrule).1

theorem Bounded.recordedDepth_eq (hbounded : Bounded rules) {expr : Expr}
    (hexpr : conditionAt? rules index = some expr) :
    recordedDepth rules index = expr.levels + referredDepth rules index expr := by
  obtain ⟨other, hother, hcompilable, -⟩ := hbounded index (lt_length_of_conditionAt? hexpr)
  rw [hexpr] at hother
  cases hother
  rw [RuleTree.recordedDepth_eq hexpr, if_pos hcompilable]

/-- **The recorded depth bounds the height of the expanded condition.** References go backward, so
the induction is on the place of the rule. -/
theorem exists_expanded_height_le (hbounded : Bounded rules) : ∀ {index : Nat},
    index < rules.length → ∃ expanded, expanded? rules index = some expanded ∧
      expanded.height ≤ recordedDepth rules index := by
  intro index
  induction index using Nat.strongRecOn with
  | ind index ih =>
      intro hindex
      obtain ⟨expr, hexpr, ⟨⟨hkind, -⟩, hplaces⟩, -⟩ := hbounded index hindex
      rw [expanded?, hexpr, hbounded.recordedDepth_eq hexpr]
      refine exists_inline_height_le hkind ?_
      intro name hname
      obtain ⟨place, hplace⟩ := List.length_eq_one_iff.mp (hplaces name hname)
      have hreferent := referent?_eq_some_iff.mpr hplace
      have hdepth := recordedDepth_le_referredDepth hname hreferent
      obtain ⟨found, hfound, hheight⟩ :=
        ih place.val place.isLt (Nat.lt_trans place.isLt hindex)
      refine ⟨.call 0 "matches" [found], ?_, ?_⟩
      · simp only [hreferent, hfound, Option.bind_eq_bind, Option.bind_some]
        rfl
      · simp only [Expr.height, heightOfAll]
        omega

/-- **What is left below a part, together with the level that it stands on, never grows.** -/
theorem Visits.level_add_depth_le (hbounded : Bounded rules) {level place : Nat} {part : Expr}
    (hvisits : Visits rules index level place part) :
    level + (part.levels + referredDepth rules place part) ≤ recordedDepth rules index + 1 := by
  induction hvisits with
  | whole hexpr =>
      rw [hbounded.recordedDepth_eq hexpr]
      omega
  | @child level place expr child _ hchild ih =>
      have hlevels := levels_lt_of_mem_children hchild
      have hreferred : referredDepth rules place child ≤ referredDepth rules place expr :=
        referredDepth_mono (references_subset_of_mem_children hchild)
      omega
  | @referred level place offset spot callee name args target expr _ hname hplace hexpr ih =>
      have hmem : name ∈ (Expr.call offset callee args).references := by
        simp [Expr.references, hname]
      have hdepth := recordedDepth_le_referredDepth hmem hplace
      rw [hbounded.recordedDepth_eq hexpr] at hdepth
      rw [Expr.levels] at ih
      omega

end Rules

theorem bounded_of_compile {nodes : List Node} {predicates : List Predicate}
    (hcompile : compileFrom [] nodes = .ok (predicates, [])) : Bounded (rules nodes) := by
  intro index hindex
  rw [rules, List.length_map] at hindex
  have hnode : nodes[index]? = some nodes[index] := List.getElem?_eq_getElem hindex
  obtain ⟨outcomes, hrun, -⟩ := exists_run_of_compileFrom hcompile
  obtain ⟨rule, hrule, -⟩ := compileNode_of_getElem? hcompile hnode
  obtain ⟨-, hrefused⟩ := depth_and_refused_of_outcome
    (knows_earlierBefore hrun index (Nat.le_of_lt hindex)) (conditionAt?_of_getElem? hnode)
    (outcome_of_compileNode hrule)
  obtain ⟨expr, -, -, hexpr, -⟩ := exists_compiles hcompile hnode
  have hnot : ¬ Refused (rules nodes) index := fun hyes => hrefused.mpr hyes rfl
  rw [refused_iff hexpr, not_not] at hnot
  obtain ⟨hcompilable, hdepth⟩ := hnot
  refine ⟨expr, hexpr, hcompilable, ?_⟩
  rwa [recordedDepth_eq hexpr, if_pos hcompilable]

/-- **Evaluation has a bounded depth.** In an accepted tree every condition can be expanded, the
result is no higher than a condition alone may be, and no way through conditions and references gets
below that level. -/
theorem height_and_level_le_of_ofOutline {outline : Outline} {tree : RuleTree}
    (htree : ofOutline outline = .ok tree) {index : Nat} (hindex : index < outline.nodes.length) :
    (∃ expanded, expanded? (rules outline.nodes) index = some expanded ∧
      expanded.height ≤ maxDepth) ∧
    ∀ level place part, Visits (rules outline.nodes) index level place part →
      level ≤ maxDepth := by
  have hbounded := bounded_of_compile (compileFrom_of_ofOutline htree).2
  have hlength : index < (rules outline.nodes).length := by
    rwa [rules, List.length_map]
  obtain ⟨-, -, -, hdepth⟩ := hbounded index hlength
  constructor
  · obtain ⟨expanded, hexpanded, hheight⟩ := exists_expanded_height_le hbounded hlength
    exact ⟨expanded, hexpanded, Nat.le_trans hheight hdepth⟩
  · intro level place part hvisits
    have hsum := hvisits.level_add_depth_le hbounded
    have hpos := levels_pos part
    omega

theorem height_and_level_le_of_reference_chain :
    ∃ outline tree, Outline.read {} "A|Colors.Count > 0\n|B|!matches(\"A\")\nC|matches(\"B\")" =
        .ok outline ∧ ofOutline outline = .ok tree ∧
      (∃ expanded, expanded? (rules outline.nodes) 3 = some expanded ∧
        expanded.height ≤ maxDepth) ∧
      ∀ level place part, Visits (rules outline.nodes) 3 level place part → level ≤ maxDepth := by
  have hrun : (Outline.read {} "A|Colors.Count > 0\n|B|!matches(\"A\")\nC|matches(\"B\")").map
      (fun outline => (outline.nodes.length, (ofOutline outline).map fun _ => ())) =
        .ok (4, .ok ()) := by
    decide +kernel
  obtain ⟨outline, hread, hpair⟩ := exists_of_map_eq_ok hrun
  obtain ⟨hlength, haccepted⟩ := Prod.mk.inj hpair
  obtain ⟨tree, htree, -⟩ := exists_of_map_eq_ok haccepted
  exact ⟨outline, tree, hread, htree, height_and_level_le_of_ofOutline htree (by omega)⟩

end Archetype.RuleTree
