import Archetype.Proofs.Condition.Counting
import Archetype.Proofs.RuleTree.Bare
import Archetype.Proofs.RuleTree.Relevance

/-!
# Rules by membership and rules by counts

Two lists of rules ask the same if they have the same names, and each pair of conditions becomes one
condition when all questions for items are asked by counts. Their references go to the same places,
so by induction on the place they hold of the same records, as long as a record counts each name
that they ask for at least once or not at all. A name that is counted less than once is held all the
same, so there the two ways to ask differ.
-/

namespace Archetype.RuleTree

open Archetype.Condition Archetype.Outline

/-- The condition of a rule with its questions asked by counts. -/
def Rule.counted? (rule : Rule) : Option Expr :=
  (Expr.parse rule.condition).toOption.map Expr.counted

/-- Rules of the same names whose conditions are the same by counts. -/
structure AskAlike (rules others : List Rule) : Prop where
  names : rules.map (·.name) = others.map (·.name)
  conditions : rules.map Rule.counted? = others.map Rule.counted?

section Rules

variable {rules others : List Rule}

theorem referent?_eq_of_names (hnames : rules.map (·.name) = others.map (·.name)) (index : Nat)
    (name : String) : referent? rules index name = referent? others index name := by
  have hname : ∀ place : Nat, (rules[place]?).any (·.name == some name) =
      (others[place]?).any (·.name == some name) := by
    intro place
    have hplace := congrArg (fun names => (names[place]?).any (· == some name)) hnames
    simpa only [List.getElem?_map, Option.any_map] using hplace
  have hplaces : places rules index name = places others index name := by
    rw [places, places]
    exact List.filter_congr fun place _ => hname place.val
  rw [referent?, referent?, hplaces]

theorem counted_eq_of_conditionAt?
    (hconditions : rules.map Rule.counted? = others.map Rule.counted?) {index : Nat}
    {expr other : Expr} (hexpr : conditionAt? rules index = some expr)
    (hother : conditionAt? others index = some other) : expr.counted = other.counted := by
  have hcounted : ∀ (rules : List Rule) (expr : Expr), conditionAt? rules index = some expr →
      (rules.map Rule.counted?)[index]? = some (some expr.counted) := by
    intro rules expr hexpr
    obtain ⟨rule, hrule, hparse⟩ := Option.bind_eq_some_iff.mp hexpr
    rw [List.getElem?_map, hrule, Option.map_some, Rule.counted?, hparse, Option.map_some]
  have hsame := hcounted rules expr hexpr
  rw [hconditions, hcounted others other hother] at hsame
  exact (Option.some.inj (Option.some.inj hsame)).symm

end Rules

/-! ### What holds of a record -/

section Compiled

variable {nodes : List Node} {predicates : List Predicate}

/-- What a name refers to is worth what the predicate at its place says. -/
theorem refer_eq (hcompile : compileFrom [] nodes = .ok (predicates, [])) (record : Record)
    {index : Nat} (hindex : index ≤ nodes.length) (name : String) :
    refer (rules nodes) record index name =
      match referent? (rules nodes) index name with
      | none => .error (.unresolvedRule name)
      | some place => .ok (.bool ((predicates[place.val]?).any (· record))) := by
  rw [refer]
  cases hplace : referent? (rules nodes) index name with
  | none => rfl
  | some place =>
      have hbefore : place.val < nodes.length := Nat.lt_of_lt_of_le place.isLt hindex
      obtain ⟨expr, holds, hcompiles, hexpr, hholds⟩ :=
        exists_compiles hcompile (List.getElem?_eq_getElem hbefore)
      obtain ⟨deepest, hcheck⟩ := hcompiles.check
      dsimp only
      rw [hexpr, hholds]
      exact eval_of_check (agree_refer hcompile record (Nat.le_of_lt hbefore)) expr
        (gives_of_compile hcheck)

/-- The value of a rule is that of its condition with all questions asked by counts. -/
theorem eval_counted_of_compileFrom (hcompile : compileFrom [] nodes = .ok (predicates, []))
    {record : Record} (hnames : ∀ part ∈ record.bags, part.2.names.Nodup)
    (hcounts : record.CountsAll (texts (rules nodes))) {index : Nat}
    (hindex : index < nodes.length) :
    ∃ expr, conditionAt? (rules nodes) index = some expr ∧
      expr.counted.eval (refer (rules nodes) record index) record =
        .ok (.bool ((predicates[index]?).any (· record))) := by
  obtain ⟨expr, holds, hcompiles, hexpr, hholds⟩ :=
    exists_compiles hcompile (List.getElem?_eq_getElem hindex)
  obtain ⟨deepest, hcheck⟩ := hcompiles.check
  have hgives := gives_of_compile hcheck
  have htexts : expr.texts ⊆ texts (rules nodes) :=
    fun text htext => ⟨index, expr, hexpr, htext⟩
  refine ⟨expr, hexpr, ?_⟩
  rw [eval_counted hnames (fits_of_check expr hgives).kind (hcounts.mono htexts), hholds]
  exact eval_of_check (agree_refer hcompile record (Nat.le_of_lt hindex)) expr hgives

variable {others : List Node} {answers : List Predicate}

/-- **Rules that ask alike hold alike.** -/
theorem holds_eq_of_askAlike (hcompile : compileFrom [] nodes = .ok (predicates, []))
    (hothers : compileFrom [] others = .ok (answers, []))
    (halike : AskAlike (rules nodes) (rules others)) {record : Record}
    (hnames : ∀ part ∈ record.bags, part.2.names.Nodup)
    (hcounts : record.CountsAll (texts (rules nodes) ∪ texts (rules others))) (index : Nat) :
    (predicates[index]?).any (· record) = (answers[index]?).any (· record) := by
  have hlength : nodes.length = others.length := by
    simpa [rules] using congrArg List.length halike.names
  induction index using Nat.strongRecOn with
  | ind index ih =>
      by_cases hindex : index < nodes.length
      · obtain ⟨expr, hexpr, hvalue⟩ := eval_counted_of_compileFrom hcompile hnames
          (hcounts.mono Set.subset_union_left) hindex
        obtain ⟨other, hother, hanswer⟩ := eval_counted_of_compileFrom hothers hnames
          (hcounts.mono Set.subset_union_right) (hlength ▸ hindex)
        have hrefer : refer (rules nodes) record index = refer (rules others) record index := by
          funext name
          rw [refer_eq hcompile record (Nat.le_of_lt hindex),
            refer_eq hothers record (Nat.le_of_lt (hlength ▸ hindex)),
            referent?_eq_of_names halike.names]
          cases referent? (rules others) index name with
          | none => rfl
          | some place =>
              dsimp only
              rw [ih place.val place.isLt]
        rw [counted_eq_of_conditionAt? halike.conditions hexpr hother, hrefer, hanswer] at hvalue
        exact (Value.bool.inj (Except.ok.inj hvalue)).symm
      · have hnone : predicates[index]? = none := by
          rw [List.getElem?_eq_none_iff, length_of_compileFrom hcompile]
          exact Nat.le_of_not_lt hindex
        have hnone' : answers[index]? = none := by
          rw [List.getElem?_eq_none_iff, length_of_compileFrom hothers]
          omega
        rw [hnone, hnone']

end Compiled

/-- What a tree asks, in the words of counts: its nodes without their conditions, and these. -/
def byCounts (tree : RuleTree) : Outline × List (Option Expr) :=
  (tree.outline.bare, (rules tree.outline.nodes).map Rule.counted?)

theorem names_eq_of_bare_eq {outline other : Outline} (hbare : outline.bare = other.bare) :
    (rules outline.nodes).map (·.name) = (rules other.nodes).map (·.name) := by
  have hnames : ∀ outline : Outline, (rules outline.nodes).map (·.name) =
      (rules outline.bare.nodes).map (·.name) := by
    intro outline
    simp only [rules, Outline.bare, List.map_map]
    rfl
  rw [hnames outline, hnames other, hbare]

/-- **Trees that ask alike classify alike.** -/
theorem classify_eq_of_askAlike {format otherFormat : Format} {text otherText : String}
    {tree other : RuleTree} (hread : RuleTree.read format text = .ok tree)
    (hother : RuleTree.read otherFormat otherText = .ok other)
    (hsame : tree.byCounts = other.byCounts) {record : Record}
    (hnames : ∀ part ∈ record.bags, part.2.names.Nodup)
    (hcounts : record.CountsAll
      (texts (rules tree.outline.nodes) ∪ texts (rules other.outline.nodes))) :
    bareLevels (tree.explain record) = bareLevels (other.explain record) ∧
      tree.classify record = other.classify record := by
  obtain ⟨hbare, hconditions⟩ := Prod.mk.inj hsame
  refine answers_eq_of_bare_eq hbare ?_
  funext node
  exact holds_eq_of_askAlike (outline_of_read hread).2 (outline_of_read hother).2
    ⟨names_eq_of_bare_eq hbare, hconditions⟩ hnames hcounts node.index

/-- Two conditions by themselves that are the same by counts. -/
theorem holds_eq_of_counted_eq {text otherText : String} {holds other : Predicate}
    (hcompile : Condition.compile text = .ok holds)
    (hother : Condition.compile otherText = .ok other) {first second : Expr}
    (hfirst : Expr.parse text = .ok first) (hsecond : Expr.parse otherText = .ok second)
    (hcounted : first.counted = second.counted) {record : Record}
    (hnames : ∀ part ∈ record.bags, part.2.names.Nodup)
    (hcounts : record.CountsAll (first.texts ∪ second.texts)) : holds record = other record := by
  obtain ⟨expr, hparse, hgives⟩ := exists_gives_of_compile_text hcompile
  obtain ⟨twin, htwin, hgives'⟩ := exists_gives_of_compile_text hother
  cases hfirst.symm.trans hparse
  cases hsecond.symm.trans htwin
  have hvalue := eval_of_check (agree_none noRules record) first hgives
  have hanswer := eval_of_check (agree_none noRules record) second hgives'
  rw [← eval_counted hnames (fits_of_check first hgives).kind
    (hcounts.mono Set.subset_union_left), hcounted, eval_counted hnames
    (fits_of_check second hgives').kind (hcounts.mono Set.subset_union_right), hanswer] at hvalue
  exact (Value.bool.inj (Except.ok.inj hvalue)).symm

/-! ### Questions of the language -/

/-- The names of the methods that ask whether items are in a bag. -/
def membershipNames : List String :=
  ["contains", "containsall", "containsany", "containskey"]

theorem method_membership (bag : Record → Bag) (item : Record → Option Text) {name : String}
    (hname : canonical name ∈ membershipNames) :
    Meaning.method bag name [⟨.text, item⟩] =
      .ok ⟨.bool, fun record => (bag record).holds (item record)⟩ := by
  have hall : ∀ record, (bag record).containsAll [item record] =
      (bag record).holds (item record) := by
    simp [Bag.containsAll]
  have hany : ∀ record, (bag record).containsAny 1 [item record] =
      (bag record).holds (item record) := by
    simp [containsAny_one]
  simp only [membershipNames, List.mem_cons, List.not_mem_nil, or_false] at hname
  rcases hname with hname | hname | hname | hname <;>
    simp [Meaning.method, hname, Meaning.items, Meaning.item, Meaning.textItems,
      Meaning.leastAndItems, Except.map, hall, hany]

theorem method_count (bag : Record → Bag) (item : Record → Option Text) {name : String}
    (hname : canonical name = "count") :
    Meaning.method bag name [⟨.text, item⟩] =
        .ok ⟨.int, fun record => (bag record).countOf (item record)⟩ ∧
      Meaning.index ⟨.bag, bag⟩ ⟨.text, item⟩ =
        .ok ⟨.int, fun record => (bag record).countOf (item record)⟩ ∧
      Meaning.property? bag name = some ⟨.int, fun record => (bag record).distinct⟩ := by
  refine ⟨?_, rfl, ?_⟩
  · simp [Meaning.method, hname, Meaning.item]
  · simp [Meaning.property?, hname]

/-! ### Membership and counts -/

end Archetype.RuleTree
