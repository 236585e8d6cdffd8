import Archetype.Proofs.Condition.Relevance
import Archetype.Proofs.Record.Arrangement
import Archetype.Proofs.RuleTree.Values

/-!
# What a rule tree can tell apart

The predicate of a node looks at the texts in its own condition and in those of the rules that it
refers to, directly or not. Records that are alike under these texts and the category are the same
to it, so what a record holds beside them matters by its number and total alone, and no order in
which the record is given matters.
-/

namespace Archetype.RuleTree

open Archetype.Condition Archetype.Outline

section Rules

variable (rules : List Rule)

/-- The rule at an index refers to the rule at this place, directly or through others. -/
inductive Reaches (index : Nat) : Nat → Prop
  | self : Reaches index index
  | referred {place : Nat} {expr : Expr} {name : String} {target : Fin place}
      (hreaches : Reaches index place) (hexpr : conditionAt? rules place = some expr)
      (hname : name ∈ expr.references) (htarget : referent? rules place name = some target) :
      Reaches index target.val

/-- The texts in the condition of a rule and in those of the rules that it reaches. -/
def mentioned (index : Nat) : Set Text :=
  {text | ∃ place expr, Reaches rules index place ∧ conditionAt? rules place = some expr ∧
    text ∈ expr.texts}

/-- The texts in the conditions of all rules. -/
def texts : Set Text :=
  {text | ∃ place expr, conditionAt? rules place = some expr ∧ text ∈ expr.texts}

end Rules

theorem mentioned_subset_texts (rules : List Rule) (index : Nat) :
    mentioned rules index ⊆ texts rules := by
  rintro text ⟨place, expr, -, hexpr, htext⟩
  exact ⟨place, expr, hexpr, htext⟩

theorem Reaches.trans {rules : List Rule} {first second third : Nat}
    (hfirst : Reaches rules first second) (hsecond : Reaches rules second third) :
    Reaches rules first third := by
  induction hsecond with
  | self => exact hfirst
  | referred _ hexpr hname htarget ih => exact .referred ih hexpr hname htarget

theorem mentioned_subset {rules : List Rule} {index place : Nat}
    (hreaches : Reaches rules index place) : mentioned rules place ⊆ mentioned rules index := by
  rintro text ⟨other, expr, hother, hexpr⟩
  exact ⟨other, expr, hreaches.trans hother, hexpr⟩

/-- **A predicate does not tell alike records apart.** References go backward, so the induction is
on the place of the rule. -/
theorem holds_eq_of_alike {nodes : List Node} {predicates : List Predicate}
    (hcompile : compileFrom [] nodes = .ok (predicates, [])) {a b : Record} {index : Nat} :
    ∀ {holds : Predicate}, predicates[index]? = some holds →
      Record.Alike (mentioned (rules nodes) index) a b → holds a = holds b := by
  induction index using Nat.strongRecOn with
  | ind index ih =>
      intro holds hholds halike
      have hindex : index < nodes.length := by
        rw [← length_of_compileFrom hcompile]
        exact (List.getElem?_eq_some_iff.mp hholds).1
      obtain ⟨expr, found, hcompiles, hexpr, hfound⟩ :=
        exists_compiles hcompile (List.getElem?_eq_getElem hindex)
      obtain ⟨deepest, hcheck⟩ := hcompiles.check
      rw [hholds] at hfound
      cases hfound
      refine agrees_of_check halike expr ⟨?_, ?_⟩ (gives_of_compile hcheck)
      · exact fun text htext => ⟨index, expr, .self, hexpr, htext⟩
      · intro resolve' hsome name hname other hother
        cases hsome
        obtain ⟨place, hplace, hpredicate⟩ :=
          exists_referent_of_resolve hcompile (Nat.le_of_lt hindex) hother
        have hreaches : Reaches (rules nodes) index place.val := .referred .self hexpr hname hplace
        exact ih place.val place.isLt hpredicate (halike.mono (mentioned_subset hreaches))

section Tree

variable {format : Format} {text : String} {tree : RuleTree}
  (hread : RuleTree.read format text = .ok tree)
include hread

theorem holds_eq_of_alike_of_read {a b : Record} {node : Node}
    (halike : Record.Alike (mentioned (rules tree.outline.nodes) node.index) a b) :
    tree.holds a node = tree.holds b node := by
  unfold RuleTree.holds
  cases hholds : tree.predicates[node.index]? with
  | none => rfl
  | some holds => exact holds_eq_of_alike (outline_of_read hread).2 hholds halike

theorem explain_eq_of_alike {a b : Record}
    (halike : Record.Alike (texts (rules tree.outline.nodes)) a b) :
    tree.explain a = tree.explain b := by
  have hholds : tree.holds a = tree.holds b := by
    funext node
    exact holds_eq_of_alike_of_read hread (halike.mono (mentioned_subset_texts _ _))
  rw [RuleTree.explain, RuleTree.matching, hholds]
  rfl

/-- However often a record is rearranged, it is explained in the same way. -/
theorem exists_explain_eq_of_rearranged {data others : List (Datum × Datum)}
    (hdata : Relation.ReflTransGen Record.Rearranges data others) {record : Record}
    (hrecord : Record.ofEntries data = .ok record) :
    ∃ twin, Record.ofEntries others = .ok twin ∧ tree.explain twin = tree.explain record := by
  induction hdata with
  | refl => exact ⟨record, hrecord, rfl⟩
  | tail _ hstep ih =>
      obtain ⟨middle, hmiddle, hsame⟩ := ih
      obtain ⟨twin, htwin, halike⟩ := Record.exists_alike_of_rearranges hstep hmiddle
      refine ⟨twin, htwin, ?_⟩
      calc tree.explain twin = tree.explain middle := (explain_eq_of_alike hread (halike _)).symm
        _ = tree.explain record := hsame

/-- **Records matter by what rules ask of them.** The predicate of a node is the same for records of
one category whose bags have the same sizes and agree on the category and on the texts in the
condition and in those of the rules that it reaches. A tree answers alike for records that agree in
this way on the texts of all its rules, and for one record given in different orders. -/
theorem answers_eq_of_alike :
    (∀ node ∈ tree.outline.nodes, ∀ a b : Record,
      Record.Alike (mentioned (rules tree.outline.nodes) node.index) a b →
        tree.holds a node = tree.holds b node) ∧
    (∀ a b : Record, Record.Alike (texts (rules tree.outline.nodes)) a b →
      tree.explain a = tree.explain b ∧ tree.classify a = tree.classify b) ∧
    ∀ data others : List (Datum × Datum), Relation.ReflTransGen Record.Rearranges data others →
      ∀ record, Record.ofEntries data = .ok record →
        ∃ twin, Record.ofEntries others = .ok twin ∧
          tree.explain twin = tree.explain record ∧ tree.classify twin = tree.classify record := by
  refine ⟨fun node _ a b halike => holds_eq_of_alike_of_read hread halike, ?_, ?_⟩
  · intro a b halike
    have hexplain := explain_eq_of_alike hread halike
    refine ⟨hexplain, ?_⟩
    rw [RuleTree.classify, RuleTree.classify, hexplain]
  · intro data others hdata record hrecord
    obtain ⟨twin, htwin, hexplain⟩ := exists_explain_eq_of_rearranged hread hdata hrecord
    refine ⟨twin, htwin, hexplain, ?_⟩
    rw [RuleTree.classify, RuleTree.classify, hexplain]

end Tree

/-- The entries of a record are exchanged, and so are the items of its list. -/
theorem answers_eq_of_exchanged_entries :
    ∃ tree, RuleTree.read {} "A|Cards[\"x\"] == 1\n|B|matches(\"A\") && Cards.Count == 2" =
        .ok tree ∧
      ∃ record twin,
        Record.ofEntries [(.text "category", .null), (.text "cards", .list [.text "x", .text "y"])] =
          .ok record ∧
        Record.ofEntries [(.text "cards", .list [.text "y", .text "x"]), (.text "category", .null)] =
          .ok twin ∧
        tree.explain twin = tree.explain record ∧ tree.classify twin = tree.classify record := by
  have haccepted : (RuleTree.read {}
      "A|Cards[\"x\"] == 1\n|B|matches(\"A\") && Cards.Count == 2").map (fun _ => ()) = .ok () := by
    decide +kernel
  obtain ⟨tree, hread, -⟩ := exists_of_map_eq_ok haccepted
  have hitems : Record.Rearranges
      ([(.text "category", .null)] ++ [(.text "cards", .list [.text "x", .text "y"])])
      ([(.text "category", .null)] ++ [(.text "cards", .list [.text "y", .text "x"])]) :=
    .bag (by decide) (.list (.swap _ _ []))
  have hentries : Record.Rearranges
      [(.text "category", .null), (.text "cards", .list [.text "y", .text "x"])]
      [(.text "cards", .list [.text "y", .text "x"]), (.text "category", .null)] :=
    .entries (.swap _ _ []) (by simp [Text.ofString_inj])
  obtain ⟨twin, htwin, hsame⟩ := (answers_eq_of_alike hread).2.2 _ _
    (.tail (.single hitems) hentries) _ rfl
  exact ⟨tree, hread, _, twin, rfl, htwin, hsame⟩

/-- The counts of names that are spelled alike are no two counts: the last one stands, so the order
of the entries does matter then. -/
theorem classify_ne_of_names_spelled_alike :
    ∃ tree, RuleTree.read {} "A|Cards[\"1\"] == 2" = .ok tree ∧ ∃ first second,
      Record.ofEntries [(.text "cards", .map [(.int 1, .int 1), (.text "1", .int 2)])] =
        .ok first ∧
      Record.ofEntries [(.text "cards", .map [(.text "1", .int 2), (.int 1, .int 1)])] =
        .ok second ∧
      tree.classify first ≠ tree.classify second := by
  have hfirst : (Record.ofEntries
      [(.text "cards", .map [(.int 1, .int 1), (.text "1", .int 2)])]).toOption =
        some ⟨none, ⟨[]⟩, ⟨[("1", 2)]⟩, ⟨[]⟩⟩ := by
    decide +kernel
  have hsecond : (Record.ofEntries
      [(.text "cards", .map [(.text "1", .int 2), (.int 1, .int 1)])]).toOption =
        some ⟨none, ⟨[]⟩, ⟨[("1", 1)]⟩, ⟨[]⟩⟩ := by
    decide +kernel
  have hanswers : (RuleTree.read {} "A|Cards[\"1\"] == 2").map (fun tree =>
      (tree.classify ⟨none, ⟨[]⟩, ⟨[("1", 2)]⟩, ⟨[]⟩⟩, tree.classify ⟨none, ⟨[]⟩, ⟨[("1", 1)]⟩, ⟨[]⟩⟩)) =
        .ok (some ⟨"A", 1, ["A"]⟩, none) := by
    decide +kernel
  obtain ⟨tree, hread, hpair⟩ := exists_of_map_eq_ok hanswers
  obtain ⟨hone, hnone⟩ := Prod.mk.inj hpair
  refine ⟨tree, hread, _, _, eq_ok_of_toOption hfirst, eq_ok_of_toOption hsecond, ?_⟩
  rw [hone, hnone]
  exact Option.some_ne_none _

end Archetype.RuleTree
