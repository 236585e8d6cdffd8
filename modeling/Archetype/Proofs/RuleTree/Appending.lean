import Archetype.Proofs.Outline.Appending
import Archetype.Proofs.RuleTree.Refusals

/-!
# Earlier rules do not see later ones

Rules refer backward only, and what stands behind a text can stand neither above its nodes nor
between them. So rules that are put behind others leave them as they are: the issues that there are
come first and in the same order, each predicate is the same, and an answer differs only by new
nodes. A name that is used again later is not ambiguous for the rules in between.
-/

namespace Archetype.RuleTree

open Archetype.Condition Archetype.Outline

/-- The levels of an answer with only some of its nodes, without the levels that have none left. -/
def restrict (keep : Node → Bool) (levels : List (Nat × List Node)) : List (Nat × List Node) :=
  levels.filterMap fun (level, nodes) =>
    match nodes.filter keep with
    | [] => none
    | found => some (level, found)

theorem mem_restrict {keep : Node → Bool} {levels : List (Nat × List Node)} {level : Nat}
    {found : List Node} :
    (level, found) ∈ restrict keep levels ↔
      found ≠ [] ∧ ∃ nodes, (level, nodes) ∈ levels ∧ found = nodes.filter keep := by
  unfold restrict
  rw [List.mem_filterMap]
  constructor
  · rintro ⟨⟨place, nodes⟩, hmem, hfound⟩
    dsimp only at hfound
    split at hfound
    · cases hfound
    · next hne =>
      cases hfound
      exact ⟨hne, nodes, hmem, rfl⟩
  · rintro ⟨hne, nodes, hmem, rfl⟩
    refine ⟨(level, nodes), hmem, ?_⟩
    dsimp only
    split
    · next hnil => exact absurd hnil hne
    · rfl

theorem pairwise_restrict {keep : Node → Bool} {levels : List (Nat × List Node)}
    (hlevels : levels.Pairwise fun lower upper => lower.1 < upper.1) :
    (restrict keep levels).Pairwise fun lower upper => lower.1 < upper.1 := by
  refine hlevels.filterMap _ ?_
  rintro ⟨low, lowNodes⟩ ⟨high, highNodes⟩ hlt first hfirst second hsecond
  dsimp only at hfirst hsecond
  split at hfirst <;> cases hfirst
  split at hsecond <;> cases hsecond
  exact hlt

theorem eq_of_mem_levels {first second : List (Nat × List Node)}
    (hfirst : first.Pairwise fun lower upper => lower.1 < upper.1)
    (hsecond : second.Pairwise fun lower upper => lower.1 < upper.1)
    (hmem : ∀ entry, entry ∈ first ↔ entry ∈ second) : first = second := by
  have hirrefl : Std.Irrefl fun lower upper : Nat × List Node => lower.1 < upper.1 :=
    ⟨fun entry => Nat.lt_irrefl entry.1⟩
  have hantisymm : Std.Antisymm fun lower upper : Nat × List Node => lower.1 < upper.1 :=
    ⟨fun _ _ hlt hgt => absurd hgt (Nat.lt_asymm hlt)⟩
  exact hfirst.eq_of_mem_iff hsecond hmem

/-- **Leaving nodes out before or after they are put into levels is the same.** -/
theorem restrict_byLevel (keep : Node → Bool) (nodes : List Node) :
    restrict keep (byLevel nodes) = byLevel (nodes.filter keep) := by
  apply eq_of_mem_levels (pairwise_restrict (pairwise_byLevel nodes)) (pairwise_byLevel _)
  rintro ⟨level, found⟩
  have hswap : (nodes.filter (·.level == level)).filter keep =
      (nodes.filter keep).filter (·.level == level) := by
    rw [List.filter_filter, List.filter_filter]
    simp only [Bool.and_comm]
  rw [mem_restrict, mem_byLevel]
  constructor
  · rintro ⟨hne, all, hall, rfl⟩
    obtain ⟨rfl, -⟩ := mem_byLevel.mp hall
    exact ⟨hswap, hne⟩
  · rintro ⟨rfl, hne⟩
    rw [← hswap] at hne ⊢
    refine ⟨hne, _, mem_byLevel.mpr ⟨rfl, ?_⟩, rfl⟩
    intro hnil
    rw [hnil] at hne
    exact hne rfl

section Begins

variable {before after : Outline} (hbegins : before.Begins after)
include hbegins

/-- What comes of the nodes of a beginning comes first. -/
theorem exists_outcomes_append {outcomes all : List (Earlier × Option RuleIssue)}
    (hbefore : Run [] before.nodes outcomes) (hafter : Run [] after.nodes all) :
    ∃ others, all = outcomes ++ others := by
  obtain ⟨more, hnodes⟩ := hbegins.nodes
  rw [← hnodes] at hafter
  obtain ⟨first, second, rfl, hfirst⟩ := hafter.exists_append
  exact ⟨second, by rw [hbefore.unique hfirst]⟩

/-- **The issues that there are come first.** -/
theorem exists_issues_of_begins
    (hshort : ∀ node ∈ after.nodes, ShortNumbers node.expression) {issues : List RuleIssue}
    (herror : ofOutline before = .error (.conditions issues)) :
    ∃ more, ofOutline after = .error (.conditions (issues ++ more)) := by
  obtain ⟨outcomes, hbefore, rfl, hne⟩ := exists_run_of_ofOutline_error herror
  obtain ⟨all, hafter⟩ := exists_run
    (fun node hnode => parse_ne_numberTooLong (hshort node hnode)) []
  obtain ⟨others, rfl⟩ := exists_outcomes_append hbegins hbefore hafter
  refine ⟨others.filterMap (·.2), ?_⟩
  rw [ofOutline_of_run hafter, List.filterMap_append, if_neg (List.append_ne_nil_of_left_ne_nil hne _)]

section Trees

variable {tree later : RuleTree} (htree : ofOutline before = .ok tree)
  (hlater : ofOutline after = .ok later)
include htree hlater

/-- **Each predicate is the same.** -/
theorem holds_eq_of_begins (record : Record) {node : Node} (hnode : node ∈ before.nodes) :
    later.holds record node = tree.holds record node := by
  obtain ⟨outcomes, hbefore, -, hpredicates⟩ := exists_run_of_ofOutline htree
  obtain ⟨all, hafter, -, hall⟩ := exists_run_of_ofOutline hlater
  obtain ⟨others, rfl⟩ := exists_outcomes_append hbegins hbefore hafter
  have hinside : node.index < (outcomes.map (·.1.holds)).length := by
    rw [List.length_map, hbefore.length_eq]
    exact hbegins.linked.index_lt_of_mem hnode
  unfold holds
  rw [hpredicates, hall, List.map_append, List.getElem?_append_left hinside]

/-- A node that is there already matches as it did: nothing new stands above it. -/
theorem isMatch_iff_of_begins (record : Record) {node : Node} (hnode : node ∈ before.nodes) :
    later.IsMatch record node ↔ tree.IsMatch record node := by
  obtain ⟨-, -, rfl, -⟩ := exists_run_of_ofOutline htree
  obtain ⟨-, -, rfl, -⟩ := exists_run_of_ofOutline hlater
  have habove (upper : Node) : later.outline.IsAtOrAbove upper node ↔
      tree.outline.IsAtOrAbove upper node := hbegins.isAtOrAbove_iff hnode
  have hholds {upper : Node} (hupper : tree.outline.IsAtOrAbove upper node) :
      later.holds record upper = tree.holds record upper :=
    holds_eq_of_begins hbegins htree hlater record (mem_of_isAtOrAbove hnode hupper)
  constructor
  · rintro ⟨-, hroot, hstructural, hkeep⟩
    rw [← hbegins.isStructural_eq] at hstructural
    refine ⟨hnode, hroot, hstructural, fun upper hupper => ?_⟩
    rw [← hholds hupper]
    exact hkeep upper ((habove upper).mpr hupper)
  · rintro ⟨-, hroot, hstructural, hkeep⟩
    rw [hbegins.isStructural_eq] at hstructural
    refine ⟨hbegins.mem hnode, hroot, hstructural, fun upper hupper => ?_⟩
    have hupper' := (habove upper).mp hupper
    rw [hholds hupper']
    exact hkeep upper hupper'

/-- **An answer with the earlier nodes only is the earlier answer.** -/
theorem explain_eq_of_begins (record : Record) :
    restrict (fun node => before.nodes.contains node) (later.explain record) =
      tree.explain record := by
  have hmatch := @isMatch_iff_of_begins before after hbegins tree later htree hlater record
  obtain ⟨-, -, rfl, -⟩ := exists_run_of_ofOutline htree
  obtain ⟨-, -, rfl, -⟩ := exists_run_of_ofOutline hlater
  obtain ⟨hbefore, hmem⟩ := lists_matching hbegins.linked_after record
  have hearlier : Lists ((later.matching record).filter fun node => tree.outline.nodes.contains node)
      (tree.IsMatch record) := by
    refine ⟨hbefore.sublist List.filter_sublist, ?_⟩
    intro node
    rw [List.mem_filter, hmem, List.contains_iff_mem]
    constructor
    · rintro ⟨hlaterMatch, hnode⟩
      exact (hmatch hnode).mp hlaterMatch
    · intro htreeMatch
      exact ⟨(hmatch htreeMatch.inside).mpr htreeMatch, htreeMatch.inside⟩
  rw [explain, restrict_byLevel, hearlier.eq (lists_matching hbegins.linked record), explain]

end Trees

end Begins

/-- **Rules that are put behind others leave them as they are.** A text that is no outline stays none
for the same reason. An outline keeps its nodes in front of the new ones and its children in front of
new children. Its issues come first; and if there are none at all, its nodes have the same
predicates, and answers that are restricted to them are the same. -/
theorem earlier_rules_kept (format : Format) {text : String}
    (hend : text = "" ∨ text.toList.getLast? = some '\n') (more : String) :
    (∀ fault, Outline.read format text = .error fault →
      Outline.read format (text ++ more) = .error fault) ∧
    ∀ before after, Outline.read format text = .ok before →
      Outline.read format (text ++ more) = .ok after →
      before.nodes <+: after.nodes ∧
      (∀ index, before.children index <+: after.children index) ∧
      ((∀ node ∈ after.nodes, ShortNumbers node.expression) →
        ∀ issues, ofOutline before = .error (.conditions issues) →
          ∃ others, ofOutline after = .error (.conditions (issues ++ others))) ∧
      ∀ tree later, ofOutline before = .ok tree → ofOutline after = .ok later → ∀ record,
        (∀ node ∈ before.nodes, later.holds record node = tree.holds record node) ∧
        restrict (fun node => before.nodes.contains node) (later.explain record) =
          tree.explain record := by
  refine ⟨fun fault hread => read_append_of_error hend more hread, ?_⟩
  intro before after hbefore hafter
  have hbegins := begins_of_append hend hbefore hafter
  refine ⟨hbegins.nodes, hbegins.children_prefix, ?_, ?_⟩
  · intro hshort issues herror
    exact exists_issues_of_begins hbegins hshort herror
  · intro tree later htree hlater record
    exact ⟨fun node hnode => holds_eq_of_begins hbegins htree hlater record hnode,
      explain_eq_of_begins hbegins htree hlater record⟩

theorem earlier_rules_kept_of_repeated_name :
    "A|true\n|B|matches(\"A\")\n".toList.getLast? = some '\n' ∧
    ∃ before after tree later,
      Outline.read {} "A|true\n|B|matches(\"A\")\n" = .ok before ∧
      Outline.read {} ("A|true\n|B|matches(\"A\")\n" ++ "A|cards[\"x\"] > 0") = .ok after ∧
      ofOutline before = .ok tree ∧ ofOutline after = .ok later ∧ ∀ record,
        (∀ node ∈ before.nodes, later.holds record node = tree.holds record node) ∧
        restrict (fun node => before.nodes.contains node) (later.explain record) =
          tree.explain record := by
  have hend : "A|true\n|B|matches(\"A\")\n".toList.getLast? = some '\n' := by decide +kernel
  have hbefore : (Outline.read {} "A|true\n|B|matches(\"A\")\n").map
      (fun outline => (ofOutline outline).map fun _ => ()) = .ok (.ok ()) := by decide +kernel
  have hafter : (Outline.read {}
      ("A|true\n|B|matches(\"A\")\n" ++ "A|cards[\"x\"] > 0")).map
        (fun outline => (ofOutline outline).map fun _ => ()) = .ok (.ok ()) := by decide +kernel
  obtain ⟨before, hread, htree⟩ := exists_of_map_eq_ok hbefore
  obtain ⟨after, hreadAfter, hlater⟩ := exists_of_map_eq_ok hafter
  obtain ⟨tree, htree, -⟩ := exists_of_map_eq_ok htree
  obtain ⟨later, hlater, -⟩ := exists_of_map_eq_ok hlater
  obtain ⟨-, hkept⟩ := earlier_rules_kept {} (.inr hend) "A|cards[\"x\"] > 0"
  obtain ⟨-, -, -, hsame⟩ := hkept before after hread hreadAfter
  exact ⟨hend, before, after, tree, later, hread, hreadAfter, htree, hlater,
    hsame tree later htree hlater⟩

end Archetype.RuleTree
