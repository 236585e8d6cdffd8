import Archetype.Proofs.Outline.Traversal
import Archetype.RuleTree

/-!
# What a record matches

The way through a tree is cut off below every condition that fails. Nothing is lost by that, and
nothing is kept that should go: a node is on the way exactly if its own condition and those of all
nodes above it hold. Structural nodes lie on the way like others and are left out only of the
answer, so the levels of an answer may come up in any order. The answer has them in ascending order,
each with its nodes in the order of the text.
-/

namespace Archetype

namespace Outline

/-- The first node is the second one or stands somewhere above it. -/
inductive IsAtOrAbove (outline : Outline) : Node → Node → Prop
  | self (node : Node) : IsAtOrAbove outline node node
  | higher {upper above node : Node} (habove : above ∈ outline.nodes)
      (hparent : node.parent = some above.index) (hupper : IsAtOrAbove outline upper above) :
      IsAtOrAbove outline upper node

theorem mem_of_isAtOrAbove {outline : Outline} {upper node : Node} (hnode : node ∈ outline.nodes)
    (hupper : outline.IsAtOrAbove upper node) : upper ∈ outline.nodes := by
  induction hupper with
  | self => exact hnode
  | higher habove _ _ ih => exact ih habove

theorem keep_of_isAtOrAbove {outline : Outline} {keep : Node → Bool} (hlinked : outline.Linked)
    {upper node : Node} (hreached : outline.Reached keep node)
    (hupper : outline.IsAtOrAbove upper node) : keep upper = true := by
  induction hupper with
  | self => exact keep_of_reached hreached
  | higher habove hparent _ ih =>
      refine ih ?_
      cases hreached with
      | root _ hroot _ =>
          rw [hparent] at hroot
          cases hroot
      | under _ hreached hparent' _ =>
          have hindex := hparent.symm.trans hparent'
          rw [hlinked.eq_of_index_eq habove (mem_of_reached hreached) (Option.some.inj hindex)]
          exact hreached

/-- If everything at or above a node is kept, so is the whole way from the root to it. -/
theorem reached_of_isAtOrAbove {outline : Outline} {keep : Node → Bool} (hlinked : outline.Linked)
    {index : Nat} : ∀ node ∈ outline.nodes, node.index = index →
      (∀ upper, outline.IsAtOrAbove upper node → keep upper = true) →
        outline.Reached keep node := by
  induction index using Nat.strongRecOn with
  | ind index ih =>
      intro node hnode hindex hkeep
      have hself : keep node = true := hkeep node (.self node)
      by_cases hzero : node.index = 0
      · have hroot : node.parent = none := by
          rw [hlinked.eq_root_of_index_eq_zero hnode hzero]
          rfl
        exact .root hnode hroot hself
      · obtain ⟨above, habove, hbelow⟩ := hlinked.below node hnode hzero
        have hearlier := hbelow.earlier
        have hreached : outline.Reached keep above := by
          apply ih above.index (by omega) above habove rfl
          intro upper hupper
          exact hkeep upper (.higher habove hbelow.parent hupper)
        exact .under hnode hreached hbelow.parent hself

/-- **Cutting the way off below what is not kept is the same as asking all nodes above.** -/
theorem reached_iff_isAtOrAbove {outline : Outline} {keep : Node → Bool}
    (hlinked : outline.Linked) (node : Node) :
    outline.Reached keep node ↔
      node ∈ outline.nodes ∧ ∀ upper, outline.IsAtOrAbove upper node → keep upper = true := by
  constructor
  · intro hreached
    exact ⟨mem_of_reached hreached, fun _ hupper => keep_of_isAtOrAbove hlinked hreached hupper⟩
  · rintro ⟨hnode, hkeep⟩
    exact reached_of_isAtOrAbove hlinked node hnode rfl hkeep

end Outline

namespace RuleTree

open Archetype.Outline

/-- A node is a match of a record if it is a deck type and its own condition and those of all nodes
above it hold. -/
structure IsMatch (tree : RuleTree) (record : Record) (node : Node) : Prop where
  inside : node ∈ tree.outline.nodes
  notRoot : node.isRoot = false
  notStructural : tree.outline.isStructural node = false
  holds : ∀ upper, tree.outline.IsAtOrAbove upper node → tree.holds record upper = true

theorem lists_matching {tree : RuleTree} (hlinked : tree.outline.Linked) (record : Record) :
    Lists (tree.matching record) (tree.IsMatch record) := by
  have hwalk : Lists (tree.outline.walk (tree.holds record))
      (tree.outline.Reached (tree.holds record)) := lists_walk hlinked
  obtain ⟨hbefore, hmem⟩ := hwalk
  refine ⟨hbefore.sublist List.filter_sublist, ?_⟩
  intro node
  have htype : tree.isType node = true ↔
      node.isRoot = false ∧ tree.outline.isStructural node = false := by
    simp [isType]
  rw [matching, List.mem_filter, hmem, reached_iff_isAtOrAbove hlinked, htype]
  constructor
  · rintro ⟨⟨hnode, hholds⟩, hroot, hstructural⟩
    exact ⟨hnode, hroot, hstructural, hholds⟩
  · rintro ⟨hnode, hroot, hstructural, hholds⟩
    exact ⟨⟨hnode, hholds⟩, hroot, hstructural⟩

/-- The matches of a record are found among the nodes in the order of the text. -/
theorem matching_sublist {tree : RuleTree} (hlinked : tree.outline.Linked) (record : Record) :
    (tree.matching record).Sublist tree.outline.nodes := by
  classical
  have hfilter : tree.matching record =
      tree.outline.nodes.filter fun node => decide (tree.IsMatch record node) := by
    apply (lists_matching hlinked record).eq
    refine ⟨hlinked.pairwise_before.sublist List.filter_sublist, ?_⟩
    intro node
    simp only [List.mem_filter, decide_eq_true_eq, and_iff_right_iff_imp]
    exact IsMatch.inside
  rw [hfilter]
  exact List.filter_sublist

/-! ### Levels -/

theorem level_le_top {nodes : List Node} {node : Node} (hnode : node ∈ nodes) :
    node.level ≤ (nodes.map (·.level)).foldl max 0 := by
  rw [List.foldl_max]
  have hlevel := List.le_max?_getD_of_mem (k := 0) (List.mem_map_of_mem (f := (·.level)) hnode)
  omega

/-- A level is there with all its nodes, unless it has none. -/
theorem mem_byLevel {nodes found : List Node} {level : Nat} :
    (level, found) ∈ byLevel nodes ↔ found = nodes.filter (·.level == level) ∧ found ≠ [] := by
  unfold byLevel
  rw [List.mem_filterMap]
  constructor
  · rintro ⟨place, -, hplace⟩
    split at hplace
    · cases hplace
    · next hne =>
      cases hplace
      exact ⟨rfl, hne⟩
  · rintro ⟨rfl, hne⟩
    obtain ⟨node, hnode⟩ := List.exists_mem_of_ne_nil _ hne
    have hlevel : node.level = level := by simpa using List.of_mem_filter hnode
    have htop := level_le_top (List.mem_of_mem_filter hnode)
    refine ⟨level, List.mem_range.mpr (by omega), ?_⟩
    split
    · next hnil => exact absurd hnil hne
    · rfl

theorem pairwise_byLevel (nodes : List Node) :
    (byLevel nodes).Pairwise fun lower upper => lower.1 < upper.1 := by
  refine List.pairwise_lt_range.filterMap _ ?_
  intro lower upper hlt first hfirst second hsecond
  split at hfirst <;> cases hfirst
  split at hsecond <;> cases hsecond
  exact hlt

/-- **The answer has a level exactly if the level has matches, and then all of them**, once each and
in the order of the text. -/
theorem explain_of_linked {tree : RuleTree} (hlinked : tree.outline.Linked) (record : Record)
    (level : Nat) :
    ∃ found, found.Sublist tree.outline.nodes ∧ found.Nodup ∧
      (∀ node, node ∈ found ↔ tree.IsMatch record node ∧ node.level = level) ∧
      ∀ nodes, (level, nodes) ∈ tree.explain record ↔ nodes = found ∧ found ≠ [] := by
  obtain ⟨hbefore, hmem⟩ := lists_matching hlinked record
  refine ⟨(tree.matching record).filter (·.level == level), ?_, ?_, ?_, ?_⟩
  · exact List.filter_sublist.trans (matching_sublist hlinked record)
  · exact (hbefore.sublist List.filter_sublist).nodup
  · intro node
    rw [List.mem_filter, hmem, beq_iff_eq]
  · intro nodes
    rw [explain, mem_byLevel]
    constructor
    · rintro ⟨rfl, hne⟩
      exact ⟨rfl, hne⟩
    · rintro ⟨rfl, hne⟩
      exact ⟨rfl, hne⟩

end RuleTree

end Archetype
