import Mathlib.Data.List.Induction
import Archetype.Proofs.Classifier.Calls
import Archetype.Proofs.Outline.Shape

/-!
# The type that is selected

The levels of an answer are gone through from the first to the last, and a level with exactly one
match takes the place of what was selected before it. What is left at the end is therefore the match
of the deepest such level, whatever the levels above, between and below it hold. Its path leads
through the nodes above it, structural ones included, and the conditions of all of them hold, since
a match is never met below a condition that fails.
-/

namespace Archetype

namespace Outline

/-- Whatever lies on the way to a node is the node or stands above it. The induction is on the way
from its end, because nodes are linked to what stands above them. -/
theorem IsWay.isAtOrAbove {outline : Outline} {root : Node} {way : List Node} :
    ∀ {node : Node}, outline.IsWay root way node →
      ∀ step ∈ way, outline.IsAtOrAbove step node := by
  induction way using List.reverseRecOn with
  | nil => simp
  | append_singleton upper lower ih =>
      intro node hway step hstep
      obtain ⟨hinside, hlinked, hlast⟩ := hway
      rw [← List.cons_append] at hlinked hlast
      rw [List.getLast?_concat] at hlast
      cases hlast
      rcases List.mem_append.mp hstep with hupper | hlower
      · obtain ⟨above, habove⟩ : ∃ above, upper.getLast? = some above :=
          ⟨_, List.getLast?_eq_some_getLast (List.ne_nil_of_mem hupper)⟩
        have hend : (root :: upper).getLast? = some above := by
          rw [List.getLast?_cons, habove, Option.getD_some]
        have hparent : lower.parent = some above.index :=
          (List.isChain_append.mp hlinked).2.2 above hend lower rfl
        have hwayAbove : outline.IsWay root upper above :=
          ⟨List.Subset.trans (List.subset_append_left _ _) hinside,
            (List.isChain_append.mp hlinked).1, hend⟩
        exact .higher (hwayAbove.inside (List.mem_of_getLast? habove)) hparent
          (ih hwayAbove step hupper)
      · rw [List.mem_singleton.mp hlower]
        exact .self lower

end Outline

namespace RuleTree

open Archetype.Outline

/-- The deepest of the levels with exactly one node, and that node. -/
structure IsDeepestUnique (levels : List (Nat × List Node)) (level : Nat) (node : Node) :
    Prop where
  unique : (level, [node]) ∈ levels
  deepest : ∀ other found, (other, [found]) ∈ levels → other ≤ level

theorem deepestUnique_concat_singleton (levels : List (Nat × List Node)) (level : Nat)
    (node : Node) : deepestUnique (levels ++ [(level, [node])]) = some node := by
  simp [deepestUnique, List.foldl_append]

theorem deepestUnique_concat_of_ne (levels : List (Nat × List Node)) (level : Nat)
    {nodes : List Node} (hnodes : ∀ node, nodes ≠ [node]) :
    deepestUnique (levels ++ [(level, nodes)]) = deepestUnique levels := by
  rw [deepestUnique, List.foldl_append, List.foldl_cons, List.foldl_nil]
  dsimp only
  split
  · exact absurd rfl (hnodes _)
  · rfl

theorem deepestUnique_eq_none_iff {levels : List (Nat × List Node)} :
    deepestUnique levels = none ↔ ∀ level node, (level, [node]) ∉ levels := by
  induction levels using List.reverseRecOn with
  | nil => simp [deepestUnique]
  | append_singleton levels last ih =>
      obtain ⟨level, nodes⟩ := last
      by_cases hone : ∃ node, nodes = [node]
      · obtain ⟨node, rfl⟩ := hone
        rw [deepestUnique_concat_singleton]
        simp only [reduceCtorEq, false_iff]
        intro hnone
        exact hnone level node (List.mem_append_right _ List.mem_cons_self)
      · rw [not_exists] at hone
        rw [deepestUnique_concat_of_ne levels level hone, ih]
        refine forall_congr' fun other => forall_congr' fun node => not_congr ?_
        simp [Ne.symm (hone node)]

/-- **What is selected is the node of the deepest level that has exactly one.** The levels are in
ascending order, so the last one that counts is the deepest one. -/
theorem exists_isDeepestUnique {levels : List (Nat × List Node)} {node : Node}
    (hlevels : levels.Pairwise fun lower upper => lower.1 < upper.1)
    (hselected : deepestUnique levels = some node) :
    ∃ level, IsDeepestUnique levels level node := by
  induction levels using List.reverseRecOn with
  | nil => cases hselected
  | append_singleton levels last ih =>
      obtain ⟨level, nodes⟩ := last
      obtain ⟨hearlier, -, hlast⟩ := List.pairwise_append.mp hlevels
      have hless : ∀ entry ∈ levels, entry.1 < level :=
        fun entry hentry => hlast entry hentry (level, nodes) List.mem_cons_self
      by_cases hone : ∃ found, nodes = [found]
      · obtain ⟨found, rfl⟩ := hone
        rw [deepestUnique_concat_singleton] at hselected
        cases hselected
        refine ⟨level, List.mem_append_right _ List.mem_cons_self, ?_⟩
        intro other found hother
        rcases List.mem_append.mp hother with hother | hother
        · exact (hless _ hother).le
        · cases List.mem_singleton.mp hother
          exact le_rfl
      · rw [not_exists] at hone
        rw [deepestUnique_concat_of_ne levels level hone] at hselected
        obtain ⟨best, hunique, hdeepest⟩ := ih hearlier hselected
        refine ⟨best, List.mem_append_left _ hunique, ?_⟩
        intro other found hother
        rcases List.mem_append.mp hother with hother | hother
        · exact hdeepest other found hother
        · cases List.mem_singleton.mp hother
          exact absurd rfl (hone found)

theorem isMatch_of_mem_explain {tree : RuleTree} (hlinked : tree.outline.Linked)
    {record : Record} {level : Nat} {nodes : List Node}
    (hlevel : (level, nodes) ∈ tree.explain record) {node : Node} (hnode : node ∈ nodes) :
    tree.IsMatch record node ∧ node.level = level := by
  obtain ⟨found, -, -, hmem, hfound⟩ := explain_of_linked hlinked record level
  obtain ⟨rfl, -⟩ := (hfound nodes).mp hlevel
  exact (hmem node).mp hnode

/-- The conditions of all nodes on the way to a match hold. -/
theorem IsMatch.exists_way {tree : RuleTree} (hlinked : tree.outline.Linked) {record : Record}
    {node : Node} (hmatch : tree.IsMatch record node) :
    ∃ way, tree.outline.IsWay (.root tree.outline.format.rootName) way node ∧
      tree.outline.path node = way.map (·.name) ∧ way.length = node.level ∧
      way.getLast? = some node ∧ ∀ step ∈ way, tree.holds record step = true := by
  obtain ⟨way, hway, hlength, hpath⟩ := hlinked.exists_way hmatch.inside
  refine ⟨way, hway, hpath, hlength, ?_, ?_⟩
  · have hne : way ≠ [] := by
      rintro rfl
      obtain rfl := Option.some.inj hway.last
      cases hmatch.notRoot
    obtain ⟨upper, rest, rfl⟩ := List.exists_cons_of_ne_nil hne
    exact hway.last
  · intro step hstep
    exact hmatch.holds step (hway.isAtOrAbove step hstep)

end RuleTree

namespace Classifier

open Archetype.Outline Archetype.RuleTree

theorem explain_of_tree {classifier : Classifier} {tree : RuleTree}
    (htree : classifier.tree = some tree) (record : Record) :
    classifier.explain record = tree.explain record := by
  rw [explain, htree]
  rfl

theorem classify_of_tree {classifier : Classifier} {tree : RuleTree}
    (htree : classifier.tree = some tree) (record : Record) :
    classifier.classify record = tree.classify record := by
  rw [classify, htree]
  rfl

/-- **A classifier selects the match of the deepest level that has exactly one.** Without such a
level it gives no verdict. With one, the verdict has the name, the level and the path of its node;
the path has a name for each level, the last of them that of the node, and the conditions of all
nodes along it hold. -/
theorem classify_eq_deepest_unique {start : Classifier} (hfresh : start.tree = none)
    (calls : List Call) {tree : RuleTree} (htree : (start.afterAll calls).tree = some tree)
    (record : Record) :
    ((start.afterAll calls).classify record = none ↔
      ∀ level node, (level, [node]) ∉ (start.afterAll calls).explain record) ∧
    ∀ verdict, (start.afterAll calls).classify record = some verdict →
      ∃ level node way,
        IsDeepestUnique ((start.afterAll calls).explain record) level node ∧
        verdict = ⟨node.name, level, tree.outline.path node⟩ ∧
        tree.outline.IsWay (.root tree.outline.format.rootName) way node ∧
        verdict.path = way.map (·.name) ∧ verdict.path.length = verdict.level ∧
        verdict.path.getLast? = some verdict.name ∧
        ∀ step ∈ way, tree.holds record step = true := by
  obtain ⟨text, hread⟩ := (holdsRead_of_tree_eq_none hfresh).afterAll tree htree
  have hlinked : tree.outline.Linked := linked_of_read (RuleTree.outline_of_read hread).1
  rw [explain_of_tree htree, classify_of_tree htree, RuleTree.classify]
  refine ⟨?_, ?_⟩
  · rw [Option.map_eq_none_iff]
    exact deepestUnique_eq_none_iff
  · intro verdict hverdict
    obtain ⟨node, hselected, rfl⟩ := Option.map_eq_some_iff.mp hverdict
    obtain ⟨level, hunique⟩ := exists_isDeepestUnique (pairwise_byLevel _) hselected
    obtain ⟨hmatch, rfl⟩ :=
      isMatch_of_mem_explain hlinked hunique.unique (List.mem_singleton_self node)
    obtain ⟨way, hway, hpath, hlength, hlast, hholds⟩ := hmatch.exists_way hlinked
    refine ⟨node.level, node, way, hunique, rfl, hway, hpath, ?_, ?_, hholds⟩
    · rw [hpath, List.length_map, hlength]
    · rw [hpath, List.getLast?_map, hlast]
      rfl

/-- Two types match on the first level and two on the third. The one on the second is selected; it
stands below a structural node, and both lie on its way. -/
theorem classify_eq_deepest_unique_between_shared_levels :
    ∃ (calls : List Call) (tree : RuleTree) (record : Record),
      (({} : Classifier).afterAll calls).tree = some tree ∧
      (({} : Classifier).afterAll calls).classify record = some ⟨"A", 2, ["$S", "A"]⟩ ∧
      ∃ node way,
        IsDeepestUnique ((({} : Classifier).afterAll calls).explain record) 2 node ∧
        tree.outline.IsWay (.root tree.outline.format.rootName) way node ∧
        way.map (·.name) = ["$S", "A"] ∧ ∀ step ∈ way, tree.holds record step = true := by
  have hrun : (({} : Classifier).afterAll
      [.adopt "$S|true\n|A|Cards.Total == 0\n||B|true\n||C|true\nD|true\nE|true"]).tree.map
        (fun tree => tree.classify default) = some (some ⟨"A", 2, ["$S", "A"]⟩) := by
    decide +kernel
  obtain ⟨tree, htree, hverdict⟩ := Option.map_eq_some_iff.mp hrun
  have hclassify := (classify_of_tree htree default).trans hverdict
  obtain ⟨level, node, way, hunique, hsame, hway, hpath, -, -, hholds⟩ :=
    (classify_eq_deepest_unique rfl _ htree default).2 _ hclassify
  obtain ⟨-, rfl, -⟩ := Verdict.mk.inj hsame
  exact ⟨_, tree, default, htree, hclassify, node, way, hunique, hway, hpath.symm, hholds⟩

end Classifier

end Archetype
