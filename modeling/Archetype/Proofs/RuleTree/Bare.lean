import Archetype.RuleTree

/-!
# Trees without the texts of their conditions

What is met on a way through an outline depends on where its nodes stand and on which of them are
kept, and not on how their conditions are written. So a tree can be stripped of the texts of its
conditions and of the places where they start: it answers with the same nodes, stripped likewise,
and classifies as before.
-/

namespace Archetype

namespace Outline

/-- A node without the text of its condition and the place where it starts. -/
def Node.bare (node : Node) : Node :=
  { node with expression := "", line := 0, column := 0 }

/-- The outline without the conditions of its nodes. -/
def bare (outline : Outline) : Outline :=
  { outline with nodes := outline.nodes.map Node.bare }

variable (outline : Outline)

theorem node?_bare (index : Nat) :
    outline.bare.node? index = (outline.node? index).map Node.bare :=
  List.find?_map

theorem children_bare (index : Nat) :
    outline.bare.children index = (outline.children index).map Node.bare := by
  have hnode? : outline.bare.node? = fun index => (outline.node? index).map Node.bare :=
    funext outline.node?_bare
  rw [children, children, List.map_filterMap, hnode?]
  rfl

theorem walkFrom_bare {keep : Node → Bool} (hkeep : ∀ node, keep node.bare = keep node)
    (fuel : Nat) : ∀ pending : List Node,
      outline.bare.walkFrom keep fuel (pending.map Node.bare) =
        (outline.walkFrom keep fuel pending).map Node.bare := by
  induction fuel with
  | zero =>
      intro pending
      rw [walkFrom, walkFrom, List.map_nil]
  | succ fuel ih =>
      intro pending
      cases pending with
      | nil => rw [List.map_nil, walkFrom, walkFrom, List.map_nil] <;> simp
      | cons node rest =>
          have hchildren : outline.bare.children node.bare.index =
              (outline.children node.index).map Node.bare := outline.children_bare node.index
          rw [List.map_cons, walkFrom, walkFrom, hkeep, hchildren, ← List.map_append, ih, ih]
          split
          · rw [List.map_cons]
          · rfl

theorem walk_bare {keep : Node → Bool} (hkeep : ∀ node, keep node.bare = keep node) :
    outline.bare.walk keep = (outline.walk keep).map Node.bare := by
  have hnodes : outline.bare.nodes = outline.nodes.map Node.bare := rfl
  rw [walk, walk, hnodes, List.length_map, ← List.map_take]
  exact outline.walkFrom_bare hkeep _ _

theorem pathFrom_bare (fuel : Nat) : ∀ node : Node,
    outline.bare.pathFrom fuel node.bare = outline.pathFrom fuel node := by
  induction fuel with
  | zero => exact fun _ => rfl
  | succ fuel ih =>
      intro node
      have hparent : node.bare.parent = node.parent := rfl
      rw [pathFrom, pathFrom, hparent]
      cases node.parent with
      | none => rfl
      | some above =>
          dsimp only
          rw [node?_bare]
          cases outline.node? above with
          | none => rfl
          | some parent =>
              dsimp only [Option.map_some]
              rw [ih]
              rfl

theorem path_bare (node : Node) : outline.bare.path node.bare = outline.path node := by
  have hlength : outline.bare.nodes.length = outline.nodes.length := List.length_map _
  rw [path, path, hlength]
  exact outline.pathFrom_bare _ node

end Outline

namespace RuleTree

open Archetype.Condition Archetype.Outline

/-- The tree without the texts of its conditions. -/
def bare (tree : RuleTree) : RuleTree :=
  { tree with outline := tree.outline.bare }

/-- Nodes by level, without their conditions. -/
def bareLevels (levels : List (Nat × List Node)) : List (Nat × List Node) :=
  levels.map fun entry => (entry.1, entry.2.map Node.bare)

theorem byLevel_map_bare (nodes : List Node) :
    byLevel (nodes.map Node.bare) = bareLevels (byLevel nodes) := by
  have hlevels : (nodes.map Node.bare).map (·.level) = nodes.map (·.level) := by
    rw [List.map_map]
    rfl
  have hfilter : ∀ level, (nodes.map Node.bare).filter (·.level == level) =
      (nodes.filter (·.level == level)).map Node.bare := by
    intro level
    rw [List.filter_map]
    rfl
  rw [byLevel, byLevel, bareLevels, hlevels, List.map_filterMap]
  congr 1
  funext level
  rw [hfilter]
  cases nodes.filter (·.level == level) <;> rfl

theorem deepestUnique_bareLevels (levels : List (Nat × List Node)) :
    deepestUnique (bareLevels levels) = (deepestUnique levels).map Node.bare := by
  rw [deepestUnique, deepestUnique, bareLevels, List.foldl_map]
  refine @List.foldl_hom _ _ _ (Option.map Node.bare) _ _ levels none ?_
  rintro best ⟨level, _ | ⟨node, _ | ⟨other, more⟩⟩⟩ <;> rfl

theorem explain_bare (tree : RuleTree) (record : Record) :
    tree.bare.explain record = bareLevels (tree.explain record) := by
  have hwalk : tree.bare.outline.walk (tree.bare.holds record) =
      (tree.outline.walk (tree.holds record)).map Node.bare :=
    tree.outline.walk_bare fun _ => rfl
  rw [explain, explain, matching, matching, hwalk, List.filter_map, ← byLevel_map_bare]
  rfl

theorem classify_bare (tree : RuleTree) (record : Record) :
    tree.bare.classify record = tree.classify record := by
  rw [classify, classify, explain_bare, deepestUnique_bareLevels, Option.map_map]
  refine Option.map_congr fun node _ => ?_
  exact congrArg _ (tree.outline.path_bare node)

/-- **Trees that differ in the texts of their conditions alone, and in no answer of a condition,
answer alike.** -/
theorem answers_eq_of_bare_eq {tree other : RuleTree} {record : Record}
    (hbare : tree.outline.bare = other.outline.bare)
    (hholds : tree.holds record = other.holds record) :
    bareLevels (tree.explain record) = bareLevels (other.explain record) ∧
      tree.classify record = other.classify record := by
  have hexplain : tree.bare.explain record = other.bare.explain record := by
    have hsame : tree.bare.holds record = other.bare.holds record := hholds
    have houtline : tree.bare.outline = other.bare.outline := hbare
    rw [explain, explain, matching, matching, hsame, houtline]
    refine congrArg byLevel (List.filter_congr fun node _ => ?_)
    rw [isType, isType, houtline]
  constructor
  · rw [← explain_bare, ← explain_bare, hexplain]
  · rw [← classify_bare tree, ← classify_bare other, classify, classify, hexplain]
    refine Option.map_congr fun node _ => ?_
    exact congrArg
      (fun outline : Outline => (⟨node.name, node.level, outline.path node⟩ : Verdict)) hbare

end RuleTree

end Archetype
