import Mathlib.Data.List.Chain
import Archetype.Proofs.Outline.Traversal

/-!
# The shape of an outline

What a text says about its nodes. The depths of the rule lines alone fix the links: a rule stands
right below the nearest rule before it that has one depth mark less. Lists of children, the way
through the outline and the names on the way down to a node all follow these links.
-/

namespace Archetype.Outline

/-- The depths of the rules of a text, in the order of their lines. -/
def depths (format : Format) (text : String) : List Nat :=
  (ruleLines format text).map fun entry => format.depthOf entry.1

/-- The index of the node above the rule at some place: the root above a rule without depth marks,
and otherwise the nearest rule before it with one mark less. The root goes before all rules. -/
inductive NearestAbove (depths : List Nat) (place : Nat) : Nat → Prop
  | root (hdepth : depths[place]? = some 0) : NearestAbove depths place 0
  | rule {above depth : Nat} (hearlier : above < place) (habove : depths[above]? = some depth)
      (hdepth : depths[place]? = some (depth + 1))
      (hnearest : ∀ between, above < between → between < place →
        depths[between]? ≠ some depth) :
      NearestAbove depths place (above + 1)

/-- The nodes from right below the root down to a node, each the parent of the next. -/
structure IsWay (outline : Outline) (root : Node) (way : List Node) (node : Node) : Prop where
  inside : way ⊆ outline.nodes
  linked : (root :: way).IsChain fun upper lower => lower.parent = some upper.index
  last : (root :: way).getLast? = some node

theorem isWay_root (outline : Outline) (root : Node) : outline.IsWay root [] root :=
  ⟨List.nil_subset _, .singleton root, rfl⟩

theorem IsWay.concat {outline : Outline} {root above node : Node} {way : List Node}
    (hway : outline.IsWay root way above) (hnode : node ∈ outline.nodes)
    (hparent : node.parent = some above.index) : outline.IsWay root (way ++ [node]) node := by
  refine ⟨?_, ?_, ?_⟩
  · exact List.append_subset.mpr ⟨hway.inside, List.cons_subset.mpr ⟨hnode, List.nil_subset _⟩⟩
  · rw [← List.cons_append]
    refine hway.linked.append (.singleton node) ?_
    intro upper hupper lower hlower
    rw [hway.last] at hupper
    cases hupper
    cases hlower
    exact hparent
  · rw [← List.cons_append, List.getLast?_concat]

namespace Linked

variable {outline : Outline} (hlinked : outline.Linked)
include hlinked

theorem level_le_index {index : Nat} :
    ∀ node ∈ outline.nodes, node.index = index → node.level ≤ index := by
  induction index using Nat.strongRecOn with
  | ind index ih =>
      intro node hnode hindex
      by_cases hzero : node.index = 0
      · rw [hlinked.eq_root_of_index_eq_zero hnode hzero]
        exact Nat.zero_le index
      · obtain ⟨above, habove, hbelow⟩ := hlinked.below node hnode hzero
        have hearlier := hbelow.earlier
        have hlevel := ih above.index (by omega) above habove rfl
        rw [hbelow.level]
        omega

/-! ### Children -/

/-- **A node is counted once among the nodes right below its parent and nowhere else.** -/
theorem count_children {node above : Node} (hnode : node ∈ outline.nodes)
    (hparent : node.parent = some above.index) (index : Nat) :
    (outline.children index).count node = if index = above.index then 1 else 0 := by
  rw [(hlinked.children_before index).nodup.count]
  refine if_congr ?_ rfl rfl
  rw [hlinked.mem_children, hparent, Option.some.injEq]
  constructor
  · rintro ⟨-, hindex⟩
    exact hindex.symm
  · intro hindex
    exact ⟨hnode, hindex.symm⟩

/-! ### Paths -/

/-- **The path to a node has the names on its way from below the root.** The induction is on the
bound of the steps upward, which is never less than the level of the node. -/
theorem exists_way_of_level_le : ∀ (fuel : Nat) {node : Node}, node ∈ outline.nodes →
    node.level ≤ fuel →
      ∃ way, outline.IsWay (.root outline.format.rootName) way node ∧ way.length = node.level ∧
        outline.pathFrom fuel node = way.map (·.name) := by
  intro fuel
  induction fuel with
  | zero =>
      intro node hnode hlevel
      by_cases hzero : node.index = 0
      · rw [hlinked.eq_root_of_index_eq_zero hnode hzero]
        exact ⟨[], isWay_root outline _, rfl, rfl⟩
      · obtain ⟨above, -, hbelow⟩ := hlinked.below node hnode hzero
        rw [hbelow.level] at hlevel
        exact absurd hlevel (Nat.not_succ_le_zero _)
  | succ fuel ih =>
      intro node hnode hlevel
      by_cases hzero : node.index = 0
      · rw [hlinked.eq_root_of_index_eq_zero hnode hzero]
        exact ⟨[], isWay_root outline _, rfl, rfl⟩
      · obtain ⟨above, habove, hbelow⟩ := hlinked.below node hnode hzero
        rw [hbelow.level] at hlevel
        obtain ⟨way, hway, hlength, hnames⟩ := ih habove (Nat.le_of_succ_le_succ hlevel)
        refine ⟨way ++ [node], hway.concat hnode hbelow.parent, ?_, ?_⟩
        · rw [List.length_append, hlength, hbelow.level]
          rfl
        · rw [pathFrom, hbelow.parent]
          dsimp only
          rw [hlinked.node?_eq_some habove]
          dsimp only
          rw [hnames, List.map_append]
          rfl

theorem exists_way {node : Node} (hnode : node ∈ outline.nodes) :
    ∃ way, outline.IsWay (.root outline.format.rootName) way node ∧ way.length = node.level ∧
      outline.path node = way.map (·.name) := by
  refine hlinked.exists_way_of_level_le outline.nodes.length hnode ?_
  exact (hlinked.level_le_index node hnode rfl).trans (hlinked.index_lt_of_mem hnode).le

end Linked

/-! ### Lines and nodes -/

/-- A node was made of the rule of a numbered line. -/
inductive Node.MadeOf (format : Format) (line : List Char) (number : Nat) : Node → Prop
  | intro {limit index : Nat} {rule : Line} {above : Node}
      (hline : Line.read format limit line = .ok rule) (hlevel : above.level + 1 = rule.depth + 1) :
      MadeOf format line number (.ofLine rule above index number)

theorem Node.MadeOf.standsFor {format : Format} {line : List Char} {number : Nat} {node : Node}
    (hmade : node.MadeOf format line number) : node.StandsFor format line number := by
  obtain ⟨hline, hlevel⟩ := hmade
  obtain ⟨hdepth, -, before, after, length, hcut, hname, hcondition, -⟩ := depthOf_of_read hline
  rw [hdepth] at hlevel hcut
  exact ⟨rfl, hlevel, before, after, length, hcut, congrArg String.ofList hname,
    congrArg String.ofList hcondition⟩

/-- After the root the nodes of a draft are made of the lines that were read. -/
theorem madeOf_of_reads {format : Format} {seen : List (List Char × Nat)} {draft : Draft}
    (hreads : Draft.Reads format seen draft) :
    ∃ nodes, draft.outline.nodes = .root format.rootName :: nodes ∧
      List.Forall₂ (fun entry node => node.MadeOf format entry.1 entry.2) seen nodes := by
  induction hreads with
  | start => exact ⟨[], rfl, .nil⟩
  | @add seen draft line rule hseen number hline ih =>
      obtain ⟨nodes, hnodes, hmade⟩ := ih
      obtain ⟨-, hlimit, -⟩ := depthOf_of_read hline
      have hlast : (draft.add number rule).last.MadeOf format line number :=
        .intro hline ((Draft.linked_of_reads hseen).level_add number hlimit)
      refine ⟨nodes ++ [(draft.add number rule).last], ?_, ?_⟩
      · rw [← List.cons_append, ← hnodes]
        rfl
      · exact List.rel_append hmade (.cons hlast .nil)

section Reading

variable {format : Format} {text : String} {outline : Outline}
  (hread : Outline.read format text = .ok outline)
include hread

theorem madeOf_of_read : ∃ nodes, outline.nodes = .root format.rootName :: nodes ∧
    List.Forall₂ (fun entry node => node.MadeOf format entry.1 entry.2)
      (ruleLines format text) nodes := by
  obtain ⟨draft, hreads, rfl⟩ := reads_of_read hread
  exact madeOf_of_reads hreads

theorem standsFor_of_read : ∃ nodes, outline.nodes = .root format.rootName :: nodes ∧
    List.Forall₂ (fun entry node => node.StandsFor format entry.1 entry.2)
      (ruleLines format text) nodes := by
  obtain ⟨nodes, hnodes, hmade⟩ := madeOf_of_read hread
  exact ⟨nodes, hnodes, hmade.imp fun _ _ => Node.MadeOf.standsFor⟩

theorem format_of_read : outline.format = format := by
  obtain ⟨draft, hreads, rfl⟩ := reads_of_read hread
  exact Draft.format_of_reads hreads

theorem exists_node_of_line {place number : Nat} {line : List Char}
    (hline : (ruleLines format text)[place]? = some (line, number)) :
    ∃ node, outline.nodes[place + 1]? = some node ∧ node.StandsFor format line number := by
  obtain ⟨nodes, hnodes, hstands⟩ := standsFor_of_read hread
  obtain ⟨hplace, hentry⟩ := List.getElem?_eq_some_iff.mp hline
  have hinside : place < nodes.length := by
    rw [← hstands.length_eq]
    exact hplace
  refine ⟨nodes[place], ?_, ?_⟩
  · rw [hnodes, List.getElem?_cons_succ, List.getElem?_eq_getElem hinside]
  · have hnode := hstands.get hplace hinside
    rw [List.get_eq_getElem, hentry] at hnode
    exact hnode

theorem exists_line_of_node {place : Nat} {node : Node}
    (hnode : outline.nodes[place + 1]? = some node) :
    ∃ line number, (ruleLines format text)[place]? = some (line, number) ∧
      node.StandsFor format line number := by
  obtain ⟨nodes, hnodes, hstands⟩ := standsFor_of_read hread
  rw [hnodes, List.getElem?_cons_succ] at hnode
  obtain ⟨hplace, hsame⟩ := List.getElem?_eq_some_iff.mp hnode
  have hinside : place < (ruleLines format text).length := by
    rw [hstands.length_eq]
    exact hplace
  refine ⟨_, _, List.getElem?_eq_getElem hinside, ?_⟩
  rw [← hsame]
  exact hstands.get hinside hplace

/-! ### Links by depth -/

theorem exists_depth_of_read {place : Nat} {node : Node}
    (hnode : outline.nodes[place + 1]? = some node) :
    ∃ depth, (depths format text)[place]? = some depth ∧ node.level = depth + 1 := by
  obtain ⟨line, number, hline, hstands⟩ := exists_line_of_node hread hnode
  refine ⟨format.depthOf line, ?_, hstands.level⟩
  rw [depths, List.getElem?_map, hline]
  rfl

theorem exists_node_of_read {place depth : Nat}
    (hdepth : (depths format text)[place]? = some depth) :
    ∃ node, outline.nodes[place + 1]? = some node ∧ node.level = depth + 1 := by
  rw [depths, List.getElem?_map] at hdepth
  obtain ⟨⟨line, number⟩, hline, rfl⟩ := Option.map_eq_some_iff.mp hdepth
  obtain ⟨node, hnode, hstands⟩ := exists_node_of_line hread hline
  exact ⟨node, hnode, hstands.level⟩

/-- **The parent of a rule is given by the depths of the rule lines.** -/
theorem nearestAbove_of_standsBelow {place : Nat} {node above : Node}
    (hnode : outline.nodes[place + 1]? = some node) (habove : above ∈ outline.nodes)
    (hbelow : node.StandsBelow outline.nodes above) :
    NearestAbove (depths format text) place above.index := by
  have hlinked := linked_of_read hread
  have hindex := hlinked.index_of_getElem? hnode
  have hlevel := hbelow.level
  obtain ⟨depth, hdepth, hlower⟩ := exists_depth_of_read hread hnode
  cases hzero : above.index with
  | zero =>
      rw [hlinked.eq_root_of_index_eq_zero habove hzero, hlower] at hlevel
      rw [Nat.succ.inj hlevel] at hdepth
      exact .root hdepth
  | succ earlier =>
      have hearlier := hbelow.earlier
      have hat := hlinked.getElem?_index habove
      rw [hzero] at hat
      obtain ⟨upper, hupper, hsame⟩ := exists_depth_of_read hread hat
      have hmore : depth = upper + 1 := by omega
      rw [hmore] at hdepth
      refine .rule (by omega) hupper hdepth ?_
      intro between hbehind hfront hshallow
      obtain ⟨other, hother, hothers⟩ := exists_node_of_read hread hshallow
      have hplace := hlinked.index_of_getElem? hother
      have hdeep := hbelow.between other (List.mem_of_getElem? hother) (by omega) (by omega)
      omega

theorem exists_rule_of_read {place number : Nat} {line : List Char}
    (hline : (ruleLines format text)[place]? = some (line, number)) :
    ∃ node above, outline.nodes[place + 1]? = some node ∧ node.index = place + 1 ∧
      node.StandsFor format line number ∧ node.parent = some above ∧
      NearestAbove (depths format text) place above := by
  have hlinked := linked_of_read hread
  obtain ⟨node, hnode, hstands⟩ := exists_node_of_line hread hline
  have hindex := hlinked.index_of_getElem? hnode
  have hpositive : node.index ≠ 0 := by omega
  obtain ⟨above, habove, hbelow⟩ := hlinked.below node (List.mem_of_getElem? hnode) hpositive
  exact ⟨node, above.index, hnode, hindex, hstands, hbelow.parent,
    nearestAbove_of_standsBelow hread hnode habove hbelow⟩

theorem exists_parent_of_read {node : Node} (hnode : node ∈ outline.nodes)
    (hroot : node.isRoot = false) :
    ∃ above ∈ outline.nodes, node.parent = some above.index ∧
      ∀ index, (outline.children index).count node = if index = above.index then 1 else 0 := by
  have hlinked := linked_of_read hread
  have hpositive : node.index ≠ 0 := by
    intro hzero
    rw [hlinked.eq_root_of_index_eq_zero hnode hzero] at hroot
    cases hroot
  obtain ⟨above, habove, hbelow⟩ := hlinked.below node hnode hpositive
  exact ⟨above, habove, hbelow.parent, hlinked.count_children hnode hbelow.parent⟩

/-- **An outline has the shape that its text describes.** After the root there is one node for each
rule line, in the order of the lines; the links are those of the depths; and lists of children, the
way through the outline and paths follow the links. -/
theorem links_of_read :
    outline.nodes.head? = some (.root format.rootName) ∧
    outline.nodes.length = (ruleLines format text).length + 1 ∧
    (∀ (place : Nat) (line : List Char) (number : Nat),
      (ruleLines format text)[place]? = some (line, number) →
        ∃ node above, outline.nodes[place + 1]? = some node ∧ node.index = place + 1 ∧
          node.StandsFor format line number ∧ node.parent = some above ∧
          NearestAbove (depths format text) place above) ∧
    (∀ node ∈ outline.nodes, node.isRoot = false →
      ∃ above ∈ outline.nodes, node.parent = some above.index ∧
        ∀ index, (outline.children index).count node = if index = above.index then 1 else 0) ∧
    (∀ index, (outline.children index).Sublist outline.nodes) ∧
    outline.preorder = outline.nodes ∧
    (∀ node ∈ outline.nodes, ∃ way,
      outline.IsWay (.root format.rootName) way node ∧ way.length = node.level ∧
        outline.path node = way.map (·.name)) := by
  have hlinked := linked_of_read hread
  obtain ⟨nodes, hnodes, hstands⟩ := standsFor_of_read hread
  refine ⟨?_, ?_, ?_, ?_, hlinked.sublist_children, hlinked.preorder_eq_nodes, ?_⟩
  · rw [hnodes]
    rfl
  · rw [hnodes, List.length_cons, hstands.length_eq]
  · intro place line number hline
    exact exists_rule_of_read hread hline
  · intro node hnode hroot
    exact exists_parent_of_read hread hnode hroot
  · intro node hnode
    rw [← format_of_read hread]
    exact hlinked.exists_way hnode

end Reading

theorem preorder_of_read_branches :
    ∃ outline, Outline.read {} "A|true\n|B|true\n||C|true\n|D|true\nE|true" = .ok outline ∧
      outline.nodes.map (·.parent) = [none, some 0, some 1, some 2, some 1, some 0] ∧
      outline.preorder = outline.nodes := by
  have hparents : (Outline.read {} "A|true\n|B|true\n||C|true\n|D|true\nE|true").map
      (fun outline => outline.nodes.map (·.parent)) =
        .ok [none, some 0, some 1, some 2, some 1, some 0] := by
    decide +kernel
  obtain ⟨outline, hread, hlinks⟩ := exists_of_map_eq_ok hparents
  obtain ⟨-, -, -, -, -, hpreorder, -⟩ := links_of_read hread
  exact ⟨outline, hread, hlinks, hpreorder⟩

end Archetype.Outline
