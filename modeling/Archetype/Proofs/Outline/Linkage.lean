import Mathlib.Data.List.Basic
import Archetype.Proofs.Outline.Growth

/-!
# How the nodes of an outline are linked

The open nodes of a draft, the last rule and those that it stands below, are one of each level: the
latest of that level, with only deeper nodes behind it. A new node therefore stands below the
nearest node one level up, and all nodes between the two are at least as deep as the lower one. The
last part is what keeps the nodes below a node together, and it is the one that the way through an
outline depends on.
-/

namespace Archetype.Outline

/-- A node stands right below another one: the nodes between the two are not less deep than it. -/
structure Node.StandsBelow (nodes : List Node) (node above : Node) : Prop where
  parent : node.parent = some above.index
  earlier : above.index < node.index
  level : node.level = above.level + 1
  between : ∀ other ∈ nodes, above.index < other.index → other.index < node.index →
    node.level ≤ other.level

end Outline

open Outline

/-- The nodes are indexed in their order, and each but the root stands right below another one,
which has it among its children. -/
structure Outline.Linked (outline : Outline) : Prop where
  root : outline.nodes.head? = some (.root outline.format.rootName)
  indexes : outline.nodes.map (·.index) = List.range outline.nodes.length
  below : ∀ node ∈ outline.nodes, node.index ≠ 0 →
    ∃ above ∈ outline.nodes, node.StandsBelow outline.nodes above
  length : outline.below.length = outline.nodes.length
  indexes_below : ∀ index, outline.below[index]?.getD [] =
    (outline.nodes.filter (·.parent == some index)).map (·.index)

namespace Outline

namespace Linked

variable {outline : Outline} (hlinked : outline.Linked)
include hlinked

theorem index_of_getElem? {index : Nat} {node : Node}
    (hnode : outline.nodes[index]? = some node) : node.index = index := by
  obtain ⟨hlength, rfl⟩ := List.getElem?_eq_some_iff.mp hnode
  have hindex : (outline.nodes.map (·.index))[index]? = some outline.nodes[index].index := by
    rw [List.getElem?_map, hnode]
    rfl
  rw [hlinked.indexes, List.getElem?_range hlength] at hindex
  exact (Option.some.inj hindex).symm

/-- A node is found at its index. -/
theorem getElem?_index {node : Node} (hnode : node ∈ outline.nodes) :
    outline.nodes[node.index]? = some node := by
  obtain ⟨index, hindex⟩ := List.mem_iff_getElem?.mp hnode
  rw [hlinked.index_of_getElem? hindex]
  exact hindex

theorem index_lt_of_mem {node : Node} (hnode : node ∈ outline.nodes) :
    node.index < outline.nodes.length := by
  obtain ⟨hlength, -⟩ := List.getElem?_eq_some_iff.mp (hlinked.getElem?_index hnode)
  exact hlength

theorem eq_of_index_eq {first second : Node} (hfirst : first ∈ outline.nodes)
    (hsecond : second ∈ outline.nodes) (hsame : first.index = second.index) : first = second := by
  have hat := hlinked.getElem?_index hfirst
  rw [hsame, hlinked.getElem?_index hsecond] at hat
  exact (Option.some.inj hat).symm

theorem node?_eq_some {node : Node} (hnode : node ∈ outline.nodes) :
    outline.node? node.index = some node := by
  unfold node?
  cases hfound : outline.nodes.find? (·.index == node.index) with
  | none =>
      have hother := List.find?_eq_none.mp hfound node hnode
      exact absurd (beq_self_eq_true node.index) hother
  | some other =>
      have hsame : other.index = node.index := by
        have hbeq := List.find?_some hfound
        exact eq_of_beq hbeq
      rw [hlinked.eq_of_index_eq (List.mem_of_find?_eq_some hfound) hnode hsame]

/-- The children of a node are the nodes that have it as their parent. -/
theorem children_eq_filter (index : Nat) :
    outline.children index = outline.nodes.filter (·.parent == some index) := by
  rw [children, hlinked.indexes_below, List.filterMap_map]
  refine (List.filterMap_congr ?_).trans List.filterMap_some
  intro node hnode
  exact hlinked.node?_eq_some (List.mem_of_mem_filter hnode)

theorem mem_children {index : Nat} {node : Node} :
    node ∈ outline.children index ↔ node ∈ outline.nodes ∧ node.parent = some index := by
  rw [hlinked.children_eq_filter, List.mem_filter, beq_iff_eq]

theorem sublist_children (index : Nat) : (outline.children index).Sublist outline.nodes := by
  rw [hlinked.children_eq_filter]
  exact List.filter_sublist

end Linked

theorem linked_start (format : Format) : (Outline.start format).Linked := by
  refine ⟨rfl, rfl, ?_, rfl, ?_⟩
  · intro node hnode hindex
    rw [List.mem_singleton.mp hnode] at hindex
    exact absurd rfl hindex
  · intro index
    cases index <;> rfl

/-- One of the lists of children gets longer, and one more node has none yet. -/
theorem getD_modify_concat (lists : List (List Nat)) {place : Nat} (hplace : place < lists.length)
    (added index : Nat) :
    ((lists.modify place (· ++ [added]) ++ [[]])[index]?).getD [] =
      lists[index]?.getD [] ++ if place = index then [added] else [] := by
  by_cases hindex : index < lists.length
  · have hinside : index < (lists.modify place (· ++ [added])).length := by
      rw [List.length_modify]
      exact hindex
    rw [List.getElem?_append_left hinside, List.getElem?_modify, List.getElem?_eq_getElem hindex]
    change (if place = index then lists[index] ++ [added] else lists[index]) =
      lists[index] ++ if place = index then [added] else []
    by_cases hat : place = index
    · rw [if_pos hat, if_pos hat]
    · rw [if_neg hat, if_neg hat, List.append_nil]
  · have houtside : lists.length ≤ index := Nat.le_of_not_lt hindex
    have hlength : (lists.modify place (· ++ [added])).length ≤ index := by
      rw [List.length_modify]
      exact houtside
    rw [if_neg (by omega), List.getElem?_append_right hlength, List.getElem?_eq_none houtside]
    cases index - (lists.modify place (· ++ [added])).length <;> rfl

namespace Linked

variable {outline : Outline} (hlinked : outline.Linked)
include hlinked

/-- **One more node is linked if it stands right below a node.** -/
theorem addChild {above node : Node} (habove : above ∈ outline.nodes)
    (hindex : node.index = outline.nodes.length)
    (hbelow : node.StandsBelow (outline.nodes ++ [node]) above) :
    (outline.addChild above node).Linked := by
  refine ⟨?_, ?_, ?_, ?_, ?_⟩
  · change (outline.nodes ++ [node]).head? = _
    rw [List.head?_append, hlinked.root]
    rfl
  · change (outline.nodes ++ [node]).map (·.index) = List.range (outline.nodes ++ [node]).length
    rw [List.map_append, hlinked.indexes, List.length_append, List.length_singleton,
      List.range_succ, List.map_singleton, hindex]
  · refine List.forall_mem_append.mpr ⟨?_, List.forall_mem_singleton.mpr ?_⟩
    · intro lower hlower hpositive
      obtain ⟨upper, hupper, hunder⟩ := hlinked.below lower hlower hpositive
      refine ⟨upper, List.mem_append_left _ hupper, { hunder with between := ?_ }⟩
      refine List.forall_mem_append.mpr ⟨hunder.between, List.forall_mem_singleton.mpr ?_⟩
      intro _ hfront
      rw [hindex] at hfront
      exact absurd (hlinked.index_lt_of_mem hlower) (Nat.lt_asymm hfront)
    · intro _
      exact ⟨above, List.mem_append_left _ habove, hbelow⟩
  · change (outline.below.modify above.index (· ++ [node.index]) ++ [[]]).length =
      (outline.nodes ++ [node]).length
    rw [List.length_append, List.length_append, List.length_modify, hlinked.length]
    rfl
  · intro index
    change ((outline.below.modify above.index (· ++ [node.index]) ++ [[]])[index]?).getD [] =
      ((outline.nodes ++ [node]).filter (·.parent == some index)).map (·.index)
    rw [getD_modify_concat _ (by rw [hlinked.length]; exact hlinked.index_lt_of_mem habove),
      List.filter_append, List.map_append, ← hlinked.indexes_below, List.filter_singleton,
      hbelow.parent]
    by_cases hat : above.index = index
    · rw [if_pos hat, hat, beq_self_eq_true]
      rfl
    · have hother : (some above.index == some index) = false := by simp [hat]
      rw [if_neg hat, hother]
      rfl

end Linked

/-! ### Levels -/

def Levels.toList (levels : Levels) : List Node :=
  levels.above :: levels.outer

/-- The last rule and the nodes that it stands below, the innermost first. -/
def Draft.opened (draft : Draft) : List Node :=
  if draft.limit = 0 then draft.levels.toList else draft.last :: draft.levels.toList

theorem Levels.toList_leave {count : Nat} :
    ∀ {levels : Levels}, count < levels.toList.length →
      (levels.leave count).toList = levels.toList.drop count := by
  induction count with
  | zero =>
      intro levels _
      rfl
  | succ count ih =>
      rintro ⟨above, outer⟩ hcount
      cases outer with
      | nil => exact absurd hcount (Nat.not_lt_of_le (Nat.succ_le_succ (Nat.zero_le count)))
      | cons next outer => exact ih (Nat.lt_of_succ_lt_succ hcount)

/-- The levels for a rule are what is open without all that is deeper. -/
theorem Draft.toList_levelsFor {draft : Draft} {depth : Nat}
    (hlength : draft.opened.length = draft.limit + 1) (hdepth : depth ≤ draft.limit) :
    (draft.levelsFor depth).toList = draft.opened.drop (draft.limit - depth) := by
  unfold Draft.levelsFor
  unfold Draft.opened at hlength ⊢
  by_cases hdeepest : depth = draft.limit
  · rw [hdeepest, Nat.sub_self, Nat.sub_eq_zero_of_le (Nat.le_succ _), Levels.leave, List.drop_zero]
    by_cases hfirst : draft.limit = 0
    · rw [if_pos hfirst, if_neg (by omega)]
    · rw [if_neg hfirst, if_pos ⟨rfl, Nat.pos_of_ne_zero hfirst⟩]
      rfl
  · have hlast : draft.limit ≠ 0 := by omega
    rw [if_neg hlast] at hlength ⊢
    rw [if_neg (by omega), Levels.toList_leave (by rw [List.length_cons] at hlength; omega)]
    have hmore : draft.limit - depth = draft.limit - (depth + 1) + 1 := by omega
    rw [hmore, List.drop_succ_cons]

theorem Draft.opened_add {draft : Draft} {line : Line} (number : Nat)
    (hlength : draft.opened.length = draft.limit + 1) (hdepth : line.depth ≤ draft.limit) :
    (draft.add number line).opened =
      (draft.add number line).last :: draft.opened.drop (draft.limit - line.depth) := by
  rw [← Draft.toList_levelsFor hlength hdepth]
  rfl

/-! ### The run -/

/-- The nodes of a draft are linked, and the open ones are the latest of their levels. -/
structure Draft.Linked (draft : Draft) : Prop where
  outline : draft.outline.Linked
  length : draft.opened.length = draft.limit + 1
  latest : ∀ (place : Nat) (node : Node), draft.opened[place]? = some node →
    node ∈ draft.outline.nodes ∧ node.level + place = draft.limit ∧
      ∀ other ∈ draft.outline.nodes, node.index < other.index → node.level < other.level

theorem Draft.linked_start (format : Format) : (Draft.start format).Linked := by
  refine ⟨Outline.linked_start format, rfl, ?_⟩
  intro place node hnode
  cases place with
  | succ place => cases hnode
  | zero =>
      cases hnode
      refine ⟨List.mem_singleton_self _, rfl, ?_⟩
      intro other hother hlater
      rw [List.mem_singleton.mp hother] at hlater
      exact absurd hlater (Nat.lt_irrefl 0)

namespace Draft.Linked

variable {draft : Draft} (hlinked : draft.Linked)
include hlinked

/-- What a rule stands below is the latest node one level up. -/
theorem above_levelsFor {depth : Nat} (hdepth : depth ≤ draft.limit) :
    (draft.levelsFor depth).above ∈ draft.outline.nodes ∧
      (draft.levelsFor depth).above.level = depth ∧
      ∀ other ∈ draft.outline.nodes, (draft.levelsFor depth).above.index < other.index →
        depth < other.level := by
  have habove : draft.opened[draft.limit - depth]? = some (draft.levelsFor depth).above := by
    rw [← List.head?_drop, ← Draft.toList_levelsFor hlinked.length hdepth]
    rfl
  obtain ⟨hmem, hlevel, hlatest⟩ := hlinked.latest _ _ habove
  have hsame : (draft.levelsFor depth).above.level = depth := by omega
  rw [hsame] at hlatest
  exact ⟨hmem, hsame, hlatest⟩

theorem level_add {line : Line} (number : Nat) (hdepth : line.depth ≤ draft.limit) :
    (draft.add number line).last.level = line.depth + 1 := by
  obtain ⟨-, hlevel, -⟩ := hlinked.above_levelsFor hdepth
  exact congrArg (· + 1) hlevel

/-- **Rules keep a draft linked.** -/
theorem add {line : Line} (number : Nat) (hdepth : line.depth ≤ draft.limit) :
    (draft.add number line).Linked := by
  obtain ⟨habove, hlevel, hlatest⟩ := hlinked.above_levelsFor hdepth
  have hlast := hlinked.level_add number hdepth
  have hlengths := hlinked.length
  have hopened := Draft.opened_add number hlinked.length hdepth
  refine ⟨?_, ?_, ?_⟩
  · refine hlinked.outline.addChild habove rfl
      ⟨rfl, hlinked.outline.index_lt_of_mem habove, rfl, ?_⟩
    refine List.forall_mem_append.mpr ⟨?_, List.forall_mem_singleton.mpr ?_⟩
    · intro other hother hbehind _
      have hdeeper := hlatest other hother hbehind
      change (draft.levelsFor line.depth).above.level + 1 ≤ other.level
      omega
    · intro _ hfront
      exact absurd hfront (Nat.lt_irrefl _)
  · rw [hopened, List.length_cons, List.length_drop, hlengths]
    change draft.limit + 1 - (draft.limit - line.depth) + 1 = line.depth + 1 + 1
    omega
  · intro place node hnode
    rw [hopened] at hnode
    change node ∈ draft.outline.nodes ++ [(draft.add number line).last] ∧
      node.level + place = line.depth + 1 ∧
      ∀ other ∈ draft.outline.nodes ++ [(draft.add number line).last],
        node.index < other.index → node.level < other.level
    cases place with
    | zero =>
        cases hnode
        refine ⟨List.mem_append_right _ (List.mem_singleton_self _), hlast, ?_⟩
        refine List.forall_mem_append.mpr ⟨?_, List.forall_mem_singleton.mpr ?_⟩
        · intro other hother hbehind
          exact absurd (hlinked.outline.index_lt_of_mem hother) (Nat.lt_asymm hbehind)
        · intro hbehind
          exact absurd hbehind (Nat.lt_irrefl _)
    | succ place =>
        rw [List.getElem?_cons_succ, List.getElem?_drop] at hnode
        obtain ⟨hmem, hplace, hdeeper⟩ := hlinked.latest _ _ hnode
        refine ⟨List.mem_append_left _ hmem, by omega, ?_⟩
        refine List.forall_mem_append.mpr ⟨hdeeper, List.forall_mem_singleton.mpr ?_⟩
        intro _
        rw [hlast]
        omega

end Draft.Linked

theorem Draft.linked_of_reads {format : Format} {seen : List (List Char × Nat)} {draft : Draft}
    (hreads : Draft.Reads format seen draft) : draft.Linked := by
  induction hreads with
  | start => exact Draft.linked_start format
  | add _ number hline ih =>
      obtain ⟨-, hdepth, -⟩ := depthOf_of_read hline
      exact ih.add number hdepth

/-- **An outline that is read is linked.** -/
theorem linked_of_read {format : Format} {text : String} {outline : Outline}
    (hread : Outline.read format text = .ok outline) : outline.Linked := by
  obtain ⟨draft, hreads, rfl⟩ := reads_of_read hread
  exact (Draft.linked_of_reads hreads).outline

end Outline

end Archetype
