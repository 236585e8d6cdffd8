import Archetype.Proofs.Outline.Shape
import Archetype.Proofs.RuleTree.Matching
import Archetype.Proofs.Text.Lines

/-!
# Rules put behind others

An outline is read from the top. What stands behind a text that ends with a line feed begins a line
of its own, so a fault of the text is found before it, and otherwise it only adds nodes. The nodes
that are there keep all they have: their fields, the nodes above them, and their children, to which
others may be added at the end.
-/

namespace Archetype.Outline

open Archetype.Text

theorem nodes_prefix_of_read {draft later : Draft} {entry : List Char × Nat}
    (hread : draft.read entry = .ok later) : draft.outline.nodes <+: later.outline.nodes := by
  unfold Draft.read at hread
  split at hread
  · cases hread
    exact List.prefix_rfl
  · obtain ⟨rule, -, rfl⟩ := exists_of_map_eq_ok hread
    exact List.prefix_append _ _

theorem nodes_prefix_of_foldlM {numbered : List (List Char × Nat)} : ∀ {draft last : Draft},
    numbered.foldlM Draft.read draft = .ok last → draft.outline.nodes <+: last.outline.nodes := by
  induction numbered with
  | nil =>
      intro draft last hlast
      cases hlast
      exact List.prefix_rfl
  | cons entry rest ih =>
      intro draft last hlast
      rw [List.foldlM_cons] at hlast
      obtain ⟨later, hlater, hrest⟩ := exists_of_bind_eq_ok hlast
      exact (nodes_prefix_of_read hlater).trans (ih hrest)

/-- The reader comes to the end of the text before it looks at what stands behind it. -/
theorem foldlM_append (format : Format) {text : String}
    (hend : text = "" ∨ text.toList.getLast? = some '\n') (more : String) :
    ∃ numbered : List (List Char × Nat),
    ((lines (text ++ more).toList).zipIdx 1).foldlM Draft.read (.start format) =
      ((lines text.toList).zipIdx 1).foldlM Draft.read (.start format) >>=
        numbered.foldlM Draft.read := by
  have hend' : text.toList = [] ∨ text.toList.getLast? = some '\n' :=
    hend.imp_left fun hempty => by rw [hempty]; rfl
  rw [String.toList_append, lines_append hend', List.zipIdx_append, List.foldlM_append]
  exact ⟨_, rfl⟩

section Texts

variable {format : Format} {text : String}
  (hend : text = "" ∨ text.toList.getLast? = some '\n') (more : String)
include hend

/-- **A text that is no outline stays none**, for the same reason. -/
theorem read_append_of_error {fault : ReadFault} (hread : Outline.read format text = .error fault) :
    Outline.read format (text ++ more) = .error fault := by
  obtain ⟨numbered, hfold⟩ := foldlM_append format hend more
  unfold Outline.read at hread ⊢
  rw [hfold]
  cases hdraft : ((lines text.toList).zipIdx 1).foldlM Draft.read (.start format) with
  | error other =>
      rw [hdraft] at hread
      cases hread
      rfl
  | ok draft =>
      rw [hdraft] at hread
      cases hread

/-- **An outline only grows at its end.** -/
theorem nodes_prefix_of_append {before after : Outline}
    (hbefore : Outline.read format text = .ok before)
    (hafter : Outline.read format (text ++ more) = .ok after) : before.nodes <+: after.nodes := by
  obtain ⟨numbered, hfold⟩ := foldlM_append format hend more
  obtain ⟨draft, hdraft, rfl⟩ := exists_of_map_eq_ok hbefore
  obtain ⟨last, hlast, rfl⟩ := exists_of_map_eq_ok hafter
  rw [hfold, hdraft] at hlast
  exact nodes_prefix_of_foldlM hlast

end Texts

/-- The first outline is the beginning of the second one. -/
structure Begins (before after : Outline) : Prop where
  linked : before.Linked
  linked_after : after.Linked
  format : before.format = after.format
  nodes : before.nodes <+: after.nodes

theorem begins_of_append {format : Format} {text more : String} {before after : Outline}
    (hend : text = "" ∨ text.toList.getLast? = some '\n')
    (hbefore : Outline.read format text = .ok before)
    (hafter : Outline.read format (text ++ more) = .ok after) : before.Begins after where
  linked := linked_of_read hbefore
  linked_after := linked_of_read hafter
  format := (format_of_read hbefore).trans (format_of_read hafter).symm
  nodes := nodes_prefix_of_append hend more hbefore hafter

namespace Begins

variable {before after : Outline} (hbegins : before.Begins after)
include hbegins

theorem mem {node : Node} (hnode : node ∈ before.nodes) : node ∈ after.nodes :=
  hbegins.nodes.subset hnode

theorem children_prefix (index : Nat) : before.children index <+: after.children index := by
  rw [hbegins.linked.children_eq_filter, hbegins.linked_after.children_eq_filter]
  exact hbegins.nodes.filter _

/-- What is indexed before an earlier node is an earlier node. -/
theorem mem_of_index_lt {node other : Node} (hnode : node ∈ before.nodes)
    (hother : other ∈ after.nodes) (hindex : other.index < node.index) : other ∈ before.nodes := by
  have hinside := hindex.trans (hbegins.linked.index_lt_of_mem hnode)
  have hat := hbegins.linked_after.getElem?_index hother
  obtain ⟨more, hnodes⟩ := hbegins.nodes
  rw [← hnodes, List.getElem?_append_left hinside] at hat
  exact List.mem_of_getElem? hat

/-- What stands at or above an earlier node did so before. -/
theorem isAtOrAbove_iff {node upper : Node} (hnode : node ∈ before.nodes) :
    after.IsAtOrAbove upper node ↔ before.IsAtOrAbove upper node := by
  constructor
  · intro hupper
    induction hupper with
    | self => exact .self _
    | higher habove hparent _ ih =>
        have hbelow := hbegins.linked_after.standsBelow_of_parent_eq (hbegins.mem hnode) habove hparent
        have habove' := hbegins.mem_of_index_lt hnode habove hbelow.earlier
        exact .higher habove' hparent (ih habove')
  · intro hupper
    clear hnode
    induction hupper with
    | self => exact .self _
    | higher habove hparent _ ih => exact .higher (hbegins.mem habove) hparent ih

theorem isStructural_eq (node : Node) : before.isStructural node = after.isStructural node := by
  unfold isStructural nameOf
  rw [hbegins.format]

end Begins

end Archetype.Outline
