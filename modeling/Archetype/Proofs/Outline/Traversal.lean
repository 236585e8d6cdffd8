import Mathlib.Data.List.Sort
import Archetype.Proofs.Outline.Linkage

/-!
# The way through an outline

A walk keeps a list of nodes that wait. When the nodes before some index have been passed, those
that wait are the later ones right below a reached node among them, and they wait in the order of
the text: whatever stands below the node at that index comes before everything else that waits,
because the nodes between a node and its parent are never less deep than it. A walk therefore meets
the nodes that are reached in the order of the text, each once, and one that passes over nothing
meets all of them.
-/

namespace Archetype.Outline

def Node.Before (first second : Node) : Prop :=
  first.index < second.index

instance : Std.Irrefl Node.Before :=
  ⟨fun node => Nat.lt_irrefl node.index⟩

instance : Std.Antisymm Node.Before :=
  ⟨fun _ _ hbefore hafter => absurd hafter (Nat.lt_asymm hbefore)⟩

/-- A list has exactly the nodes of some kind, each once, in the order of the text. -/
def Lists (nodes : List Node) (kind : Node → Prop) : Prop :=
  nodes.Pairwise Node.Before ∧ ∀ node, node ∈ nodes ↔ kind node

theorem Lists.eq {first second : List Node} {kind : Node → Prop} (hfirst : Lists first kind)
    (hsecond : Lists second kind) : first = second := by
  refine hfirst.1.eq_of_mem_iff hsecond.1 ?_
  intro node
  rw [hfirst.2, hsecond.2]

/-- A node is reached if it and all nodes above it are kept. -/
inductive Reached (outline : Outline) (keep : Node → Bool) : Node → Prop
  | root {node : Node} (hnode : node ∈ outline.nodes) (hroot : node.parent = none)
      (hkeep : keep node = true) : Reached outline keep node
  | under {node above : Node} (hnode : node ∈ outline.nodes) (habove : Reached outline keep above)
      (hparent : node.parent = some above.index) (hkeep : keep node = true) :
      Reached outline keep node

/-- A node is met, kept or not, if it is the root or stands right below a reached node. Here only
reached nodes before some index count. -/
def Met (outline : Outline) (keep : Node → Bool) (index : Nat) (node : Node) : Prop :=
  node ∈ outline.nodes ∧
    (node.parent = none ∨
      ∃ above, outline.Reached keep above ∧ node.parent = some above.index ∧ above.index < index)

/-- The nodes of some kind from an index on. -/
def Onward (kind : Node → Prop) (index : Nat) (node : Node) : Prop :=
  kind node ∧ index ≤ node.index

/-- What waits when the nodes before `index` have been passed. -/
def Waiting (outline : Outline) (keep : Node → Bool) (index : Nat) (pending : List Node) : Prop :=
  Lists pending (Onward (outline.Met keep index) index)

theorem mem_of_reached {outline : Outline} {keep : Node → Bool} {node : Node}
    (hreached : outline.Reached keep node) : node ∈ outline.nodes := by
  cases hreached with
  | root hnode _ _ => exact hnode
  | under hnode _ _ _ => exact hnode

theorem keep_of_reached {outline : Outline} {keep : Node → Bool} {node : Node}
    (hreached : outline.Reached keep node) : keep node = true := by
  cases hreached with
  | root _ _ hkeep => exact hkeep
  | under _ _ _ hkeep => exact hkeep

theorem reached_of_met {outline : Outline} {keep : Node → Bool} {index : Nat} {node : Node}
    (hmet : outline.Met keep index node) (hkeep : keep node = true) :
    outline.Reached keep node := by
  obtain ⟨hnode, hroot | ⟨above, habove, hparent, -⟩⟩ := hmet
  · exact .root hnode hroot hkeep
  · exact .under hnode habove hparent hkeep

namespace Linked

variable {outline : Outline} (hlinked : outline.Linked)
include hlinked

/-! ### Nodes and children in their order -/

theorem pairwise_before : outline.nodes.Pairwise Node.Before := by
  have hrange : (outline.nodes.map (·.index)).Pairwise (· < ·) := by
    rw [hlinked.indexes]
    exact List.pairwise_lt_range
  rw [List.pairwise_map] at hrange
  exact hrange

theorem children_before (index : Nat) : (outline.children index).Pairwise Node.Before :=
  hlinked.pairwise_before.sublist (hlinked.sublist_children index)

theorem eq_root_of_index_eq_zero {node : Node} (hnode : node ∈ outline.nodes)
    (hindex : node.index = 0) : node = .root outline.format.rootName := by
  have hat := hlinked.getElem?_index hnode
  rw [hindex, ← List.head?_eq_getElem?, hlinked.root] at hat
  exact (Option.some.inj hat).symm

theorem take_one : outline.nodes.take 1 = [.root outline.format.rootName] := by
  have hcons : .root outline.format.rootName :: outline.nodes.tail = outline.nodes :=
    List.cons_head?_tail hlinked.root
  rw [← hcons]
  rfl

theorem index_eq_zero_of_parent_eq_none {node : Node} (hnode : node ∈ outline.nodes)
    (hroot : node.parent = none) : node.index = 0 := by
  by_contra hindex
  obtain ⟨above, -, hbelow⟩ := hlinked.below node hnode hindex
  rw [hbelow.parent] at hroot
  cases hroot

/-- The parent of a node is the node that it stands right below. -/
theorem standsBelow_of_parent_eq {node above : Node} (hnode : node ∈ outline.nodes)
    (habove : above ∈ outline.nodes) (hparent : node.parent = some above.index) :
    node.StandsBelow outline.nodes above := by
  have hindex : node.index ≠ 0 := by
    intro hzero
    rw [hlinked.eq_root_of_index_eq_zero hnode hzero] at hparent
    cases hparent
  obtain ⟨other, hother, hbelow⟩ := hlinked.below node hnode hindex
  have hsame : above = other := by
    refine hlinked.eq_of_index_eq habove hother ?_
    rw [hbelow.parent] at hparent
    exact (Option.some.inj hparent).symm
  rw [hsame]
  exact hbelow

/-- **Links do not cross.** What stands right below a node comes before everything behind that node
that stands right below an earlier one. -/
theorem before_of_standsBelow {lower above other upper : Node}
    (hlower : lower ∈ outline.nodes) (hother : other ∈ outline.nodes)
    (habove : above ∈ outline.nodes) (hbelow : lower.StandsBelow outline.nodes above)
    (hbelow' : other.StandsBelow outline.nodes upper) (hupper : upper.index < above.index)
    (hbehind : above.index < other.index) : lower.Before other := by
  by_contra hcross
  have hne : lower.index ≠ other.index := by
    intro hsame
    have hparents := hbelow.parent
    rw [hlinked.eq_of_index_eq hlower hother hsame, hbelow'.parent] at hparents
    exact absurd (Option.some.inj hparents) (Nat.ne_of_lt hupper)
  have hfront : other.index < lower.index := by
    unfold Node.Before at hcross
    omega
  have hdeep := hbelow.between other hother hbehind hfront
  have hshallow := hbelow'.between above habove hupper hbehind
  have hlevel := hbelow.level
  omega

end Linked

/-! ### Nodes from an index on -/

section Onward

variable {outline : Outline} (hlinked : outline.Linked) {kind : Node → Prop}
  (hkind : ∀ node, kind node → node ∈ outline.nodes) {index : Nat} {node : Node}
  (hnode : outline.nodes[index]? = some node)
include hlinked hkind hnode

theorem onward_iff (other : Node) :
    Onward kind index other ↔ (other = node ∧ kind node) ∨ Onward kind (index + 1) other := by
  have hindex := hlinked.index_of_getElem? hnode
  constructor
  · rintro ⟨hother, hle⟩
    by_cases hsame : other.index = node.index
    · have hat := hlinked.eq_of_index_eq (hkind other hother) (List.mem_of_getElem? hnode) hsame
      rw [hat] at hother
      exact .inl ⟨hat, hother⟩
    · exact .inr ⟨hother, by omega⟩
  · rintro (⟨rfl, hother⟩ | ⟨hother, hle⟩)
    · exact ⟨hother, Nat.le_of_eq hindex.symm⟩
    · exact ⟨hother, Nat.le_of_succ_le hle⟩

/-- Nothing of the kind stands at the index. -/
theorem onward_succ (hnot : ¬ kind node) : Onward kind (index + 1) = Onward kind index := by
  funext other
  rw [propext (onward_iff hlinked hkind hnode other)]
  apply propext
  constructor
  · exact .inr
  · rintro (⟨-, hother⟩ | hother)
    · exact absurd hother hnot
    · exact hother

theorem lists_cons (hat : kind node) {later : List Node}
    (hlater : Lists later (Onward kind (index + 1))) :
    Lists (node :: later) (Onward kind index) := by
  have hindex := hlinked.index_of_getElem? hnode
  refine ⟨List.pairwise_cons.mpr ⟨?_, hlater.1⟩, ?_⟩
  · intro other hother
    obtain ⟨-, hbehind⟩ := (hlater.2 other).mp hother
    rw [← hindex] at hbehind
    exact hbehind
  · intro other
    rw [List.mem_cons, hlater.2, onward_iff hlinked hkind hnode, and_iff_left hat]

/-- The first node of the kind is the one at the index. -/
theorem exists_eq_cons_of_lists (hat : kind node) {pending : List Node}
    (hpending : Lists pending (Onward kind index)) :
    ∃ rest, pending = node :: rest ∧ Lists rest (Onward kind (index + 1)) := by
  have hindex := hlinked.index_of_getElem? hnode
  have hmem : node ∈ pending := (hpending.2 node).mpr ⟨hat, Nat.le_of_eq hindex.symm⟩
  cases pending with
  | nil => cases hmem
  | cons first rest =>
      have hpairs := List.pairwise_cons.mp hpending.1
      obtain ⟨-, hle⟩ := (hpending.2 first).mp List.mem_cons_self
      have hhead : node = first := by
        rcases List.mem_cons.mp hmem with hsame | hrest
        · exact hsame
        · have hlt : first.index < node.index := hpairs.1 node hrest
          omega
      subst hhead
      refine ⟨rest, rfl, hpairs.2, ?_⟩
      intro other
      constructor
      · intro hother
        have hlt : node.index < other.index := hpairs.1 other hother
        exact ⟨((hpending.2 other).mp (List.mem_cons_of_mem _ hother)).1, by omega⟩
      · intro hother
        have hlater := (onward_iff hlinked hkind hnode other).mpr (.inr hother)
        rcases List.mem_cons.mp ((hpending.2 other).mpr hlater) with rfl | hrest
        · have hle := hother.2
          omega
        · exact hrest

end Onward

/-! ### What waits -/

section Walk

variable {outline : Outline} (hlinked : outline.Linked) {keep : Node → Bool}
include hlinked

theorem waiting_zero : outline.Waiting keep 0 (outline.nodes.take 1) := by
  rw [hlinked.take_one]
  refine ⟨List.pairwise_singleton _ _, ?_⟩
  intro node
  rw [List.mem_singleton]
  constructor
  · rintro rfl
    exact ⟨⟨List.mem_of_mem_head? hlinked.root, .inl rfl⟩, Nat.zero_le _⟩
  · rintro ⟨⟨hnode, hparent | ⟨above, -, -, hbefore⟩⟩, -⟩
    · exact hlinked.eq_root_of_index_eq_zero hnode
        (hlinked.index_eq_zero_of_parent_eq_none hnode hparent)
    · exact absurd hbefore (Nat.not_lt_zero _)

theorem met_succ_iff {index : Nat} {node other : Node} (hnode : node ∈ outline.nodes)
    (hindex : node.index = index) :
    outline.Met keep (index + 1) other ↔
      outline.Met keep index other ∨
        (other ∈ outline.children index ∧ outline.Reached keep node) := by
  constructor
  · rintro ⟨hother, hroot | ⟨above, habove, hparent, hbefore⟩⟩
    · exact .inl ⟨hother, .inl hroot⟩
    · by_cases hsame : above.index = index
      · have hat : above = node :=
          hlinked.eq_of_index_eq (mem_of_reached habove) hnode (by rw [hsame, hindex])
        rw [hsame] at hparent
        rw [hat] at habove
        exact .inr ⟨hlinked.mem_children.mpr ⟨hother, hparent⟩, habove⟩
      · exact .inl ⟨hother, .inr ⟨above, habove, hparent, by omega⟩⟩
  · rintro (⟨hother, hroot | ⟨above, habove, hparent, hbefore⟩⟩ | ⟨hchild, hreached⟩)
    · exact ⟨hother, .inl hroot⟩
    · exact ⟨hother, .inr ⟨above, habove, hparent, Nat.lt_succ_of_lt hbefore⟩⟩
    · obtain ⟨hother, hparent⟩ := hlinked.mem_children.mp hchild
      exact ⟨hother, .inr ⟨node, hreached, by rw [hparent, hindex], by omega⟩⟩

theorem met_of_reached {node : Node} (hreached : outline.Reached keep node) :
    outline.Met keep node.index node := by
  cases hreached with
  | root hnode hroot _ => exact ⟨hnode, .inl hroot⟩
  | under hnode habove hparent _ =>
      have hbelow := hlinked.standsBelow_of_parent_eq hnode (mem_of_reached habove) hparent
      exact ⟨hnode, .inr ⟨_, habove, hparent, hbelow.earlier⟩⟩

/-- What waits after a reached node: the nodes right below it, then everything else. -/
theorem waiting_of_reached {index : Nat} {node : Node} {rest : List Node}
    (hnode : outline.nodes[index]? = some node) (hreached : outline.Reached keep node)
    (hrest : Lists rest (Onward (outline.Met keep index) (index + 1))) :
    outline.Waiting keep (index + 1) (outline.children index ++ rest) := by
  have hmem := List.mem_of_getElem? hnode
  have hindex := hlinked.index_of_getElem? hnode
  have hbelow : ∀ {lower : Node}, lower ∈ outline.children index →
      lower ∈ outline.nodes ∧ lower.StandsBelow outline.nodes node := by
    intro lower hlower
    obtain ⟨hlower, hparent⟩ := hlinked.mem_children.mp hlower
    exact ⟨hlower, hlinked.standsBelow_of_parent_eq hlower hmem (by rw [hparent, hindex])⟩
  refine ⟨List.pairwise_append.mpr ⟨hlinked.children_before index, hrest.1, ?_⟩, ?_⟩
  · intro lower hlower other hother
    obtain ⟨⟨hother, hroot | ⟨upper, hupper, hparent, hbefore⟩⟩, hbehind⟩ :=
      (hrest.2 other).mp hother
    · have hzero := hlinked.index_eq_zero_of_parent_eq_none hother hroot
      omega
    · obtain ⟨hlower, hunder⟩ := hbelow hlower
      exact hlinked.before_of_standsBelow hlower hother hmem hunder
        (hlinked.standsBelow_of_parent_eq hother (mem_of_reached hupper) hparent) (by omega)
        (by omega)
  · intro other
    rw [List.mem_append, hrest.2, Onward, Onward, met_succ_iff hlinked hmem hindex]
    constructor
    · rintro (hchild | ⟨hmet, hbehind⟩)
      · have hearlier := (hbelow hchild).2.earlier
        exact ⟨.inr ⟨hchild, hreached⟩, by omega⟩
      · exact ⟨.inl hmet, hbehind⟩
    · rintro ⟨hmet | ⟨hchild, -⟩, hbehind⟩
      · exact .inr ⟨hmet, hbehind⟩
      · exact .inl hchild

/-- Nothing more waits after a node that is not reached. -/
theorem waiting_of_not_reached {index : Nat} {node : Node} {rest : List Node}
    (hnode : outline.nodes[index]? = some node) (hnot : ¬ outline.Reached keep node)
    (hrest : Lists rest (Onward (outline.Met keep index) (index + 1))) :
    outline.Waiting keep (index + 1) rest := by
  refine ⟨hrest.1, ?_⟩
  intro other
  rw [hrest.2, Onward, Onward, met_succ_iff hlinked (List.mem_of_getElem? hnode)
    (hlinked.index_of_getElem? hnode)]
  constructor
  · rintro ⟨hmet, hbehind⟩
    exact ⟨.inl hmet, hbehind⟩
  · rintro ⟨hmet | ⟨-, hreached⟩, hbehind⟩
    · exact ⟨hmet, hbehind⟩
    · exact absurd hreached hnot

/-! ### The walk -/

theorem lists_walkFrom_of_length_le {index fuel : Nat} {pending : List Node}
    (hlength : outline.nodes.length ≤ index) (hwaiting : outline.Waiting keep index pending) :
    Lists (outline.walkFrom keep fuel pending) (Onward (outline.Reached keep) index) := by
  have hnone : ∀ node ∈ outline.nodes, ¬ index ≤ node.index := by
    intro node hnode hindex
    exact absurd (hlinked.index_lt_of_mem hnode) (Nat.not_lt_of_le (hlength.trans hindex))
  have hpending : pending = [] := by
    refine List.eq_nil_iff_forall_not_mem.mpr ?_
    intro node hnode
    obtain ⟨⟨hmem, -⟩, hindex⟩ := (hwaiting.2 node).mp hnode
    exact hnone node hmem hindex
  have hwalk : outline.walkFrom keep fuel [] = [] := by
    cases fuel <;> rfl
  rw [hpending, hwalk]
  refine ⟨List.Pairwise.nil, ?_⟩
  intro node
  constructor
  · intro hnode
    cases hnode
  · rintro ⟨hreached, hindex⟩
    exact absurd hindex (hnone node (mem_of_reached hreached))

/-- The walk over what waits meets the reached nodes from the index on. The induction is on the
number of nodes from there on, which bounds the steps that are left. -/
theorem lists_walkFrom : ∀ (count index fuel : Nat) (pending : List Node),
    index + count = outline.nodes.length → count ≤ fuel → outline.Waiting keep index pending →
      Lists (outline.walkFrom keep fuel pending) (Onward (outline.Reached keep) index) := by
  intro count
  induction count with
  | zero =>
      intro index fuel pending hcount _ hwaiting
      exact lists_walkFrom_of_length_le hlinked (Nat.le_of_eq hcount.symm) hwaiting
  | succ count ih =>
      intro index fuel pending hcount hfuel hwaiting
      have hlength : index < outline.nodes.length := by omega
      have hnode : outline.nodes[index]? = some outline.nodes[index] :=
        List.getElem?_eq_getElem hlength
      generalize outline.nodes[index] = node at hnode
      have hindex := hlinked.index_of_getElem? hnode
      have hcount' : index + 1 + count = outline.nodes.length := by omega
      have hskip : ¬ outline.Reached keep node → ∀ later,
          Lists later (Onward (outline.Reached keep) (index + 1)) →
            Lists later (Onward (outline.Reached keep) index) := by
        intro hnot later hlater
        rw [← onward_succ hlinked (fun _ => mem_of_reached) hnode hnot]
        exact hlater
      by_cases hmet : outline.Met keep index node
      · obtain ⟨rest, rfl, hrest⟩ :=
          exists_eq_cons_of_lists hlinked (fun _ hmet => hmet.1) hnode hmet hwaiting
        cases fuel with
        | zero => exact absurd hfuel (Nat.not_succ_le_zero count)
        | succ fuel =>
            have hfuel' := Nat.le_of_succ_le_succ hfuel
            rw [walkFrom]
            by_cases hkeep : keep node = true
            · have hreached := reached_of_met hmet hkeep
              rw [if_pos hkeep, hindex]
              exact lists_cons hlinked (fun _ => mem_of_reached) hnode hreached
                (ih (index + 1) fuel _ hcount' hfuel'
                  (waiting_of_reached hlinked hnode hreached hrest))
            · have hnot : ¬ outline.Reached keep node :=
                fun hreached => hkeep (keep_of_reached hreached)
              rw [if_neg hkeep]
              exact hskip hnot _ (ih (index + 1) fuel _ hcount' hfuel'
                (waiting_of_not_reached hlinked hnode hnot hrest))
      · -- a node that is not met lies below one that is not kept, and does not wait
        have hnot : ¬ outline.Reached keep node := by
          intro hreached
          rw [← hindex] at hmet
          exact hmet (met_of_reached hlinked hreached)
        have hrest : Lists pending (Onward (outline.Met keep index) (index + 1)) := by
          rw [onward_succ hlinked (fun _ hmet => hmet.1) hnode hmet]
          exact hwaiting
        exact hskip hnot _ (ih (index + 1) fuel pending hcount' (Nat.le_of_succ_le hfuel)
          (waiting_of_not_reached hlinked hnode hnot hrest))

/-- **A walk meets the nodes that are kept together with all nodes above them, each once and in the
order of the text.** -/
theorem lists_walk : Lists (outline.walk keep) (outline.Reached keep) := by
  have hstart : outline.Waiting keep 0 (outline.nodes.take 1) := waiting_zero hlinked
  have hwalk := lists_walkFrom hlinked outline.nodes.length 0 outline.nodes.length _
    (Nat.zero_add _) (Nat.le_refl _) hstart
  refine ⟨hwalk.1, ?_⟩
  intro node
  rw [walk, hwalk.2, Onward]
  exact and_iff_left (Nat.zero_le _)

end Walk

namespace Linked

variable {outline : Outline} (hlinked : outline.Linked)
include hlinked

/-- A walk that passes over nothing reaches every node: the parent of a node comes before it. -/
theorem reached_of_mem {index : Nat} :
    ∀ node ∈ outline.nodes, node.index = index → outline.Reached (fun _ => true) node := by
  induction index using Nat.strongRecOn with
  | ind index ih =>
      intro node hnode hindex
      by_cases hzero : node.index = 0
      · have hroot : node.parent = none := by
          rw [hlinked.eq_root_of_index_eq_zero hnode hzero]
          rfl
        exact .root hnode hroot rfl
      · obtain ⟨above, habove, hbelow⟩ := hlinked.below node hnode hzero
        have hearlier : above.index < index := by
          rw [← hindex]
          exact hbelow.earlier
        exact .under hnode (ih above.index hearlier above habove rfl) hbelow.parent rfl

/-- With enough steps a walk that passes over nothing meets all nodes. -/
theorem walkFrom_eq_nodes {fuel : Nat} (hfuel : outline.nodes.length ≤ fuel) :
    outline.walkFrom (fun _ => true) fuel (outline.nodes.take 1) = outline.nodes := by
  have hlists : Lists (outline.walkFrom (fun _ => true) fuel (outline.nodes.take 1))
      (Onward (outline.Reached fun _ => true) 0) :=
    lists_walkFrom hlinked outline.nodes.length 0 fuel _ (Nat.zero_add _) hfuel
      (waiting_zero hlinked)
  refine hlists.eq ⟨hlinked.pairwise_before, ?_⟩
  intro node
  constructor
  · intro hnode
    exact ⟨hlinked.reached_of_mem node hnode rfl, Nat.zero_le _⟩
  · rintro ⟨hreached, -⟩
    exact mem_of_reached hreached

/-- **The way through an outline meets its nodes in the order of the text.** -/
theorem preorder_eq_nodes : outline.preorder = outline.nodes :=
  hlinked.walkFrom_eq_nodes (Nat.le_refl _)

end Linked

end Archetype.Outline
