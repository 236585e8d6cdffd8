import Mathlib.Data.List.Basic
import Archetype.Proofs.Outline.Traversal
import Archetype.Proofs.Text.Search

/-!
# Outlines as forests

The rules below the root of an outline form a forest, read off the lists of children. The same
forest can be listed in the order of the text, each rule with its depth, and nothing is lost by
that: what follows a rule and is deeper stands below it, so a listing comes from one forest only.
The listing of the forest of an outline is that of its nodes.
-/

namespace Archetype.Outline

open Archetype.Text

/-- A rule with the rules right below it, in their order. -/
inductive Branch where
  | rule (name condition : String) (below : List Branch)

/-- A rule by itself, and how deep it stands. -/
structure Entry where
  depth : Nat
  name : String
  condition : String
deriving DecidableEq, Repr

/-- The rules of a forest whose roots have some depth, each before the rules below it. -/
def listing (depth : Nat) : List Branch → List Entry
  | [] => []
  | .rule name condition below :: rest =>
    ⟨depth, name, condition⟩ :: (listing (depth + 1) below ++ listing depth rest)

/-- Induction on forests: on the rules right below the first root, and on the roots after it. -/
theorem Branch.forest_induction {motive : List Branch → Prop} (nil : motive [])
    (rule : ∀ name condition below rest, motive below → motive rest →
      motive (.rule name condition below :: rest)) (forest : List Branch) : motive forest := by
  refine @Branch.rec_1 (fun branch => ∀ rest, motive rest → motive (branch :: rest)) motive
    ?_ nil ?_ forest
  · intro name condition below hbelow rest hrest
    exact rule name condition below rest hbelow hrest
  · intro branch rest hbranch hrest
    exact hbranch rest hrest

/-! ### A listing comes from one forest -/

theorem le_depth_of_mem_listing {forest : List Branch} : ∀ {depth : Nat} {entry : Entry},
    entry ∈ listing depth forest → depth ≤ entry.depth := by
  induction forest using Branch.forest_induction with
  | nil =>
      intro depth entry hentry
      simp [listing] at hentry
  | rule name condition below rest hbelow hrest =>
      intro depth entry hentry
      rw [listing, List.mem_cons, List.mem_append] at hentry
      rcases hentry with rfl | hlower | hlater
      · exact Nat.le_refl depth
      · exact Nat.le_of_succ_le (hbelow hlower)
      · exact hrest hlater

/-- A forest is listed up to the first rule that is less deep than its roots. -/
theorem takeWhile_listing (depth : Nat) (below rest : List Branch) :
    (listing (depth + 1) below ++ listing depth rest).takeWhile (depth < ·.depth) =
      listing (depth + 1) below := by
  refine takeWhile_append_of_stop ?_ ?_
  · intro entry hentry
    exact decide_eq_true (le_depth_of_mem_listing hentry)
  · intro entry hentry
    cases rest with
    | nil => simp [listing] at hentry
    | cons branch rest =>
        cases branch
        simp only [listing, List.head?_cons, Option.some.injEq] at hentry
        simp [← hentry]

/-- **No two forests have the same listing.** -/
theorem listing_inj {forest : List Branch} : ∀ {depth : Nat} {other : List Branch},
    listing depth forest = listing depth other → forest = other := by
  induction forest using Branch.forest_induction with
  | nil =>
      intro depth other hsame
      cases other with
      | nil => rfl
      | cons branch others =>
          cases branch
          simp [listing] at hsame
  | rule name condition below rest hbelow hrest =>
      intro depth other hsame
      cases other with
      | nil => simp [listing] at hsame
      | cons branch others =>
          obtain ⟨name', condition', below'⟩ := branch
          simp only [listing, List.cons.injEq, Entry.mk.injEq, true_and] at hsame
          obtain ⟨⟨rfl, rfl⟩, htail⟩ := hsame
          have hlower : listing (depth + 1) below = listing (depth + 1) below' := by
            rw [← takeWhile_listing depth below rest, htail, takeWhile_listing]
          rw [hlower] at htail
          rw [hbelow hlower, hrest (List.append_cancel_left htail)]

/-! ### The forest of an outline -/

/-- Nodes bear a forest: its roots are the nodes, in their order, and below each of these stands
what its children bear. -/
inductive Bears (outline : Outline) : List Node → List Branch → Prop
  | nil : Bears outline [] []
  | cons {node : Node} {nodes : List Node} {below rest : List Branch}
      (hbelow : Bears outline (outline.children node.index) below)
      (hrest : Bears outline nodes rest) :
      Bears outline (node :: nodes) (.rule node.name node.expression below :: rest)

def Node.entry (node : Node) : Entry :=
  ⟨node.level - 1, node.name, node.expression⟩

theorem exists_bears_of_forall {outline : Outline} : ∀ {nodes : List Node},
    (∀ node ∈ nodes, ∃ below, outline.Bears (outline.children node.index) below) →
      ∃ forest, outline.Bears nodes forest
  | [], _ => ⟨[], .nil⟩
  | _ :: _, hnodes => by
      obtain ⟨⟨below, hbelow⟩, hlater⟩ := List.forall_mem_cons.mp hnodes
      obtain ⟨rest, hrest⟩ := exists_bears_of_forall hlater
      exact ⟨_, .cons hbelow hrest⟩

namespace Linked

variable {outline : Outline} (hlinked : outline.Linked)
include hlinked

/-- The nodes right below a node of some level are one level deeper. -/
theorem level_of_mem_children {above node : Node} (habove : above ∈ outline.nodes)
    (hnode : node ∈ outline.children above.index) :
    node ∈ outline.nodes ∧ node.level = above.level + 1 ∧ above.index < node.index := by
  obtain ⟨hmem, hparent⟩ := hlinked.mem_children.mp hnode
  have hbelow := hlinked.standsBelow_of_parent_eq hmem habove hparent
  exact ⟨hmem, hbelow.level, hbelow.earlier⟩

/-- Every node has a forest below it. The induction is on the number of nodes behind it. -/
theorem exists_bears {count : Nat} : ∀ node ∈ outline.nodes,
    outline.nodes.length ≤ node.index + count →
      ∃ forest, outline.Bears (outline.children node.index) forest := by
  induction count with
  | zero =>
      intro node hnode hcount
      exact absurd (hlinked.index_lt_of_mem hnode) (Nat.not_lt_of_le hcount)
  | succ count ih =>
      intro node hnode hcount
      apply exists_bears_of_forall
      intro lower hlower
      obtain ⟨hmem, -, hearlier⟩ := hlinked.level_of_mem_children hnode hlower
      exact ih lower hmem (by omega)

/-- A walk meets a forest in the order of its listing, and then goes on. -/
theorem map_entry_walkFrom {nodes : List Node} {forest : List Branch}
    (hbears : outline.Bears nodes forest) : ∀ {depth fuel : Nat} {pending : List Node},
      (∀ node ∈ nodes, node ∈ outline.nodes ∧ node.level = depth + 1) →
      (outline.walkFrom (fun _ => true) ((listing depth forest).length + fuel)
        (nodes ++ pending)).map Node.entry =
        listing depth forest ++ (outline.walkFrom (fun _ => true) fuel pending).map Node.entry := by
  induction hbears with
  | nil =>
      intro depth fuel pending _
      simp [listing]
  | @cons node nodes below rest hbelow hrest ihbelow ihrest =>
      intro depth fuel pending hnodes
      obtain ⟨⟨hmem, hlevel⟩, hlater⟩ := List.forall_mem_cons.mp hnodes
      have hchildren : ∀ lower ∈ outline.children node.index,
          lower ∈ outline.nodes ∧ lower.level = depth + 1 + 1 := by
        intro lower hlower
        obtain ⟨hinside, hdeeper, -⟩ := hlinked.level_of_mem_children hmem hlower
        exact ⟨hinside, by omega⟩
      have hentry : node.entry = ⟨depth, node.name, node.expression⟩ := by
        rw [Node.entry, hlevel, Nat.add_sub_cancel]
      have hfuel : (listing depth (.rule node.name node.expression below :: rest)).length + fuel =
          (listing (depth + 1) below).length + ((listing depth rest).length + fuel) + 1 := by
        simp only [listing, List.length_cons, List.length_append]
        omega
      rw [hfuel, List.cons_append, walkFrom, if_pos rfl, List.map_cons, ihbelow hchildren,
        ihrest hlater, hentry]
      simp [listing]

/-- **The nodes below the root are the listing of the forest that they form.** -/
theorem listing_eq_tail {forest : List Branch}
    (hbears : outline.Bears (outline.children 0) forest) :
    listing 0 forest = outline.nodes.tail.map Node.entry := by
  have hlevels : ∀ node ∈ outline.children 0, node ∈ outline.nodes ∧ node.level = 0 + 1 := by
    intro node hnode
    obtain ⟨hmem, hlevel, -⟩ :=
      hlinked.level_of_mem_children (List.mem_of_mem_head? hlinked.root) hnode
    exact ⟨hmem, hlevel⟩
  -- with so many steps the walk both meets all nodes and goes through the whole listing
  have hwalk : .root outline.format.rootName :: outline.walkFrom (fun _ => true)
      ((listing 0 forest).length + outline.nodes.length) (outline.children 0 ++ []) =
        outline.nodes := by
    have hall := hlinked.walkFrom_eq_nodes
      (Nat.le_succ_of_le (Nat.le_add_left outline.nodes.length (listing 0 forest).length))
    rw [hlinked.take_one, walkFrom, if_pos rfl] at hall
    exact hall
  rw [← hwalk, List.tail_cons, hlinked.map_entry_walkFrom hbears hlevels]
  cases outline.nodes.length <;> simp [walkFrom]

/-- **An outline has one forest below its root**, and the listing of its nodes tells which. -/
theorem bears_iff_listing {forest : List Branch} :
    outline.Bears (outline.children 0) forest ↔
      listing 0 forest = outline.nodes.tail.map Node.entry := by
  constructor
  · exact hlinked.listing_eq_tail
  · intro hlisting
    obtain ⟨other, hother⟩ := hlinked.exists_bears (.root outline.format.rootName)
      (List.mem_of_mem_head? hlinked.root) (Nat.le_add_left _ _)
    rw [← hlinked.listing_eq_tail hother] at hlisting
    rw [listing_inj hlisting]
    exact hother

end Linked

end Archetype.Outline
