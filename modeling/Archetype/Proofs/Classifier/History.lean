import Mathlib.Data.List.Induction
import Archetype.Proofs.Classifier.Calls

/-!
# The history of a classifier

A call that fails leaves nothing behind, and a call that succeeds leaves nothing of what was there
before it. Whether it succeeds, and with which tree, is settled by the format, the encoding and the
call. After any calls a classifier is therefore what the last successful one alone makes of a new
classifier, or it is still new.
-/

namespace Archetype.Classifier

open Archetype.Outline

/-- What a call puts in the place of a classifier, if it puts anything there. -/
def replaced? (classifier : Classifier) : Call → Option Classifier
  | .adopt text => (classifier.adopt text).toOption
  | .load contents => (classifier.load contents).toOption
  | .classify _ | .explain _ => none

def succeeds (classifier : Classifier) (call : Call) : Bool :=
  (classifier.replaced? call).isSome

/-- A classifier that was not called yet. -/
def new (format : Format) (encoding : String) : Classifier where
  format
  encoding

variable {classifier other : Classifier}

theorem after_eq_getD (classifier : Classifier) (call : Call) :
    classifier.after call = (classifier.replaced? call).getD classifier := by
  cases call <;> rfl

theorem after_of_not_succeeds {call : Call} (hfails : classifier.succeeds call = false) :
    classifier.after call = classifier := by
  rw [succeeds, Option.isSome_eq_false_iff, Option.isNone_iff_eq_none] at hfails
  rw [after_eq_getD, hfails, Option.getD_none]

theorem adopt_congr (hformat : classifier.format = other.format)
    (hencoding : classifier.encoding = other.encoding) (text : String) :
    classifier.adopt text = other.adopt text := by
  unfold adopt
  rw [hformat, hencoding]

/-- **The tree in use has no part in what a call puts in its place.** -/
theorem replaced?_congr (hformat : classifier.format = other.format)
    (hencoding : classifier.encoding = other.encoding) (call : Call) :
    classifier.replaced? call = other.replaced? call := by
  cases call with
  | adopt text => rw [replaced?, replaced?, adopt_congr hformat hencoding]
  | load contents =>
      have hadopt : classifier.adopt = other.adopt := funext (adopt_congr hformat hencoding)
      rw [replaced?, replaced?, load, load, hencoding, hadopt]
  | classify _ | explain _ => rfl

theorem after_of_succeeds (hformat : classifier.format = other.format)
    (hencoding : classifier.encoding = other.encoding) {call : Call}
    (hsucceeds : other.succeeds call = true) : classifier.after call = other.after call := by
  obtain ⟨later, hlater⟩ := Option.isSome_iff_exists.mp hsucceeds
  rw [after_eq_getD, after_eq_getD, replaced?_congr hformat hencoding, hlater, Option.getD_some,
    Option.getD_some]

theorem setting_of_adopt {text : String} {later : Classifier}
    (hadopt : classifier.adopt text = .ok later) :
    later.format = classifier.format ∧ later.encoding = classifier.encoding := by
  obtain ⟨tree, -, rfl⟩ := exists_read_of_adopt hadopt
  exact ⟨rfl, rfl⟩

theorem setting_after (classifier : Classifier) (call : Call) :
    (classifier.after call).format = classifier.format ∧
      (classifier.after call).encoding = classifier.encoding := by
  rw [after_eq_getD]
  cases hreplaced : classifier.replaced? call with
  | none => exact ⟨rfl, rfl⟩
  | some later =>
      rw [Option.getD_some]
      cases call with
      | adopt text => exact setting_of_adopt (eq_ok_of_toOption hreplaced)
      | load contents =>
          obtain ⟨-, _, _, -, -, hadopt⟩ :=
            load_eq_ok_iff.mp (eq_ok_of_toOption hreplaced)
          exact setting_of_adopt hadopt
      | classify _ | explain _ => cases hreplaced

theorem setting_afterAll (calls : List Call) : ∀ classifier : Classifier,
    (classifier.afterAll calls).format = classifier.format ∧
      (classifier.afterAll calls).encoding = classifier.encoding := by
  induction calls with
  | nil => exact fun _ => ⟨rfl, rfl⟩
  | cons call rest ih =>
      intro classifier
      obtain ⟨hformat, hencoding⟩ := setting_after classifier call
      obtain ⟨hformat', hencoding'⟩ := ih (classifier.after call)
      exact ⟨hformat'.trans hformat, hencoding'.trans hencoding⟩

theorem succeeds_afterAll (classifier : Classifier) (calls : List Call) (call : Call) :
    (classifier.afterAll calls).succeeds call = classifier.succeeds call := by
  obtain ⟨hformat, hencoding⟩ := setting_afterAll calls classifier
  rw [succeeds, succeeds, replaced?_congr hformat hencoding]

/-- **Only the last successful call counts.** The induction takes the last call first: a failed one
leaves what was there, and a successful one does not look at it. -/
theorem afterAll_eq_elim (classifier : Classifier) (calls : List Call) :
    classifier.afterAll calls =
      ((calls.filter classifier.succeeds).getLast?).elim classifier classifier.after := by
  induction calls using List.reverseRecOn with
  | nil => rfl
  | append_singleton calls call ih =>
      have hlast : classifier.afterAll (calls ++ [call]) =
          (classifier.afterAll calls).after call := by
        rw [afterAll, afterAll, List.foldl_concat]
      rw [hlast, List.filter_append, List.filter_singleton]
      cases hsucceeds : classifier.succeeds call with
      | false =>
          rw [cond_false, List.append_nil, ← ih]
          refine after_of_not_succeeds ?_
          rw [succeeds_afterAll, hsucceeds]
      | true =>
          obtain ⟨hformat, hencoding⟩ := setting_afterAll calls classifier
          rw [cond_true, List.getLast?_concat, Option.elim_some]
          exact after_of_succeeds hformat hencoding hsucceeds

/-! ### What is in use -/

theorem HoldsRead.nodes_eq (hholds : classifier.HoldsRead) {tree : RuleTree}
    (htree : classifier.tree = some tree) : classifier.nodes = tree.outline.nodes := by
  obtain ⟨text, hread⟩ := hholds tree htree
  rw [nodes, htree, Option.elim_some]
  exact (linked_of_read (RuleTree.outline_of_read hread).1).preorder_eq_nodes

theorem HoldsRead.nodeCount_eq (hholds : classifier.HoldsRead) :
    classifier.nodeCount = classifier.nodes.length := by
  cases htree : classifier.tree with
  | none => rw [nodeCount, nodes, htree, Option.elim_none, Option.elim_none, List.length_nil]
  | some tree => rw [hholds.nodes_eq htree, nodeCount, htree, Option.elim_some]

theorem HoldsRead.exists_predicate (hholds : classifier.HoldsRead) {tree : RuleTree}
    (htree : classifier.tree = some tree) : ∀ node ∈ classifier.nodes,
      ∃ holds, tree.predicates[node.index]? = some holds := by
  intro node hnode
  rw [hholds.nodes_eq htree] at hnode
  obtain ⟨text, hread⟩ := hholds tree htree
  obtain ⟨-, holds, -, -, hpredicate⟩ := RuleTree.exists_compiles
    (RuleTree.outline_of_read hread).2 (RuleTree.getElem?_index_of_read hread hnode)
  exact ⟨holds, hpredicate⟩

section History

variable (format : Format) (encoding : String) (calls : List Call)

/-- **A classifier is what its last successful call alone makes of a new one.** Without any it is
still new: it has no nodes and finds nothing. A call succeeds after others exactly if it succeeds
first, and at any time the nodes that are counted are those that are met, each with a predicate. -/
theorem afterAll_new_eq_after_last_success :
    (new format encoding).afterAll calls =
      ((calls.filter (new format encoding).succeeds).getLast?).elim (new format encoding)
        (new format encoding).after ∧
    (∀ call, ((new format encoding).afterAll calls).succeeds call =
      (new format encoding).succeeds call) ∧
    ((new format encoding).nodeCount = 0 ∧ ∀ record,
      (new format encoding).classify record = none ∧
        (new format encoding).explain record = []) ∧
    ((new format encoding).afterAll calls).nodeCount =
      ((new format encoding).afterAll calls).nodes.length ∧
    ∀ tree, ((new format encoding).afterAll calls).tree = some tree →
      ((new format encoding).afterAll calls).nodes = tree.outline.nodes ∧
      ∀ node ∈ ((new format encoding).afterAll calls).nodes,
        ∃ holds, tree.predicates[node.index]? = some holds := by
  have hholds : ((new format encoding).afterAll calls).HoldsRead :=
    (holdsRead_of_tree_eq_none rfl).afterAll
  refine ⟨afterAll_eq_elim _ calls, succeeds_afterAll _ calls, ⟨rfl, fun _ => ⟨rfl, rfl⟩⟩,
    hholds.nodeCount_eq, ?_⟩
  intro tree htree
  exact ⟨hholds.nodes_eq htree, hholds.exists_predicate htree⟩

end History

end Archetype.Classifier
