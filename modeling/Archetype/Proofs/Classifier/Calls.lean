import Archetype.Classifier
import Archetype.Proofs.RuleTree.Matching
import Archetype.Proofs.RuleTree.Values

/-!
# A classifier that is called again and again

A classifier is asked to take over texts and files and to classify records, in any order. A text
that gives no tree and a file that cannot be read change nothing, and questions change nothing
either. After any calls the tree of a classifier is therefore one that some text gave in its own
format, and what is true of trees that are read is true of it.
-/

namespace Archetype.Classifier

open Archetype.Outline

/-- What a classifier is asked for. A file comes with what reading it yields. -/
inductive Call where
  | adopt (text : String)
  | load (contents : Except FileFault Bytes)
  | classify (record : Record)
  | explain (record : Record)

/-- The classifier after a call. -/
def after (classifier : Classifier) : Call → Classifier
  | .adopt text => (classifier.adopt text).toOption.getD classifier
  | .load contents => (classifier.load contents).toOption.getD classifier
  | .classify _ | .explain _ => classifier

/-- The classifier after calls, the first one first. -/
def afterAll (classifier : Classifier) (calls : List Call) : Classifier :=
  calls.foldl after classifier

/-- The tree of a classifier, if it has one, is that of some text in the format of the
classifier. -/
def HoldsRead (classifier : Classifier) : Prop :=
  ∀ tree, classifier.tree = some tree →
    ∃ text, RuleTree.read classifier.format text = .ok tree

theorem exists_read_of_adopt {classifier later : Classifier} {text : String}
    (hadopt : classifier.adopt text = .ok later) :
    ∃ tree, RuleTree.read classifier.format text = .ok tree ∧
      later = { classifier with tree := some tree } := by
  obtain ⟨tree, hread, hlater⟩ := exists_of_map_eq_ok hadopt
  exact ⟨tree, hread, hlater.symm⟩

/-- Loading a file is taking over its text. -/
theorem load_of_ruleText {classifier : Classifier} {bytes : Bytes} {text : String}
    (hname : Bytes.isEncodingName classifier.encoding = true)
    (htext : Bytes.ruleText classifier.encoding bytes = .ok text) :
    classifier.load (.ok bytes) = (classifier.adopt text).mapError .tree := by
  unfold load
  rw [hname]
  change ((Bytes.ruleText classifier.encoding bytes).mapError LoadFault.text >>= fun text =>
    (classifier.adopt text).mapError LoadFault.tree) = _
  rw [htext]
  rfl

/-- A file that is loaded was read as a text that is taken over. -/
theorem load_eq_ok_iff {classifier later : Classifier} {contents : Except FileFault Bytes} :
    classifier.load contents = .ok later ↔
      Bytes.isEncodingName classifier.encoding = true ∧ ∃ bytes text, contents = .ok bytes ∧
        Bytes.ruleText classifier.encoding bytes = .ok text ∧
          classifier.adopt text = .ok later := by
  constructor
  · intro hload
    unfold load at hload
    dsimp only at hload
    split at hload
    · cases hload
    · next hname =>
      obtain ⟨bytes, hbytes, hload⟩ := exists_of_bind_eq_ok hload
      obtain ⟨text, htext, hload⟩ := exists_of_bind_eq_ok hload
      exact ⟨by simpa using hname, bytes, text, eq_ok_of_mapError hbytes,
        eq_ok_of_mapError htext, eq_ok_of_mapError hload⟩
  · rintro ⟨hname, bytes, text, rfl, htext, hadopt⟩
    rw [load_of_ruleText hname htext, hadopt]
    rfl

theorem holdsRead_of_tree_eq_none {classifier : Classifier} (hnone : classifier.tree = none) :
    classifier.HoldsRead := by
  intro tree htree
  rw [hnone] at htree
  cases htree

theorem holdsRead_of_adopt {classifier later : Classifier} {text : String}
    (hadopt : classifier.adopt text = .ok later) : later.HoldsRead := by
  obtain ⟨tree, hread, rfl⟩ := exists_read_of_adopt hadopt
  intro tree' htree'
  cases htree'
  exact ⟨text, hread⟩

theorem HoldsRead.after {classifier : Classifier} (hholds : classifier.HoldsRead) (call : Call) :
    (classifier.after call).HoldsRead := by
  cases call with
  | adopt text =>
      cases hadopt : classifier.adopt text with
      | error fault =>
          rw [Classifier.after, hadopt]
          exact hholds
      | ok later =>
          rw [Classifier.after, hadopt]
          exact holdsRead_of_adopt hadopt
  | load contents =>
      cases hload : classifier.load contents with
      | error fault =>
          rw [Classifier.after, hload]
          exact hholds
      | ok later =>
          obtain ⟨-, -, text, -, -, hadopt⟩ := load_eq_ok_iff.mp hload
          rw [Classifier.after, hload]
          exact holdsRead_of_adopt hadopt
  | classify record => exact hholds
  | explain record => exact hholds

theorem HoldsRead.afterAll {calls : List Call} :
    ∀ {classifier : Classifier}, classifier.HoldsRead →
      (classifier.afterAll calls).HoldsRead := by
  induction calls with
  | nil => exact fun hholds => hholds
  | cons call rest ih => exact fun hholds => ih (hholds.after call)

/-- **What a classifier explains is what its tree means.** Whatever it was called for before, its
answer has each level at most once; it has a level exactly if some node of that level is a match;
and with the level come all these nodes, once each and in the order of the text. -/
theorem explain_eq_matches_by_level {start : Classifier} (hfresh : start.tree = none)
    (calls : List Call) {tree : RuleTree} (htree : (start.afterAll calls).tree = some tree)
    (record : Record) :
    ((start.afterAll calls).explain record).Pairwise (fun lower upper => lower.1 < upper.1) ∧
    ∀ level, ∃ found, found.Sublist tree.outline.nodes ∧ found.Nodup ∧
      (∀ node, node ∈ found ↔ tree.IsMatch record node ∧ node.level = level) ∧
      ∀ nodes, (level, nodes) ∈ (start.afterAll calls).explain record ↔
        nodes = found ∧ found ≠ [] := by
  obtain ⟨text, hread⟩ := (holdsRead_of_tree_eq_none hfresh).afterAll tree htree
  have hlinked : tree.outline.Linked := linked_of_read (RuleTree.outline_of_read hread).1
  have hexplain : (start.afterAll calls).explain record = tree.explain record := by
    rw [explain, htree]
    rfl
  rw [hexplain]
  exact ⟨RuleTree.pairwise_byLevel _, RuleTree.explain_of_linked hlinked record⟩

/-- A tree below a structural node stays in use when the next text skips a level. -/
theorem explain_eq_matches_by_level_below_structural :
    ∃ (calls : List Call) (tree : RuleTree), (({} : Classifier).afterAll calls).tree = some tree ∧
      tree.outline.nodes.map (·.name) = ["All Games", "$S", "A", "B"] ∧
      ∀ record level, ∃ found : List Node, found.Sublist tree.outline.nodes ∧ found.Nodup ∧
        (∀ node, node ∈ found ↔ tree.IsMatch record node ∧ node.level = level) ∧
        ∀ nodes, (level, nodes) ∈ (({} : Classifier).afterAll calls).explain record ↔
          nodes = found ∧ found ≠ [] := by
  have hnames : (({} : Classifier).afterAll [.adopt "$S|true\n|A|Colors.Count > 0\nB|true",
      .adopt "A|true\n||B|true"]).tree.map (fun tree => tree.outline.nodes.map (·.name)) =
        some ["All Games", "$S", "A", "B"] := by
    decide +kernel
  obtain ⟨tree, htree, hnodes⟩ := Option.map_eq_some_iff.mp hnames
  exact ⟨_, tree, htree, hnodes,
    fun record => (explain_eq_matches_by_level rfl _ htree record).2⟩

end Archetype.Classifier
