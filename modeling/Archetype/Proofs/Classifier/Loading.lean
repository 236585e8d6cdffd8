import Archetype.Desk
import Archetype.Proofs.Bytes.Utf8
import Archetype.Proofs.Classifier.Calls
import Archetype.Proofs.Text.Lines

/-!
# Rules in files

A rule file is text that was written in some encoding. Reading it writes every line end as a line
feed and drops the byte order marks in front. An outline is read from its lines alone, and those are
the same for all three line ends, so nothing of that is seen: a file in UTF-8 gives the tree or the
fault that its text gives, line numbers and all.
-/

namespace Archetype

open Archetype.Text

namespace Outline

/-- An outline depends on the lines of a text, not on what ends them. -/
theorem read_congr_of_lines_eq (format : Format) {text other : String}
    (hlines : lines text.toList = lines other.toList) :
    Outline.read format text = Outline.read format other := by
  unfold Outline.read
  rw [hlines]

end Outline

theorem RuleTree.read_congr_of_lines_eq (format : Outline.Format) {text other : String}
    (hlines : lines text.toList = lines other.toList) :
    RuleTree.read format text = RuleTree.read format other := by
  unfold RuleTree.read
  rw [Outline.read_congr_of_lines_eq format hlines]

namespace Bytes

/-- A text without the byte order marks in front of it. -/
def withoutMarks (text : String) : String :=
  String.ofList (text.toList.dropWhile (· == byteOrderMark))

/-- **The rule text of a file in UTF-8** is what was written, but for its line ends and the marks in
front of it. -/
theorem ruleText_encode {name : String} (hname : isEncodingName name = true)
    (hutf8 : Encoding.ofName? name = some .utf8) (text : String) :
    ruleText name (Utf8.encode text.toList) =
      .ok (String.ofList (unifyLineEnds (withoutMarks text).toList)) := by
  have hdecode : Encoding.utf8.decode (Utf8.encode text.toList) = .ok text.toList := by
    rw [Encoding.decode, Utf8.decode_encode]
    rfl
  unfold ruleText
  rw [hname, hutf8]
  dsimp only
  rw [hdecode, ok_bind, dropWhile_unifyLineEnds (by decide) (by decide), withoutMarks,
    String.toList_ofList]
  rfl

end Bytes

/-- At a path of a desk there is a file with these contents. -/
def Desk.HoldsFile (desk : Desk) (path : String) (contents : Bytes) : Prop :=
  desk.folder.read (desk.inside path) = .ok contents

namespace Classifier

/-- Rule files are read as UTF-8. -/
structure ReadsUtf8 (classifier : Classifier) : Prop where
  isName : Bytes.isEncodingName classifier.encoding = true
  encoding : Bytes.Encoding.ofName? classifier.encoding = some .utf8

variable {classifier : Classifier}

theorem adopt_congr_of_lines_eq {text other : String}
    (hlines : lines text.toList = lines other.toList) :
    classifier.adopt text = classifier.adopt other := by
  unfold adopt
  rw [RuleTree.read_congr_of_lines_eq classifier.format hlines]

/-- **What is written as UTF-8 is loaded as it is taken over.** -/
theorem load_encode (hutf8 : classifier.ReadsUtf8) (text : String) :
    classifier.load (.ok (Bytes.Utf8.encode text.toList)) =
      (classifier.adopt (Bytes.withoutMarks text)).mapError .tree := by
  have hlines : lines (String.ofList (unifyLineEnds (Bytes.withoutMarks text).toList)).toList =
      lines (Bytes.withoutMarks text).toList := by
    rw [String.toList_ofList, lines_unifyLineEnds]
  rw [load_of_ruleText hutf8.isName (Bytes.ruleText_encode hutf8.isName hutf8.encoding text),
    adopt_congr_of_lines_eq hlines]

/-- **A file and its text end alike.** A classifier that loads a file in UTF-8 is left with what the
text of the file, without the byte order marks in front, gives it: the same tree, or the same fault
in the same line. -/
theorem loadFile_eq_adopt_of_utf8 (hutf8 : classifier.ReadsUtf8) {desk : Desk} {path : String}
    {text : String} (hfile : desk.HoldsFile (Path.tidy path) (Bytes.Utf8.encode text.toList)) :
    (classifier.loadFile path : StateM Desk _).run desk =
      ((classifier.adopt (Bytes.withoutMarks text)).mapError .tree, desk) := by
  have hrun : (classifier.loadFile path : StateM Desk _).run desk =
      (classifier.load ((desk.folder.read (desk.inside (Path.tidy path))).mapError
        fun fault => { fault with path := Path.tidy path }), desk) := rfl
  rw [hrun, hfile, ← load_encode hutf8]
  rfl

/-- Marks in front, a lone carriage return before a pair of line ends, and a line separator that
ends no line. -/
theorem loadFile_eq_adopt_of_mixed_line_ends :
    ∃ (classifier : Classifier) (desk : Desk) (text : String), classifier.ReadsUtf8 ∧
      desk.HoldsFile (Path.tidy "rules") (Bytes.Utf8.encode text.toList) ∧
      Bytes.withoutMarks text = "A|true\r\r\n|B|category == \"\u2028\"\r" ∧
      (classifier.adopt (Bytes.withoutMarks text)).map (fun later => later.nodes.map (·.line)) =
        .ok [0, 1, 3] ∧
      (classifier.loadFile "rules" : StateM Desk _).run desk =
        ((classifier.adopt (Bytes.withoutMarks text)).mapError .tree, desk) := by
  have hutf8 : Classifier.ReadsUtf8 { format := { ignoreBlankLines := true } } :=
    ⟨by decide +kernel, by decide +kernel⟩
  have hfile : Desk.HoldsFile
      { folder := Folder.empty.put "rules" (Bytes.Utf8.encode
        "\uFEFF\uFEFFA|true\r\r\n|B|category == \"\u2028\"\r".toList) } (Path.tidy "rules")
      (Bytes.Utf8.encode "\uFEFF\uFEFFA|true\r\r\n|B|category == \"\u2028\"\r".toList) := by
    unfold Desk.HoldsFile
    decide +kernel
  exact ⟨_, _, _, hutf8, hfile, by decide +kernel, by decide +kernel,
    loadFile_eq_adopt_of_utf8 hutf8 hfile⟩

end Classifier

end Archetype
