import Archetype.Outline.Reading
import Archetype.Proofs.Outcome

/-!
# How an outline grows

Reading an outline adds one node for every rule line. `Draft.Reads` is a run of the reader with the
lines it passes over left out. What is true of all outlines is proved along such a run.
-/

namespace Archetype.Outline

open Archetype.Text

/-- The characters that are depth marks; without them no rule line can be read. -/
def Format.marks (format : Format) : List Char :=
  (format.depthMarks.getD "").toList

/-- How many depth marks a line starts with. -/
def Format.depthOf (format : Format) (line : List Char) : Nat :=
  Outline.depthOf format.marks line

/-- A line that states a rule: every line, or every line that is not blank. -/
def Format.isRuleLine (format : Format) (line : List Char) : Bool :=
  !(format.ignoreBlankLines && isBlankText line)

/-- The rule lines of a text with their numbers, in the order of the text. -/
def ruleLines (format : Format) (text : String) : List (List Char × Nat) :=
  ((lines text.toList).zipIdx 1).filter fun entry => format.isRuleLine entry.1

/-- A node stands for a line: it has the line's number, is one level deeper than the line has depth
marks, and bears what stands before and after the first separator. -/
structure Node.StandsFor (format : Format) (line : List Char) (number : Nat) (node : Node) :
    Prop where
  number : node.line = number
  level : node.level = format.depthOf line + 1
  words : ∃ before after length,
    format.separator.cut (line.drop (format.depthOf line)) = .ok (before, after, length) ∧
      node.name = String.ofList (trim before) ∧ node.expression = String.ofList (trim after)

/-- A run of the reader over rule lines, and the draft that it ends with. -/
inductive Draft.Reads (format : Format) : List (List Char × Nat) → Draft → Prop
  | start : Reads format [] (.start format)
  | add {seen : List (List Char × Nat)} {draft : Draft} {line : List Char} {rule : Line}
      (hseen : Reads format seen draft) (number : Nat)
      (hline : Line.read format draft.limit line = .ok rule) :
      Reads format (seen ++ [(line, number)]) (draft.add number rule)

theorem depthOf_of_read {format : Format} {limit : Nat} {line : List Char} {rule : Line}
    (hread : Line.read format limit line = .ok rule) :
    rule.depth = format.depthOf line ∧ rule.depth ≤ limit ∧ ∃ before after length,
      format.separator.cut (line.drop rule.depth) = .ok (before, after, length) ∧
        rule.name = trim before ∧ rule.condition = trim after ∧
        rule.start = rule.depth + before.length + length +
          (after.length - (trimStart after).length) := by
  unfold Line.read at hread
  cases hmarks : format.depthMarks with
  | none =>
      rw [hmarks] at hread
      cases hread
  | some marks =>
      rw [hmarks] at hread
      have hdepth : format.depthOf line = Outline.depthOf marks.toList line := by
        rw [Format.depthOf, Format.marks, hmarks]
        rfl
      dsimp only at hread
      split at hread
      · cases hread
      · next hlimit =>
        obtain ⟨⟨before, after, length⟩, hcut, hrule⟩ := exists_of_bind_eq_ok hread
        dsimp only at hrule
        split at hrule
        · cases hrule
        · cases hrule
          exact ⟨hdepth.symm, Nat.le_of_not_lt hlimit, before, after, length, hcut, rfl, rfl, rfl⟩

theorem read_of_readLine {format : Format} {limit number : Nat} {line : List Char} {rule : Line}
    (hread : readLine format limit number line = .ok rule) :
    Line.read format limit line = .ok rule := by
  unfold readLine at hread
  cases hline : Line.read format limit line with
  | error fault =>
      rw [hline] at hread
      cases hread
  | ok found =>
      rw [hline] at hread
      cases hread
      rfl

theorem Draft.format_of_reads {format : Format} {seen : List (List Char × Nat)} {draft : Draft}
    (hreads : Draft.Reads format seen draft) : draft.outline.format = format := by
  induction hreads with
  | start => rfl
  | add _ _ _ ih => exact ih

/-- A line that is read adds its rule, or is passed over. -/
theorem Draft.reads_of_read {format : Format} {seen : List (List Char × Nat)}
    {draft later : Draft} {entry : List Char × Nat} (hreads : Draft.Reads format seen draft)
    (hread : draft.read entry = .ok later) :
    Draft.Reads format (seen ++ [entry].filter fun entry => format.isRuleLine entry.1) later := by
  unfold Draft.read at hread
  rw [Draft.format_of_reads hreads] at hread
  by_cases hblank : (format.ignoreBlankLines && isBlankText entry.1) = true
  · rw [if_pos hblank] at hread
    cases hread
    have hskip : format.isRuleLine entry.1 = false := by rw [Format.isRuleLine, hblank]; rfl
    rw [List.filter_cons_of_neg (by simp [hskip]), List.filter_nil, List.append_nil]
    exact hreads
  · rw [if_neg hblank] at hread
    have hkeep : format.isRuleLine entry.1 = true := by
      rw [Format.isRuleLine, Bool.eq_false_iff.mpr hblank]
      rfl
    obtain ⟨rule, hrule, rfl⟩ := exists_of_map_eq_ok hread
    rw [List.filter_cons_of_pos (by simp [hkeep]), List.filter_nil]
    exact hreads.add entry.2 (read_of_readLine hrule)

/-- **The reader adds the rules of its lines one after the other.** -/
theorem Draft.reads_of_foldlM {format : Format} {numbered : List (List Char × Nat)} :
    ∀ {seen : List (List Char × Nat)} {draft last : Draft}, Draft.Reads format seen draft →
      numbered.foldlM Draft.read draft = .ok last →
        Draft.Reads format (seen ++ numbered.filter fun entry => format.isRuleLine entry.1)
          last := by
  induction numbered with
  | nil =>
      intro seen draft last hreads hlast
      cases hlast
      rw [List.filter_nil, List.append_nil]
      exact hreads
  | cons entry rest ih =>
      intro seen draft last hreads hlast
      rw [List.foldlM_cons] at hlast
      obtain ⟨later, hlater, hrest⟩ := exists_of_bind_eq_ok hlast
      have hall := ih (Draft.reads_of_read hreads hlater) hrest
      rw [List.append_assoc, ← List.filter_append] at hall
      exact hall

/-- **An outline that is read is that of a run over the rule lines of its text.** -/
theorem reads_of_read {format : Format} {text : String} {outline : Outline}
    (hread : Outline.read format text = .ok outline) :
    ∃ draft, Draft.Reads format (ruleLines format text) draft ∧ draft.outline = outline := by
  obtain ⟨draft, hdraft, houtline⟩ := exists_of_map_eq_ok hread
  exact ⟨draft, Draft.reads_of_foldlM .start hdraft, houtline⟩

end Archetype.Outline
