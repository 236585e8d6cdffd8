import Archetype.Proofs.Outline.Shape
import Archetype.Proofs.Text.BlankLines

/-!
# Blank lines in outlines

When blank lines are ignored, they make no difference but to the numbers of the lines behind them.
Two runs of the reader over the same rule lines with different numbers keep drafts that agree in all
but the numbers, so they end with the same nodes or stop at the same line.
-/

namespace Archetype.Outline

open Archetype.Text

def Node.unnumbered (node : Node) : Node :=
  { node with line := 0 }

/-- The outline without the line numbers of its nodes. -/
def unnumbered (outline : Outline) : Outline :=
  { outline with nodes := outline.nodes.map Node.unnumbered }

/-- The nodes of an outline are the root and one node for each rule line of a text, with the number
that the line has in that text. -/
def IsNumberedBy (outline : Outline) (format : Format) (text : String) : Prop :=
  ∃ nodes, outline.nodes = .root format.rootName :: nodes ∧
    List.Forall₂ (fun entry node => node.StandsFor format entry.1 entry.2) (ruleLines format text)
      nodes

/-- Two texts are read alike but for line numbers: as outlines that agree in all else, or with the
same defect of the same rule line. All numbers are those of the lines in the own text. -/
inductive AreReadAlike (format : Format) (text other : String) :
    Except ReadFault Outline → Except ReadFault Outline → Prop
  | outline {first second : Outline} (hsame : first.unnumbered = second.unnumbered)
      (hfirst : first.IsNumberedBy format text) (hsecond : second.IsNumberedBy format other) :
      AreReadAlike format text other (.ok first) (.ok second)
  | line {place number another : Nat} {line : List Char} (defect : Defect)
      (hfirst : (ruleLines format text)[place]? = some (line, number))
      (hsecond : (ruleLines format other)[place]? = some (line, another)) :
      AreReadAlike format text other (.error (.line ⟨defect, number, String.ofList line⟩))
        (.error (.line ⟨defect, another, String.ofList line⟩))
  | format (fault : FormatFault) :
      AreReadAlike format text other (.error (.format fault)) (.error (.format fault))

/-! ### Drafts without line numbers -/

def Levels.unnumbered (levels : Levels) : Levels :=
  ⟨levels.above.unnumbered, levels.outer.map Node.unnumbered⟩

def Draft.unnumbered (draft : Draft) : Draft where
  outline := draft.outline.unnumbered
  levels := draft.levels.unnumbered
  last := draft.last.unnumbered
  limit := draft.limit

theorem Levels.unnumbered_pop (levels : Levels) :
    levels.pop.unnumbered = levels.unnumbered.pop := by
  obtain ⟨above, outer⟩ := levels
  cases outer <;> rfl

theorem Levels.unnumbered_leave (count : Nat) (levels : Levels) :
    (levels.leave count).unnumbered = levels.unnumbered.leave count := by
  induction count generalizing levels with
  | zero => rfl
  | succ count ih => rw [leave, leave, ih, unnumbered_pop]

theorem Draft.unnumbered_levelsFor (draft : Draft) (depth : Nat) :
    (draft.levelsFor depth).unnumbered = draft.unnumbered.levelsFor depth := by
  rw [levelsFor, Levels.unnumbered_leave, apply_ite Levels.unnumbered]
  rfl

theorem unnumbered_addChild (outline : Outline) (above node : Node) :
    (outline.addChild above node).unnumbered =
      outline.unnumbered.addChild above.unnumbered node.unnumbered := by
  unfold addChild unnumbered
  rw [List.map_append]
  rfl

/-- The number of a line goes nowhere but into the node of its rule. -/
theorem Draft.unnumbered_add (draft : Draft) (number : Nat) (rule : Line) :
    (draft.add number rule).unnumbered = draft.unnumbered.add 0 rule := by
  have hlength : draft.unnumbered.outline.nodes.length = draft.outline.nodes.length :=
    List.length_map _
  rw [add, add, ← unnumbered_levelsFor, hlength, unnumbered]
  dsimp only
  rw [unnumbered_addChild]
  rfl

/-! ### Two runs of the reader -/

/-- Lines that are passed over can be left out before. -/
theorem foldlM_filter_isRuleLine {format : Format} (numbered : List (List Char × Nat)) :
    ∀ {seen : List (List Char × Nat)} {draft : Draft}, Draft.Reads format seen draft →
      (numbered.filter fun entry => format.isRuleLine entry.1).foldlM Draft.read draft =
        numbered.foldlM Draft.read draft := by
  induction numbered with
  | nil => exact fun _ => rfl
  | cons entry rest ih =>
      intro seen draft hreads
      have hnext : (draft.read entry >>= fun later =>
          (rest.filter fun entry => format.isRuleLine entry.1).foldlM Draft.read later) =
          (draft.read entry >>= fun later => rest.foldlM Draft.read later) :=
        bind_congr_of_ok fun later hlater => ih (Draft.reads_of_read hreads hlater)
      rw [List.foldlM_cons, ← hnext]
      cases hkeep : format.isRuleLine entry.1 with
      | true => rw [List.filter_cons_of_pos (by simp [hkeep]), List.foldlM_cons]
      | false =>
          have hblank : (format.ignoreBlankLines && isBlankText entry.1) = true := by
            simpa [Format.isRuleLine] using hkeep
          rw [List.filter_cons_of_neg (by simp [hkeep]), Draft.read,
            Draft.format_of_reads hreads, if_pos hblank]
          rfl

/-- Two runs end with drafts that agree in all but line numbers, or stop at the same place with the
same defect, each with the number that its line has. -/
inductive Draft.EndAlike (entries others : List (List Char × Nat)) :
    Except ReadFault Draft → Except ReadFault Draft → Prop
  | draft {first second : Draft} (hsame : first.unnumbered = second.unnumbered) :
      EndAlike entries others (.ok first) (.ok second)
  | line {place number another : Nat} {line : List Char} (defect : Defect)
      (hfirst : entries[place]? = some (line, number))
      (hsecond : others[place]? = some (line, another)) :
      EndAlike entries others (.error (.line ⟨defect, number, String.ofList line⟩))
        (.error (.line ⟨defect, another, String.ofList line⟩))
  | format (fault : FormatFault) :
      EndAlike entries others (.error (.format fault)) (.error (.format fault))

theorem Draft.EndAlike.cons {entries others : List (List Char × Nat)}
    {first second : Except ReadFault Draft} (halike : Draft.EndAlike entries others first second)
    (entry other : List Char × Nat) :
    Draft.EndAlike (entry :: entries) (other :: others) first second := by
  cases halike with
  | draft hsame => exact .draft hsame
  | @line place number another line defect hfirst hsecond =>
      have hplace : (entry :: entries)[place + 1]? = some (line, number) := hfirst
      exact .line defect hplace hsecond
  | format fault => exact .format fault

/-- One line is read alike, whatever its number. -/
theorem Draft.endAlike_read {draft another : Draft} (hsame : draft.unnumbered = another.unnumbered)
    (line : List Char) (number other : Nat) (entries others : List (List Char × Nat)) :
    Draft.EndAlike ((line, number) :: entries) ((line, other) :: others)
      (draft.read (line, number)) (another.read (line, other)) := by
  have hformat : draft.outline.format = another.outline.format :=
    congrArg (fun draft => draft.outline.format) hsame
  have hlimit : draft.limit = another.limit := congrArg (fun draft => draft.limit) hsame
  rw [Draft.read, Draft.read, hformat, hlimit]
  split
  · exact .draft hsame
  · unfold readLine
    cases Line.read another.outline.format another.limit line with
    | ok rule =>
        refine .draft ?_
        rw [Draft.unnumbered_add, Draft.unnumbered_add, hsame]
    | error fault =>
        cases fault with
        | defect defect =>
            have hplace : ((line, number) :: entries)[0]? = some (line, number) := rfl
            exact .line defect hplace rfl
        | format fault => exact .format fault

/-- **Runs over the same lines with other numbers end alike.** -/
theorem Draft.endAlike_foldlM {entries others : List (List Char × Nat)}
    (hlines : List.Forall₂ (fun entry other => entry.1 = other.1) entries others) :
    ∀ {draft another : Draft}, draft.unnumbered = another.unnumbered →
      Draft.EndAlike entries others (entries.foldlM Draft.read draft)
        (others.foldlM Draft.read another) := by
  induction hlines with
  | nil => exact fun hsame => .draft hsame
  | @cons entry other entries others hline _ ih =>
      intro draft another hsame
      obtain ⟨line, number⟩ := entry
      obtain ⟨_, numbered⟩ := other
      obtain rfl : line = _ := hline
      rw [List.foldlM_cons, List.foldlM_cons]
      have hstep := Draft.endAlike_read hsame line number numbered entries others
      revert hstep
      generalize draft.read (line, number) = first
      generalize another.read (line, numbered) = second
      intro hstep
      cases hstep with
      | draft hlater => exact (ih hlater).cons _ _
      | line defect hfirst hsecond => exact .line defect hfirst hsecond
      | format fault => exact .format fault

/-! ### Texts -/

theorem AreReadAlike.of_endAlike {format : Format} {text other : String}
    {first second : Except ReadFault Draft}
    (halike : Draft.EndAlike (ruleLines format text) (ruleLines format other) first second)
    (hfirst : read format text = first.map (·.outline))
    (hsecond : read format other = second.map (·.outline)) :
    AreReadAlike format text other (read format text) (read format other) := by
  cases halike with
  | draft hsame =>
      have hnumbers := standsFor_of_read hfirst
      have hothers := standsFor_of_read hsecond
      rw [hfirst, hsecond]
      exact .outline (congrArg (fun draft => draft.outline) hsame) hnumbers hothers
  | line defect hplace hother =>
      rw [hfirst, hsecond]
      exact .line defect hplace hother
  | format fault =>
      rw [hfirst, hsecond]
      exact .format fault

section Texts

variable {format : Format} (hignores : format.ignoreBlankLines = true)
include hignores

theorem map_fst_ruleLines (text : String) :
    (ruleLines format text).map (·.1) = filledLines text.toList := by
  have hrule : format.isRuleLine = fun line => !isBlankText line := by
    funext line
    rw [Format.isRuleLine, hignores, Bool.true_and]
  rw [ruleLines, hrule, filledLines]
  have hfilter := List.filter_map (f := Prod.fst) (p := fun line => !isBlankText line)
    (l := (lines text.toList).zipIdx 1)
  rw [List.zipIdx_map_fst] at hfilter
  exact hfilter.symm

/-- **Blank lines that are ignored make no difference but to line numbers.** Taking out all of them
and putting in others anywhere leaves the nodes as they are, or the defect and its line; and all
numbers are those of the lines in the text that is read. -/
theorem areReadAlike_of_respaced {text other : String}
    (hrespaced : Respaced text.toList other.toList) :
    AreReadAlike format text other (read format text) (read format other) := by
  have hlines : List.Forall₂ (fun entry other => entry.1 = other.1) (ruleLines format text)
      (ruleLines format other) := by
    have hsame : (ruleLines format text).map (·.1) = (ruleLines format other).map (·.1) := by
      rw [map_fst_ruleLines hignores, map_fst_ruleLines hignores, hrespaced.filledLines_eq]
    rw [← List.forall₂_eq_eq_eq, List.forall₂_map_left_iff, List.forall₂_map_right_iff] at hsame
    exact hsame
  have hrun (text : String) : ((lines text.toList).zipIdx 1).foldlM Draft.read (.start format) =
      (ruleLines format text).foldlM Draft.read (.start format) :=
    (foldlM_filter_isRuleLine _ .start).symm
  have halike := Draft.endAlike_foldlM hlines (rfl : (Draft.start format).unnumbered = _)
  rw [← hrun, ← hrun] at halike
  exact .of_endAlike halike rfl rfl

end Texts

/-- A blank line between two rules is taken out, and others are put before and behind them. -/
theorem areReadAlike_of_blank_lines_moved :
    AreReadAlike { ignoreBlankLines := true } "Red|true\n \r\n|Pale|true\n"
      "\t\nRed|true\n|Pale|true\n\r "
      (read { ignoreBlankLines := true } "Red|true\n \r\n|Pale|true\n")
      (read { ignoreBlankLines := true } "\t\nRed|true\n|Pale|true\n\r ") := by
  have hbefore : AddsBlankLines (withoutBlankLines "Red|true\n \r\n|Pale|true\n".toList)
      "\t\nRed|true\n|Pale|true\n".toList :=
    .inserted (.inl rfl) (by decide : isBlankText ['\t'] = true) (by decide : ['\n'] ∈ lineEnds)
  have hbehind : AddsBlankLines "\t\nRed|true\n|Pale|true\n".toList
      "\t\nRed|true\n|Pale|true\n\r ".toList :=
    .appended (by decide : isBlankText [' '] = true) (by decide : ['\r'] ∈ lineEnds)
  exact areReadAlike_of_respaced rfl ((Respaced.without.adds hbefore).adds hbehind)

end Archetype.Outline
