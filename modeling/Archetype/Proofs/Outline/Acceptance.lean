import Mathlib.Data.List.Chain
import Archetype.Proofs.Outline.Growth
import Archetype.Proofs.Text.Search

/-!
# Which texts are outlines

Whether a text is an outline is settled by its rule lines: the first has no depth marks, each has at
most one more than the line before it, and each has the separator behind its marks with something
before and after it. The reader keeps a single number for that, the depth that the next line may
have, and after every line that it accepts this is one more than the depth of that line, however
many levels were closed on the way. So the line that it stops at is the first one that is wrong, and
the defect that it names is the first that the line has.
-/

namespace Archetype.Outline

open Archetype.Text

/-- The separator stands between two parts of a text. -/
def Separator.Divides (separator : Separator) (text before after : List Char) : Prop :=
  ∃ value chars, separator = .text value ∧ value.chars? = some chars ∧
    text = before ++ (chars ++ after)

/-- The separator stands between two parts of a text for the first time. -/
structure Separator.DividesFirst (separator : Separator) (text before after : List Char) :
    Prop where
  divides : separator.Divides text before after
  first : ∀ other later, separator.Divides text other later → before.length ≤ other.length

/-- Behind its depth marks a line has the separator between two parts that are not blank. -/
def Format.StatesRule (format : Format) (line : List Char) : Prop :=
  ∃ before after,
    format.separator.DividesFirst (line.drop (format.depthOf line)) before after ∧
      isBlankText before = false ∧ isBlankText after = false

/-- What is wrong with a line that may be `limit` deep: what stands first here counts. -/
inductive Format.HasDefect (format : Format) (limit : Nat) (line : List Char) : Defect → Prop
  | skippedLevel (hdepth : limit < format.depthOf line) :
      format.HasDefect limit line (.skippedLevel (format.depthOf line) limit)
  | missingSeparator (hdepth : format.depthOf line ≤ limit)
      (hmissing : ∀ before after,
        ¬ format.separator.Divides (line.drop (format.depthOf line)) before after) :
      format.HasDefect limit line .missingSeparator
  | emptyPart {before after : List Char} (hdepth : format.depthOf line ≤ limit)
      (hfirst : format.separator.DividesFirst (line.drop (format.depthOf line)) before after)
      (hblank : isBlankText before = true ∨ isBlankText after = true) :
      format.HasDefect limit line .emptyPart

/-- How deep a line may be behind others: one deeper than the last of them, and not deep at all if
there is none. -/
def Format.limitAfter (format : Format) (entries : List (List Char × Nat)) : Nat :=
  entries.getLast?.elim 0 fun entry => format.depthOf entry.1 + 1

/-- Lines make an outline: the first one is not deep, each other one is at most one deeper than the
line before it, and all of them state rules. -/
structure Format.WellFormed (format : Format) (entries : List (List Char × Nat)) : Prop where
  first : ∀ entry, entries.head? = some entry → format.depthOf entry.1 = 0
  nested : entries.IsChain fun entry next => format.depthOf next.1 ≤ format.depthOf entry.1 + 1
  rules : ∀ entry ∈ entries, format.StatesRule entry.1

/-- The first rule line of a text that is wrong, and what is wrong with it. -/
inductive IsFirstFault (format : Format) (text : String) : Fault → Prop
  | intro {before after : List (List Char × Nat)} {line : List Char} {number : Nat}
      {defect : Defect} (hlines : ruleLines format text = before ++ (line, number) :: after)
      (hbefore : format.WellFormed before)
      (hdefect : format.HasDefect (format.limitAfter before) line defect) :
      IsFirstFault format text ⟨defect, number, String.ofList line⟩

/-! ### One line -/

theorem isEmpty_trim (text : List Char) : (trim text).isEmpty = isBlankText text := by
  rw [Bool.eq_iff_iff, List.isEmpty_iff, trim, trimEnd, List.reverse_eq_nil_iff,
    List.dropWhile_eq_nil_iff, isBlankText, List.all_eq_true]
  simp only [List.mem_reverse]
  constructor
  · intro hrest c hc
    rw [← List.takeWhile_append_dropWhile (p := isBlank) (l := text), List.mem_append] at hc
    rcases hc with hfront | hback
    · exact List.mem_takeWhile_imp hfront
    · exact hrest c hback
  · intro hall c hc
    exact hall c ((List.dropWhile_sublist isBlank).subset hc)

theorem Separator.Divides.length_eq {separator : Separator}
    {text before after other later : List Char} (hdivides : separator.Divides text before after)
    (hother : separator.Divides text other later) (hlength : before.length = other.length) :
    before = other ∧ after = later := by
  obtain ⟨value, chars, rfl, hchars, rfl⟩ := hdivides
  obtain ⟨_, others, ⟨⟩, hothers, hsame⟩ := hother
  rw [hchars] at hothers
  cases hothers
  obtain ⟨hbefore, hrest⟩ := List.append_inj hsame hlength
  exact ⟨hbefore, List.append_cancel_left hrest⟩

theorem Separator.DividesFirst.unique {separator : Separator}
    {text before after other later : List Char} (hfirst : separator.DividesFirst text before after)
    (hother : separator.DividesFirst text other later) : before = other ∧ after = later :=
  hfirst.divides.length_eq hother.divides
    (Nat.le_antisymm (hfirst.first other later hother.divides)
      (hother.first before after hfirst.divides))

theorem Format.HasDefect.unique {format : Format} {limit : Nat} {line : List Char}
    {defect other : Defect} (hdefect : format.HasDefect limit line defect)
    (hother : format.HasDefect limit line other) : defect = other := by
  cases hdefect with
  | skippedLevel hdepth =>
      cases hother with
      | skippedLevel => rfl
      | missingSeparator hless => exact absurd hdepth (Nat.not_lt.mpr hless)
      | emptyPart hless => exact absurd hdepth (Nat.not_lt.mpr hless)
  | missingSeparator hdepth hmissing =>
      cases hother with
      | skippedLevel hmore => exact absurd hmore (Nat.not_lt.mpr hdepth)
      | missingSeparator => rfl
      | emptyPart _ hfirst => exact absurd hfirst.divides (hmissing _ _)
  | emptyPart hdepth hfirst =>
      cases hother with
      | skippedLevel hmore => exact absurd hmore (Nat.not_lt.mpr hdepth)
      | missingSeparator _ hmissing => exact absurd hfirst.divides (hmissing _ _)
      | emptyPart => rfl

/-- A line with a defect is too deep or states no rule. -/
theorem Format.HasDefect.not_statesRule {format : Format} {limit : Nat} {line : List Char}
    {defect : Defect} (hdefect : format.HasDefect limit line defect)
    (hdepth : format.depthOf line ≤ limit) : ¬ format.StatesRule line := by
  rintro ⟨before, after, hfirst, hbefore, hafter⟩
  cases hdefect with
  | skippedLevel hmore => exact absurd hmore (Nat.not_lt.mpr hdepth)
  | missingSeparator _ hmissing => exact hmissing before after hfirst.divides
  | emptyPart _ hother hblank =>
      obtain ⟨rfl, rfl⟩ := hother.unique hfirst
      rw [hbefore, hafter] at hblank
      rcases hblank with hblank | hblank <;> cases hblank

section Reading

variable {format : Format} {marks : String} {value : Text}
  (hmarks : format.depthMarks = some marks) (hseparator : format.separator = .text value)
  (hvalue : value.isEmpty = false)

include hseparator hvalue in
/-- A text is cut at the first separator, and has the defect that there is none otherwise. -/
theorem Format.cut_cases (text : List Char) :
    (∃ before after length, format.separator.cut text = .ok (before, after, length) ∧
      format.separator.DividesFirst text before after) ∨
    (format.separator.cut text = .error (.defect .missingSeparator) ∧
      ∀ before after, ¬ format.separator.Divides text before after) := by
  rw [hseparator, Separator.cut, hvalue, if_neg Bool.false_ne_true]
  cases hparts : value.chars?.bind fun value => cut? value text with
  | none =>
      refine .inr ⟨rfl, ?_⟩
      rintro before after ⟨_, chars, ⟨⟩, hchars, htext⟩
      obtain ⟨first, later, hcut, -⟩ := exists_cut?_of_eq_append htext
      rw [hchars, Option.bind_some, hcut] at hparts
      cases hparts
  | some parts =>
      obtain ⟨chars, hchars, hcut⟩ := Option.bind_eq_some_iff.mp hparts
      have hdivides : (Separator.text value).Divides text parts.1 parts.2 :=
        ⟨value, chars, rfl, hchars, eq_append_of_cut? hcut⟩
      refine .inl ⟨parts.1, parts.2, _, rfl, hdivides, ?_⟩
      rintro other later ⟨_, others, ⟨⟩, hothers, htext⟩
      rw [hchars] at hothers
      cases hothers
      obtain ⟨first, rest, hfound, hfirst⟩ := exists_cut?_of_eq_append htext
      rw [hcut] at hfound
      cases hfound
      exact hfirst

include hmarks hseparator hvalue in
/-- **A line is read, or has the defect that the reader names.** -/
theorem Line.read_cases (limit : Nat) (line : List Char) :
    (format.depthOf line ≤ limit ∧ format.StatesRule line ∧
      ∃ rule, Line.read format limit line = .ok rule) ∨
    ∃ defect, format.HasDefect limit line defect ∧
      Line.read format limit line = .error (.defect defect) := by
  have hdepth : Outline.depthOf marks.toList line = format.depthOf line := by
    rw [Format.depthOf, Format.marks, hmarks]
    rfl
  unfold Line.read
  rw [hmarks]
  dsimp only
  rw [hdepth]
  by_cases hlimit : limit < format.depthOf line
  · rw [if_pos hlimit]
    exact .inr ⟨_, .skippedLevel hlimit, rfl⟩
  · rw [if_neg hlimit]
    have hless : format.depthOf line ≤ limit := Nat.le_of_not_lt hlimit
    rcases Format.cut_cases hseparator hvalue (line.drop (format.depthOf line)) with
      ⟨before, after, length, hcut, hfirst⟩ | ⟨hcut, hmissing⟩
    · rw [hcut, ok_bind]
      dsimp only
      rw [isEmpty_trim, isEmpty_trim]
      cases hblank : isBlankText before || isBlankText after with
      | false =>
          obtain ⟨hbefore, hafter⟩ := Bool.or_eq_false_iff.mp hblank
          exact .inl ⟨hless, ⟨before, after, hfirst, hbefore, hafter⟩, _, rfl⟩
      | true => exact .inr ⟨_, .emptyPart hless hfirst (Bool.or_eq_true _ _ ▸ hblank), rfl⟩
    · rw [hcut]
      exact .inr ⟨_, .missingSeparator hless hmissing, rfl⟩

end Reading

/-! ### Lines in a row -/

theorem Format.WellFormed.nil (format : Format) : format.WellFormed [] where
  first := nofun
  nested := .nil
  rules := nofun

theorem Format.WellFormed.of_append {format : Format} {before after : List (List Char × Nat)}
    (hall : format.WellFormed (before ++ after)) : format.WellFormed before where
  first entry hentry := hall.first entry (by rw [List.head?_append, hentry]; rfl)
  nested := hall.nested.left_of_append
  rules entry hentry := hall.rules entry (List.mem_append_left after hentry)

/-- One more line belongs to an outline if it is not too deep and states a rule. -/
theorem Format.wellFormed_concat {format : Format} {before : List (List Char × Nat)}
    {entry : List Char × Nat} :
    format.WellFormed (before ++ [entry]) ↔ format.WellFormed before ∧
      format.depthOf entry.1 ≤ format.limitAfter before ∧ format.StatesRule entry.1 := by
  constructor
  · intro hall
    refine ⟨hall.of_append, ?_, hall.rules entry (List.mem_append_right before List.mem_cons_self)⟩
    cases hlast : before.getLast? with
    | none =>
        obtain rfl := List.getLast?_eq_none_iff.mp hlast
        exact Nat.le_of_eq (hall.first entry rfl)
    | some last =>
        rw [Format.limitAfter, hlast]
        exact (List.isChain_append.mp hall.nested).2.2 last hlast entry rfl
  · rintro ⟨hbefore, hdepth, hrule⟩
    refine ⟨?_, ?_, ?_⟩
    · intro head hhead
      cases before with
      | nil =>
          cases hhead
          exact Nat.le_zero.mp hdepth
      | cons first rest => exact hbefore.first head hhead
    · refine List.isChain_append.mpr ⟨hbefore.nested, .singleton entry, ?_⟩
      intro last hlast next hnext
      cases hnext
      rwa [Format.limitAfter, hlast] at hdepth
    · intro other hother
      rcases List.mem_append.mp hother with hother | hother
      · exact hbefore.rules other hother
      · rwa [List.mem_singleton.mp hother]

/-- The number that the reader keeps is what the last line allows. -/
theorem Draft.limit_of_reads {format : Format} {seen : List (List Char × Nat)} {draft : Draft}
    (hreads : Draft.Reads format seen draft) : draft.limit = format.limitAfter seen := by
  cases hreads with
  | start => rfl
  | add _ number hline =>
      rw [Format.limitAfter, List.getLast?_concat]
      exact congrArg (· + 1) (depthOf_of_read hline).1

/-- A line that is wrong behind lines that are not makes no outline, whatever follows. -/
theorem Format.HasDefect.not_wellFormed {format : Format}
    {before after : List (List Char × Nat)} {line : List Char} {number : Nat} {defect : Defect}
    (hdefect : format.HasDefect (format.limitAfter before) line defect) :
    ¬ format.WellFormed (before ++ (line, number) :: after) := by
  intro hall
  rw [List.append_cons] at hall
  obtain ⟨-, hdepth, hrule⟩ := Format.wellFormed_concat.mp hall.of_append
  exact hdefect.not_statesRule hdepth hrule

theorem IsFirstFault.not_wellFormed {format : Format} {text : String} {fault : Fault}
    (hfault : IsFirstFault format text fault) :
    ¬ format.WellFormed (ruleLines format text) := by
  obtain ⟨hlines, -, hdefect⟩ := hfault
  rw [hlines]
  exact hdefect.not_wellFormed

/-- A text has one first fault. -/
theorem IsFirstFault.unique {format : Format} {text : String} {fault other : Fault}
    (hfault : IsFirstFault format text fault) (hother : IsFirstFault format text other) :
    fault = other := by
  obtain ⟨hlines, hbefore, hdefect⟩ := hfault
  obtain ⟨hothers, hwell, hfound⟩ := hother
  rw [hlines] at hothers
  -- A fault that comes later would have the earlier one among the lines that are well formed.
  rcases List.append_eq_append_iff.mp hothers with ⟨between, rfl, hrest⟩ | ⟨between, rfl, hrest⟩
  · cases between with
    | nil =>
        cases hrest
        rw [List.append_nil] at hfound
        rw [hdefect.unique hfound]
    | cons entry rest =>
        cases hrest
        exact absurd hwell hdefect.not_wellFormed
  · cases between with
    | nil =>
        cases hrest
        rw [List.append_nil] at hdefect
        rw [hdefect.unique hfound]
    | cons entry rest =>
        cases hrest
        exact absurd hbefore hfound.not_wellFormed

/-! ### Texts -/

section Texts

variable {format : Format} {marks : String} {value : Text}
  (hmarks : format.depthMarks = some marks) (hseparator : format.separator = .text value)
  (hvalue : value.isEmpty = false)
include hmarks hseparator hvalue

/-- A draft is read on with a line that is passed over or states the next rule; otherwise the line
is the first that is wrong. -/
theorem Draft.read_cases {seen : List (List Char × Nat)} {draft : Draft}
    (hreads : Draft.Reads format seen draft) (hseen : format.WellFormed seen)
    (line : List Char) (number : Nat) :
    (∃ later, draft.read (line, number) = .ok later ∧ format.WellFormed
      (seen ++ [(line, number)].filter fun entry => format.isRuleLine entry.1)) ∨
    (format.isRuleLine line = true ∧ ∃ defect,
      format.HasDefect (format.limitAfter seen) line defect ∧
        draft.read (line, number) = .error (.line ⟨defect, number, String.ofList line⟩)) := by
  rw [Draft.read, Draft.format_of_reads hreads, Draft.limit_of_reads hreads]
  cases hblank : format.ignoreBlankLines && isBlankText line with
  | true =>
      have hskip : format.isRuleLine line = false := by rw [Format.isRuleLine, hblank]; rfl
      refine .inl ⟨draft, rfl, ?_⟩
      rwa [List.filter_cons_of_neg (by simp [hskip]), List.filter_nil, List.append_nil]
  | false =>
      have hkeep : format.isRuleLine line = true := by rw [Format.isRuleLine, hblank]; rfl
      rw [if_neg Bool.false_ne_true, readLine]
      rcases Line.read_cases hmarks hseparator hvalue (format.limitAfter seen) line with
        ⟨hdepth, hrule, rule, hread⟩ | ⟨defect, hdefect, hread⟩
      · rw [hread, List.filter_cons_of_pos (by simp [hkeep]), List.filter_nil]
        exact .inl ⟨_, rfl, Format.wellFormed_concat.mpr ⟨hseen, hdepth, hrule⟩⟩
      · rw [hread]
        exact .inr ⟨hkeep, defect, hdefect, rfl⟩

/-- All lines are read, or the reader stops at the first one that is wrong. -/
theorem Draft.foldlM_cases (numbered : List (List Char × Nat)) :
    ∀ {seen : List (List Char × Nat)} {draft : Draft}, Draft.Reads format seen draft →
      format.WellFormed seen →
        (∃ last, numbered.foldlM Draft.read draft = .ok last ∧ format.WellFormed
          (seen ++ numbered.filter fun entry => format.isRuleLine entry.1)) ∨
        ∃ before after line number defect,
          (seen ++ numbered.filter fun entry => format.isRuleLine entry.1) =
              before ++ (line, number) :: after ∧
            format.WellFormed before ∧
            format.HasDefect (format.limitAfter before) line defect ∧
            numbered.foldlM Draft.read draft =
              .error (.line ⟨defect, number, String.ofList line⟩) := by
  induction numbered with
  | nil =>
      intro seen draft hreads hseen
      exact .inl ⟨draft, rfl, by rwa [List.filter_nil, List.append_nil]⟩
  | cons entry rest ih =>
      intro seen draft hreads hseen
      obtain ⟨line, number⟩ := entry
      rw [List.foldlM_cons]
      rcases Draft.read_cases hmarks hseparator hvalue hreads hseen line number with
        ⟨later, hlater, hwell⟩ | ⟨hkeep, defect, hdefect, herror⟩
      · rw [hlater, ok_bind, ← List.singleton_append, List.filter_append, ← List.append_assoc]
        exact ih (Draft.reads_of_read hreads hlater) hwell
      · rw [herror, List.filter_cons_of_pos (by simp [hkeep])]
        exact .inr ⟨seen, _, line, number, defect, rfl, hseen, hdefect, rfl⟩

theorem read_cases (text : String) :
    (format.WellFormed (ruleLines format text) ∧ ∃ outline, read format text = .ok outline) ∨
    ∃ fault, IsFirstFault format text fault ∧ read format text = .error (.line fault) := by
  rw [read]
  rcases Draft.foldlM_cases hmarks hseparator hvalue ((lines text.toList).zipIdx 1) .start
    (.nil format) with
    ⟨last, hlast, hwell⟩ | ⟨before, after, line, number, defect, hlines, hbefore, hdefect, herror⟩
  · rw [hlast]
    exact .inl ⟨hwell, last.outline, rfl⟩
  · rw [herror]
    exact .inr ⟨_, ⟨hlines, hbefore, hdefect⟩, rfl⟩

/-- **A text is an outline exactly if its rule lines are well formed**, and otherwise the reader
names the first line that is not, with its number and its first defect. -/
theorem read_eq_ok_iff_wellFormed (text : String) :
    ((∃ outline, read format text = .ok outline) ↔ format.WellFormed (ruleLines format text)) ∧
    (¬ format.WellFormed (ruleLines format text) →
      ∃ fault, read format text = .error (.line fault)) ∧
    ∀ fault, read format text = .error (.line fault) ↔ IsFirstFault format text fault := by
  rcases read_cases hmarks hseparator hvalue text with
    ⟨hwell, outline, hread⟩ | ⟨fault, hfault, hread⟩
  · refine ⟨⟨fun _ => hwell, fun _ => ⟨outline, hread⟩⟩, fun hill => absurd hwell hill, ?_⟩
    intro other
    rw [hread]
    exact ⟨nofun, fun hother => absurd hwell hother.not_wellFormed⟩
  · refine ⟨⟨?_, fun hwell => absurd hwell hfault.not_wellFormed⟩, fun _ => ⟨fault, hread⟩, ?_⟩
    · rintro ⟨outline, houtline⟩
      rw [hread] at houtline
      cases houtline
    · intro other
      rw [hread]
      constructor
      · intro hsame
        cases hsame
        exact hfault
      · intro hother
        rw [hfault.unique hother]

end Texts

/-- Two lines are wrong, and both lines in more than one way. -/
theorem read_eq_ok_iff_wellFormed_skipped_level :
    IsFirstFault { separator := .text "::", ignoreBlankLines := true }
      "Red::true\n|Pale::true\n \nBlue::true\n||Dark:true\n::"
      ⟨.skippedLevel 2 1, 5, "||Dark:true"⟩ :=
  ((@read_eq_ok_iff_wellFormed { separator := .text "::", ignoreBlankLines := true } "|" "::" rfl
    rfl rfl _).2.2 _).mp (by decide +kernel)

end Archetype.Outline
