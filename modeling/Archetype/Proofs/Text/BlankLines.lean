import Mathlib.Data.List.Induction
import Archetype.Proofs.Text.Lines
import Archetype.Text.Blank

/-!
# Blank lines

Blank lines can be taken out of a text and put into it, and the other lines stay. What is taken out
is a line with its line end. What is put in may join a line end before it, since a line feed behind
a carriage return ends no further line, but only a blank line is lost that way.
-/

namespace Archetype.Text

/-- The lines of a text that are not blank. -/
def filledLines (text : List Char) : List (List Char) :=
  (lines text).filter fun line => !isBlankText line

/-- The lines of a text, each with its line end. -/
def pieces : List Char → List (List Char)
  | [] => []
  | '\r' :: '\n' :: rest => ['\r', '\n'] :: pieces rest
  | c :: rest =>
    if c = '\r' ∨ c = '\n' then
      [c] :: pieces rest
    else
      match pieces rest with
      | [] => [[c]]
      | piece :: others => (c :: piece) :: others

/-- A text without its blank lines. -/
def withoutBlankLines (text : List Char) : List Char :=
  ((pieces text).filter fun piece => !isBlankText piece).flatten

/-- The last character of a text ends a line. -/
def EndsLine (text : List Char) : Prop :=
  text.getLast? = some '\r' ∨ text.getLast? = some '\n'

/-- Blank lines are put into a text where a line starts, or behind all its lines. -/
inductive AddsBlankLines : List Char → List Char → Prop
  | inserted {before after blanks lineEnd : List Char} (hbefore : before = [] ∨ EndsLine before)
      (hblanks : isBlankText blanks = true) (hend : lineEnd ∈ lineEnds) :
      AddsBlankLines (before ++ after) (before ++ (blanks ++ lineEnd ++ after))
  | appended {text blanks lineEnd : List Char} (hblanks : isBlankText blanks = true)
      (hend : lineEnd ∈ lineEnds) : AddsBlankLines text (text ++ lineEnd ++ blanks)

/-- All blank lines are taken out of a text, or none, and others are put in. -/
inductive Respaced (text : List Char) : List Char → Prop
  | same : Respaced text text
  | without : Respaced text (withoutBlankLines text)
  | adds {other later : List Char} (hother : Respaced text other)
      (hadds : AddsBlankLines other later) : Respaced text later

/-! ### Lines that are not blank -/

theorem subset_of_mem_splitLines {line text : List Char} (hline : line ∈ splitLines text) :
    line ⊆ text := by
  fun_induction splitLines text generalizing line with
  | case1 => simpa using hline
  | case2 rest ih =>
      rcases List.mem_cons.mp hline with rfl | hline
      · exact List.nil_subset _
      · exact List.subset_cons_of_subset _ (List.subset_cons_of_subset _ (ih hline))
  | case3 c rest _ _ ih =>
      rcases List.mem_cons.mp hline with rfl | hline
      · exact List.nil_subset _
      · exact List.subset_cons_of_subset _ (ih hline)
  | case4 c rest _ _ hrest _ =>
      rw [List.mem_singleton.mp hline]
      simp
  | case5 c rest _ _ first others hrest ih =>
      rw [hrest] at ih
      rcases List.mem_cons.mp hline with rfl | hline
      · exact List.cons_subset_cons c (ih List.mem_cons_self)
      · exact List.subset_cons_of_subset _ (ih (List.mem_cons_of_mem _ hline))

theorem filledLines_eq_filter (text : List Char) :
    filledLines text = (splitLines text).filter fun line => !isBlankText line := by
  unfold filledLines lines
  dsimp only
  split
  · next hlast =>
    obtain ⟨front, hfront⟩ := List.getLast?_eq_some_iff.mp hlast
    rw [hfront, List.dropLast_concat, List.filter_append]
    simp [isBlankText]
  · rfl

@[simp] theorem filledLines_nil : filledLines [] = [] :=
  rfl

theorem filledLines_of_blank {text : List Char} (hblank : isBlankText text = true) :
    filledLines text = [] := by
  rw [filledLines_eq_filter, List.filter_eq_nil_iff]
  intro line hline
  have hall : isBlankText line = true := by
    rw [isBlankText, List.all_eq_true] at hblank ⊢
    exact fun c hc => hblank c (subset_of_mem_splitLines hline hc)
  simp [hall]

theorem filledLines_unifyLineEnds (text : List Char) :
    filledLines (unifyLineEnds text) = filledLines text := by
  unfold filledLines
  rw [lines_unifyLineEnds]

/-! ### Texts that end lines -/

theorem EndsLine.cons {text : List Char} (hend : EndsLine text) (c : Char) :
    EndsLine (c :: text) := by
  unfold EndsLine at *
  rw [List.getLast?_cons]
  rcases hend with hend | hend <;> simp [hend]

theorem endsLine_append {lineEnd : List Char} (hend : lineEnd ∈ lineEnds) (text : List Char) :
    EndsLine (text ++ lineEnd) := by
  simp only [lineEnds, List.mem_cons, List.not_mem_nil, or_false] at hend
  rcases hend with rfl | rfl | rfl <;> simp [EndsLine]

theorem getLast?_unifyLineEnds {text : List Char} (hend : EndsLine text) :
    (unifyLineEnds text).getLast? = some '\n' := by
  fun_induction unifyLineEnds text with
  | case1 => simp [EndsLine] at hend
  | case2 rest ih =>
      cases rest with
      | nil => rfl
      | cons d others =>
          have hrest : EndsLine (d :: others) := by simpa [EndsLine] using hend
          rw [List.getLast?_cons, ih hrest]
          rfl
  | case3 c rest _ ih =>
      cases rest with
      | nil =>
          have hc : c = '\r' ∨ c = '\n' := by simpa [EndsLine] using hend
          rcases hc with rfl | rfl <;> rfl
      | cons d others =>
          have hrest : EndsLine (d :: others) := by simpa [EndsLine] using hend
          rw [List.getLast?_cons, ih hrest]
          rfl

/-- When line ends are written alike, a line feed that starts a text is lost behind a carriage
return. -/
theorem exists_unifyLineEnds_append (before after : List Char) : ∃ later,
    unifyLineEnds (before ++ after) = unifyLineEnds before ++ later ∧
      (later = unifyLineEnds after ∨ unifyLineEnds after = '\n' :: later) := by
  fun_induction unifyLineEnds before with
  | case1 => exact ⟨unifyLineEnds after, rfl, .inl rfl⟩
  | case2 rest ih =>
      obtain ⟨later, hall, hlater⟩ := ih
      refine ⟨later, ?_, hlater⟩
      rw [List.cons_append, List.cons_append, unifyLineEnds, hall]
      rfl
  | case3 c rest hpair ih =>
      by_cases hjoins : c = '\r' ∧ rest = [] ∧ ∃ others, after = '\n' :: others
      · obtain ⟨rfl, rfl, others, rfl⟩ := hjoins
        exact ⟨unifyLineEnds others, rfl, .inr rfl⟩
      · obtain ⟨later, hall, hlater⟩ := ih
        refine ⟨later, ?_, hlater⟩
        rw [List.cons_append, unifyLineEnds, hall]
        · rfl
        · intro others hc hfeed
          cases rest with
          | nil => exact hjoins ⟨hc, rfl, others, hfeed⟩
          | cons d ds =>
              cases hfeed
              exact hpair ds hc rfl

/-- **What stands behind a line end has its own lines, but for blank ones.** -/
theorem filledLines_append {before : List Char} (hbefore : before = [] ∨ EndsLine before)
    (after : List Char) :
    filledLines (before ++ after) = filledLines before ++ filledLines after := by
  rcases hbefore with rfl | hbefore
  · rfl
  · obtain ⟨later, hall, hlater⟩ := exists_unifyLineEnds_append before after
    obtain ⟨front, hfront⟩ := List.getLast?_eq_some_iff.mp (getLast?_unifyLineEnds hbefore)
    obtain ⟨line, others, hsplit⟩ := exists_splitLines_feed front
    have hafter : filledLines later = filledLines after := by
      rw [← filledLines_unifyLineEnds after]
      rcases hlater with rfl | hlater
      · rfl
      · rw [hlater, filledLines_eq_filter, filledLines_eq_filter]
        exact (List.filter_cons_of_neg (by simp [isBlankText])).symm
    have hbehind (rest : List Char) : filledLines (unifyLineEnds before ++ rest) =
        (line :: others).filter (fun line => !isBlankText line) ++ filledLines rest := by
      rw [hfront, List.append_assoc, filledLines_eq_filter, filledLines_eq_filter,
        ← List.filter_append]
      exact congrArg _ (hsplit rest)
    have hself : filledLines before = (line :: others).filter fun line => !isBlankText line := by
      have hnothing := hbehind []
      rw [List.append_nil, filledLines_unifyLineEnds, filledLines_nil,
        List.append_nil] at hnothing
      exact hnothing
    rw [← filledLines_unifyLineEnds (before ++ after), hall, hbehind, hself, hafter]

/-- What follows the last line end of a text holds no other. -/
theorem exists_eq_append_unbroken (text : List Char) : ∃ front last,
    text = front ++ last ∧ (front = [] ∨ EndsLine front) ∧ Unbroken last := by
  induction text using List.reverseRecOn with
  | nil => exact ⟨[], [], rfl, .inl rfl, by simp [Unbroken]⟩
  | append_singleton text c ih =>
      by_cases hc : c = '\r' ∨ c = '\n'
      · refine ⟨text ++ [c], [], by simp, .inr ?_, by simp [Unbroken]⟩
        simpa [EndsLine] using hc
      · obtain ⟨front, last, rfl, hfront, hlast⟩ := ih
        refine ⟨front, last ++ [c], by simp, hfront, ?_⟩
        intro d hd
        rcases List.mem_append.mp hd with hd | hd
        · exact hlast d hd
        · rw [List.mem_singleton.mp hd]
          exact not_or.mp hc

/-- A line end behind a text adds no line to it. -/
theorem filledLines_append_lineEnd {lineEnd : List Char} (hend : lineEnd ∈ lineEnds)
    (text : List Char) : filledLines (text ++ lineEnd) = filledLines text := by
  obtain ⟨front, last, rfl, hfront, hlast⟩ := exists_eq_append_unbroken text
  have hclosed : filledLines (last ++ lineEnd) = filledLines last := by
    have hsplit : splitLines (last ++ (lineEnd ++ [])) = last :: splitLines [] :=
      splitLines_append hlast hend (by simp)
    rw [List.append_nil] at hsplit
    rw [filledLines_eq_filter, filledLines_eq_filter, hsplit, splitLines_of_unbroken hlast]
    simp [splitLines, List.filter_cons, isBlankText]
  rw [List.append_assoc, filledLines_append hfront, filledLines_append hfront, hclosed]

/-! ### Texts in pieces -/

theorem flatten_pieces (text : List Char) : (pieces text).flatten = text := by
  fun_induction pieces text <;> simp_all

theorem pairwise_pieces (text : List Char) :
    (pieces text).Pairwise fun piece _ => EndsLine piece := by
  fun_induction pieces text with
  | case1 => exact List.Pairwise.nil
  | case2 rest ih => exact List.pairwise_cons.mpr ⟨fun _ _ => .inr rfl, ih⟩
  | case3 c rest _ hend ih =>
      refine List.pairwise_cons.mpr ⟨fun _ _ => ?_, ih⟩
      simpa [EndsLine] using hend
  | case4 => exact List.pairwise_singleton _ _
  | case5 c rest _ _ piece others hrest ih =>
      rw [hrest] at ih
      obtain ⟨hpiece, hothers⟩ := List.pairwise_cons.mp ih
      exact List.pairwise_cons.mpr ⟨fun other hother => (hpiece other hother).cons c, hothers⟩

theorem filledLines_flatten {parts : List (List Char)}
    (hparts : parts.Pairwise fun part _ => EndsLine part) :
    filledLines parts.flatten = parts.flatMap filledLines := by
  induction parts with
  | nil => rfl
  | cons part rest ih =>
      obtain ⟨hpart, hrest⟩ := List.pairwise_cons.mp hparts
      rw [List.flatten_cons, List.flatMap_cons, ← ih hrest]
      cases rest with
      | nil => simp
      | cons next others => exact filledLines_append (.inr (hpart next List.mem_cons_self)) _

theorem flatMap_filledLines_filter (parts : List (List Char)) :
    (parts.filter fun part => !isBlankText part).flatMap filledLines =
      parts.flatMap filledLines := by
  induction parts with
  | nil => rfl
  | cons part rest ih =>
      by_cases hblank : isBlankText part = true
      · rw [List.filter_cons_of_neg (by simp [hblank]), List.flatMap_cons,
          filledLines_of_blank hblank, List.nil_append, ih]
      · rw [List.filter_cons_of_pos (by simp [hblank]), List.flatMap_cons, List.flatMap_cons, ih]

/-- **The lines that stay when blank lines are taken out are those that are not blank.** -/
theorem filledLines_withoutBlankLines (text : List Char) :
    filledLines (withoutBlankLines text) = filledLines text := by
  rw [withoutBlankLines, filledLines_flatten ((pairwise_pieces text).filter _),
    flatMap_filledLines_filter, ← filledLines_flatten (pairwise_pieces text), flatten_pieces]

/-! ### Blank lines that are put in -/

theorem AddsBlankLines.filledLines_eq {text other : List Char} (hadds : AddsBlankLines text other) :
    filledLines other = filledLines text := by
  cases hadds with
  | @inserted before after blanks lineEnd hbefore hblanks hend =>
      rw [filledLines_append hbefore, filledLines_append hbefore,
        filledLines_append (.inr (endsLine_append hend blanks)), filledLines_append_lineEnd hend,
        filledLines_of_blank hblanks, List.nil_append]
  | @appended text blanks lineEnd hblanks hend =>
      rw [filledLines_append (.inr (endsLine_append hend _)), filledLines_append_lineEnd hend,
        filledLines_of_blank hblanks, List.append_nil]

/-- **Texts that differ in blank lines have the same other lines.** -/
theorem Respaced.filledLines_eq {text other : List Char} (hrespaced : Respaced text other) :
    filledLines other = filledLines text := by
  induction hrespaced with
  | same => rfl
  | without => exact filledLines_withoutBlankLines text
  | adds _ hadds ih => exact hadds.filledLines_eq.trans ih

end Archetype.Text
