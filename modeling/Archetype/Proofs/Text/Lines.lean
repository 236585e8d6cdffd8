import Mathlib.Data.List.Basic
import Archetype.Text.Lines

/-!
# Texts made of lines

Lines that are put together are found again. It does not matter which of the three line ends stands
between them, or whether one stands behind the last; but a line feed at the start of a line would
join a carriage return before it, and an empty last line would not be counted.
-/

namespace Archetype.Text

/-- No line ends within a line. -/
def Unbroken (line : List Char) : Prop :=
  ∀ c ∈ line, c ≠ '\r' ∧ c ≠ '\n'

instance (line : List Char) : Decidable (Unbroken line) :=
  List.decidableBAll (fun c => c ≠ '\r' ∧ c ≠ '\n') line

def lineEnds : List (List Char) :=
  [['\n'], ['\r'], ['\r', '\n']]

/-- Lines with line ends between them, and behind the last one if the text is closed. -/
def joinLines (lineEnd : List Char) (closed : Bool) : List (List Char) → List Char
  | [] => []
  | [line] => line ++ if closed then lineEnd else []
  | line :: rest => line ++ (lineEnd ++ joinLines lineEnd closed rest)

theorem splitLines_cons {c : Char} (hc : c ≠ '\r' ∧ c ≠ '\n') {rest line : List Char}
    {others : List (List Char)} (hrest : splitLines rest = line :: others) :
    splitLines (c :: rest) = (c :: line) :: others := by
  have hend : ¬ (c = '\r' ∨ c = '\n') := not_or.mpr hc
  rw [splitLines]
  · rw [if_neg hend, hrest]
  · intro _ hreturn
    exact absurd hreturn hc.1

theorem splitLines_of_unbroken {line : List Char} (hline : Unbroken line) :
    splitLines line = [line] := by
  induction line with
  | nil => rfl
  | cons c rest ih =>
      obtain ⟨hc, hrest⟩ := List.forall_mem_cons.mp hline
      exact splitLines_cons hc (ih hrest)

theorem splitLines_lineEnd {lineEnd rest : List Char} (hend : lineEnd ∈ lineEnds)
    (hrest : rest.head? ≠ some '\n') : splitLines (lineEnd ++ rest) = [] :: splitLines rest := by
  simp only [lineEnds, List.mem_cons, List.not_mem_nil, or_false] at hend
  rcases hend with rfl | rfl | rfl
  · rfl
  · cases rest with
    | nil => rfl
    | cons c others =>
        have hc : c ≠ '\n' := by simpa using hrest
        rw [List.singleton_append, splitLines]
        · rw [if_pos (.inl rfl)]
        · intro _ _ hfeed
          exact hc (List.cons.inj hfeed).1
  · rfl

/-- **The first line of a text ends at the first line end.** -/
theorem splitLines_append {line lineEnd rest : List Char} (hline : Unbroken line)
    (hend : lineEnd ∈ lineEnds) (hrest : rest.head? ≠ some '\n') :
    splitLines (line ++ (lineEnd ++ rest)) = line :: splitLines rest := by
  induction line with
  | nil => exact splitLines_lineEnd hend hrest
  | cons c others ih =>
      obtain ⟨hc, hothers⟩ := List.forall_mem_cons.mp hline
      exact splitLines_cons hc (ih hothers)

section Join

variable {lineEnd : List Char} {closed : Bool}

/-- A text of lines does not start with a line feed. -/
theorem head?_joinLines {parts : List (List Char)}
    (hparts : ∀ part ∈ parts, Unbroken part ∧ part ≠ []) :
    (joinLines lineEnd closed parts).head? ≠ some '\n' := by
  cases parts with
  | nil => simp [joinLines]
  | cons line rest =>
      obtain ⟨hunbroken, hne⟩ := hparts line List.mem_cons_self
      obtain ⟨c, others, rfl⟩ := List.exists_cons_of_ne_nil hne
      have hhead : (joinLines lineEnd closed ((c :: others) :: rest)).head? = some c := by
        cases rest <;> rfl
      rw [hhead]
      intro hfeed
      exact (hunbroken c List.mem_cons_self).2 (Option.some.inj hfeed)

theorem splitLines_joinLines (hend : lineEnd ∈ lineEnds) : ∀ {parts : List (List Char)},
    parts ≠ [] → (∀ part ∈ parts, Unbroken part ∧ part ≠ []) →
      splitLines (joinLines lineEnd closed parts) = parts ++ if closed then [[]] else []
  | [], hne, _ => absurd rfl hne
  | [line], _, hparts => by
      obtain ⟨hunbroken, -⟩ := hparts line List.mem_cons_self
      cases closed with
      | false =>
          rw [joinLines, if_neg Bool.false_ne_true, List.append_nil]
          exact splitLines_of_unbroken hunbroken
      | true =>
          have hlast : splitLines (line ++ (lineEnd ++ [])) = line :: splitLines [] :=
            splitLines_append hunbroken hend (by simp)
          rw [List.append_nil] at hlast
          exact hlast
  | line :: next :: rest, _, hparts => by
      obtain ⟨⟨hunbroken, -⟩, hlater⟩ := List.forall_mem_cons.mp hparts
      have hrest := splitLines_joinLines hend (List.cons_ne_nil next rest) hlater
      rw [joinLines, splitLines_append hunbroken hend (head?_joinLines hlater), hrest]
      · rfl
      · exact List.cons_ne_nil next rest

/-- **Lines are found again in the text that they make.** -/
theorem lines_joinLines (hend : lineEnd ∈ lineEnds) {parts : List (List Char)}
    (hparts : ∀ part ∈ parts, Unbroken part ∧ part ≠ []) :
    lines (joinLines lineEnd closed parts) = parts := by
  by_cases hnil : parts = []
  · rw [hnil]
    rfl
  · unfold lines
    rw [splitLines_joinLines hend hnil hparts]
    cases closed with
    | true =>
        dsimp only
        rw [if_pos rfl, List.getLast?_concat, if_pos rfl, List.dropLast_concat]
    | false =>
        have hlast : parts.getLast? ≠ some [] := by
          intro hempty
          obtain ⟨-, hne⟩ := hparts [] (List.mem_of_getLast? hempty)
          exact hne rfl
        dsimp only
        rw [if_neg Bool.false_ne_true, List.append_nil, if_neg hlast]

end Join

/-! ### Texts put behind one another -/

theorem splitLines_ne_nil (text : List Char) : splitLines text ≠ [] := by
  fun_cases splitLines text <;> simp_all

/-- **The lines up to a line feed are the same, whatever follows it.** -/
theorem exists_splitLines_feed (text : List Char) : ∃ line others, ∀ rest,
    splitLines (text ++ '\n' :: rest) = line :: (others ++ splitLines rest) := by
  fun_induction splitLines text with
  | case1 => exact ⟨[], [], fun rest => rfl⟩
  | case2 text ih =>
      obtain ⟨line, others, hlines⟩ := ih
      refine ⟨[], line :: others, fun rest => ?_⟩
      rw [List.cons_append, List.cons_append, splitLines, hlines]
      rfl
  | case3 c text hpair hend ih =>
      by_cases hreturn : c = '\r' ∧ text = []
      · obtain ⟨rfl, rfl⟩ := hreturn
        exact ⟨[], [], fun rest => rfl⟩
      · obtain ⟨line, others, hlines⟩ := ih
        refine ⟨[], line :: others, fun rest => ?_⟩
        rw [List.cons_append, splitLines, if_pos hend, hlines]
        · rfl
        · intro _ hc hfeed
          cases text with
          | nil => exact hreturn ⟨hc, rfl⟩
          | cons d ds =>
              cases hfeed
              exact hpair ds hc rfl
  | case4 c text _ hend _ ih | case5 c text _ hend _ _ _ ih =>
      obtain ⟨line, others, hlines⟩ := ih
      exact ⟨c :: line, others, fun rest => splitLines_cons (not_or.mp hend) (hlines rest)⟩

theorem getLast?_splitLines_append (parts : List (List Char)) (rest : List Char) :
    (parts ++ splitLines rest).getLast? = (splitLines rest).getLast? := by
  rw [List.getLast?_append]
  exact Option.or_of_isSome (by simp [splitLines_ne_nil])

/-- What stands behind a text that is empty or ends with a line feed has lines of its own. -/
theorem lines_append {text : List Char} (hend : text = [] ∨ text.getLast? = some '\n')
    (rest : List Char) : lines (text ++ rest) = lines text ++ lines rest := by
  rcases hend with rfl | hend
  · rfl
  · obtain ⟨front, rfl⟩ := List.getLast?_eq_some_iff.mp hend
    obtain ⟨line, others, hlines⟩ := exists_splitLines_feed front
    have hsplit (later : List Char) :
        splitLines (front ++ ['\n'] ++ later) = (line :: others) ++ splitLines later := by
      rw [List.append_assoc]
      exact hlines later
    have hall (later : List Char) :
        lines (front ++ ['\n'] ++ later) = (line :: others) ++ lines later := by
      unfold lines
      dsimp only
      rw [hsplit, getLast?_splitLines_append]
      split
      · rw [List.dropLast_append_of_ne_nil (splitLines_ne_nil later)]
      · rfl
    have hself := hall []
    rw [List.append_nil] at hself
    rw [hall, hself]
    simp [lines, splitLines]

/-! ### Line ends that are written alike -/

/-- **A text has the same lines when all its line ends are written alike.** A pair of both ends is
one line end before and after. -/
theorem splitLines_unifyLineEnds (text : List Char) :
    splitLines (unifyLineEnds text) = splitLines text := by
  fun_induction unifyLineEnds text with
  | case1 => rfl
  | case2 rest ih =>
      change [] :: splitLines (unifyLineEnds rest) = [] :: splitLines rest
      rw [ih]
  | case3 c rest hpair ih =>
      by_cases hreturn : c = '\r'
      · subst hreturn
        have hnext : rest.head? ≠ some '\n' := by
          intro hfeed
          obtain ⟨others, rfl⟩ := List.head?_eq_some_iff.mp hfeed
          exact hpair others rfl rfl
        calc splitLines ('\n' :: unifyLineEnds rest)
            = [] :: splitLines (unifyLineEnds rest) := rfl
          _ = [] :: splitLines rest := by rw [ih]
          _ = splitLines ('\r' :: rest) :=
            (splitLines_lineEnd (by decide : ['\r'] ∈ lineEnds) hnext).symm
      rw [if_neg hreturn]
      by_cases hfeed : c = '\n'
      · subst hfeed
        change [] :: splitLines (unifyLineEnds rest) = [] :: splitLines rest
        rw [ih]
      · obtain ⟨line, others, hrest⟩ := List.exists_cons_of_ne_nil (splitLines_ne_nil rest)
        rw [splitLines_cons ⟨hreturn, hfeed⟩ hrest,
          splitLines_cons ⟨hreturn, hfeed⟩ (ih.trans hrest)]

theorem lines_unifyLineEnds (text : List Char) : lines (unifyLineEnds text) = lines text := by
  unfold lines
  rw [splitLines_unifyLineEnds]

/-- Characters in front of a text that end no line can be taken away before or after its line ends
are written alike. -/
theorem dropWhile_unifyLineEnds {p : Char → Bool} (hreturn : p '\r' = false)
    (hfeed : p '\n' = false) (text : List Char) :
    (unifyLineEnds text).dropWhile p = unifyLineEnds (text.dropWhile p) := by
  fun_induction unifyLineEnds text with
  | case1 => rfl
  | case2 rest _ => simp [hreturn, hfeed, unifyLineEnds]
  | case3 c rest hpair ih =>
      by_cases hc : c = '\r'
      · subst hc
        rw [if_pos rfl, List.dropWhile_cons_of_neg (by simp [hfeed]),
          List.dropWhile_cons_of_neg (by simp [hreturn]), unifyLineEnds]
        · rfl
        · exact hpair
      · rw [if_neg hc]
        by_cases hp : p c = true
        · rw [List.dropWhile_cons_of_pos hp, List.dropWhile_cons_of_pos hp, ih]
        · rw [List.dropWhile_cons_of_neg hp, List.dropWhile_cons_of_neg hp, unifyLineEnds,
            if_neg hc]
          exact hpair

end Archetype.Text
