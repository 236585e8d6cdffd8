import Mathlib.Data.List.TakeWhile
import Archetype.Text.Search

/-!
# Where a run of characters ends

What is read up to some mark is found again when the mark does not occur in it.
-/

namespace Archetype.Text

theorem takeWhile_append_of_stop {α : Type} {p : α → Bool} {before after : List α}
    (hbefore : ∀ x ∈ before, p x = true) (hafter : ∀ x, after.head? = some x → p x = false) :
    (before ++ after).takeWhile p = before := by
  rw [List.takeWhile_append_of_pos hbefore]
  cases after with
  | nil => simp
  | cons x rest => simp [hafter x rfl]

theorem cut?_append {α : Type} [DecidableEq α] (divider : α) {before after : List α}
    (hbefore : divider ∉ before) :
    cut? [divider] (before ++ divider :: after) = some (before, after) := by
  induction before with
  | nil => simp [cut?, after?]
  | cons c rest ih =>
      rw [List.mem_cons, not_or] at hbefore
      obtain ⟨hother, hrest⟩ := hbefore
      rw [List.cons_append, cut?, after?, if_neg hother]
      dsimp only
      rw [ih hrest]
      rfl

theorem eq_append_of_after? {α : Type} [DecidableEq α] {front text rest : List α}
    (hafter : after? front text = some rest) : text = front ++ rest := by
  induction front generalizing text with
  | nil =>
      cases hafter
      rfl
  | cons p others ih =>
      cases text with
      | nil => cases hafter
      | cons c cs =>
          rw [after?] at hafter
          split at hafter
          · next hsame => rw [hsame, ih hafter, List.cons_append]
          · cases hafter

theorem after?_append {α : Type} [DecidableEq α] (front rest : List α) :
    after? front (front ++ rest) = some rest := by
  induction front with
  | nil => rfl
  | cons p others ih => rw [List.cons_append, after?, if_pos rfl, ih]

/-- **A text that is cut is made of its parts and the separator.** -/
theorem eq_append_of_cut? {α : Type} [DecidableEq α] {separator text before after : List α}
    (hcut : cut? separator text = some (before, after)) :
    text = before ++ (separator ++ after) := by
  induction text generalizing before with
  | nil =>
      obtain ⟨rest, hrest, hparts⟩ := Option.map_eq_some_iff.mp hcut
      cases hparts
      rw [List.nil_append]
      exact eq_append_of_after? hrest
  | cons c cs ih =>
      rw [cut?] at hcut
      split at hcut
      · next rest hrest =>
        cases hcut
        rw [List.nil_append]
        exact eq_append_of_after? hrest
      · obtain ⟨⟨first, later⟩, hlater, hparts⟩ := Option.map_eq_some_iff.mp hcut
        cases hparts
        rw [ih hlater, List.cons_append]

/-- **A text is cut at the first occurrence of the separator**, and only if there is one. -/
theorem exists_cut?_of_eq_append {α : Type} [DecidableEq α] {separator text before after : List α}
    (htext : text = before ++ (separator ++ after)) :
    ∃ first later, cut? separator text = some (first, later) ∧ first.length ≤ before.length := by
  induction text generalizing before with
  | nil =>
      obtain ⟨rfl, hrest⟩ := List.append_eq_nil_iff.mp htext.symm
      obtain ⟨rfl, rfl⟩ := List.append_eq_nil_iff.mp hrest
      exact ⟨[], [], rfl, Nat.le_refl _⟩
  | cons c cs ih =>
      cases hafter : after? separator (c :: cs) with
      | some rest => exact ⟨[], rest, by rw [cut?, hafter], Nat.zero_le _⟩
      | none =>
          cases before with
          | nil =>
              rw [htext, List.nil_append, after?_append] at hafter
              cases hafter
          | cons b others =>
              obtain ⟨first, later, hcut, hfirst⟩ := ih (List.cons.inj htext).2
              refine ⟨c :: first, later, ?_, Nat.succ_le_succ hfirst⟩
              rw [cut?, hafter]
              dsimp only
              rw [hcut]
              rfl

end Archetype.Text
