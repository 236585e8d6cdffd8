import Mathlib.Data.List.Forall2

/-!
# Steps that end well

A computation that may fail ends well only if each of its steps does, and otherwise ends with the
fault of one of them.
-/

namespace Archetype

variable {ε δ α β : Type}

theorem ok_bind (value : α) (next : α → Except ε β) : (Except.ok value >>= next) = next value :=
  rfl

theorem exists_of_bind_eq_ok {first : Except ε α} {next : α → Except ε β} {result : β}
    (hok : (first >>= next) = .ok result) :
    ∃ middle, first = .ok middle ∧ next middle = .ok result := by
  cases first with
  | error fault => cases hok
  | ok middle => exact ⟨middle, rfl, hok⟩

/-- What is done with the results that a step does not have makes no difference. -/
theorem bind_congr_of_ok {first : Except ε α} {next other : α → Except ε β}
    (hnext : ∀ middle, first = .ok middle → next middle = other middle) :
    (first >>= next) = (first >>= other) := by
  cases first with
  | error fault => rfl
  | ok middle => exact hnext middle rfl

theorem exists_of_map_eq_ok {outcome : Except ε α} {change : α → β} {result : β}
    (hok : outcome.map change = .ok result) :
    ∃ value, outcome = .ok value ∧ change value = result := by
  cases outcome with
  | error fault => cases hok
  | ok value => exact ⟨value, rfl, Except.ok.inj hok⟩

/-- Steps that are taken for each member of a list end well together if each of them does. -/
theorem mapM_eq_ok_iff {step : α → Except ε β} {items : List α} : ∀ {results : List β},
    items.mapM step = .ok results ↔
      List.Forall₂ (fun item result => step item = .ok result) items results := by
  induction items with
  | nil =>
      intro results
      rw [List.mapM_nil, List.forall₂_nil_left_iff]
      exact ⟨fun hok => (Except.ok.inj hok).symm, fun hnil => by rw [hnil]; rfl⟩
  | cons item rest ih =>
      intro results
      rw [List.mapM_cons]
      constructor
      · intro hok
        obtain ⟨result, hresult, hothers⟩ := exists_of_bind_eq_ok hok
        obtain ⟨others, hrest, hpure⟩ := exists_of_bind_eq_ok hothers
        cases hpure
        exact .cons hresult (ih.mp hrest)
      · rintro (_ | ⟨hresult, hrest⟩)
        rw [hresult, ih.mpr hrest]
        rfl

theorem exists_mapM_eq_ok {step : α → Except ε β} {items : List α}
    (hitems : ∀ item ∈ items, ∃ result, step item = .ok result) :
    ∃ results, items.mapM step = .ok results := by
  induction items with
  | nil => exact ⟨[], rfl⟩
  | cons item rest ih =>
      obtain ⟨⟨result, hresult⟩, hothers⟩ := List.forall_mem_cons.mp hitems
      obtain ⟨results, hrest⟩ := ih hothers
      exact ⟨result :: results, mapM_eq_ok_iff.mpr (.cons hresult (mapM_eq_ok_iff.mp hrest))⟩

theorem eq_ok_of_toOption {outcome : Except ε α} {result : α}
    (hsome : outcome.toOption = some result) : outcome = .ok result := by
  cases outcome with
  | error fault => cases hsome
  | ok value => exact congrArg Except.ok (Option.some.inj hsome)

theorem eq_ok_of_mapError {outcome : Except ε α} {change : ε → δ} {result : α}
    (hok : outcome.mapError change = .ok result) : outcome = .ok result := by
  cases outcome with
  | error fault => cases hok
  | ok value =>
      cases hok
      rfl

theorem eq_error_of_bind {first : Except ε α} {next : α → Except ε β} {fault : ε}
    (herror : (first >>= next) = .error fault) :
    first = .error fault ∨ ∃ middle, first = .ok middle ∧ next middle = .error fault := by
  cases first with
  | error cause => exact .inl (congrArg Except.error (Except.error.inj herror))
  | ok middle => exact .inr ⟨middle, rfl, herror⟩

theorem eq_error_of_map {outcome : Except ε α} {change : α → β} {fault : ε}
    (herror : outcome.map change = .error fault) : outcome = .error fault := by
  cases outcome with
  | error cause => exact congrArg Except.error (Except.error.inj herror)
  | ok value => cases herror

/-- Steps that are taken for each member of a list end with the fault of the first that fails. -/
theorem mapM_eq_error_iff {step : α → Except ε β} {fault : ε} {items : List α} :
    items.mapM step = .error fault ↔ ∃ before item after, items = before ++ item :: after ∧
      (∀ other ∈ before, ∃ result, step other = .ok result) ∧ step item = .error fault := by
  constructor
  · intro herror
    induction items with
    | nil => cases herror
    | cons first rest ih =>
        rw [List.mapM_cons] at herror
        rcases eq_error_of_bind herror with hfirst | ⟨result, hresult, hmore⟩
        · exact ⟨[], first, rest, rfl, by simp, hfirst⟩
        · rcases eq_error_of_bind hmore with hrest | ⟨results, -, hpure⟩
          · obtain ⟨before, item, after, rfl, hbefore, hitem⟩ := ih hrest
            exact ⟨first :: before, item, after, rfl,
              List.forall_mem_cons.mpr ⟨⟨result, hresult⟩, hbefore⟩, hitem⟩
          · cases hpure
  · rintro ⟨before, item, after, rfl, hbefore, hitem⟩
    obtain ⟨results, hresults⟩ := exists_mapM_eq_ok hbefore
    rw [List.mapM_append, hresults, ok_bind, List.mapM_cons, hitem]
    rfl

end Archetype
