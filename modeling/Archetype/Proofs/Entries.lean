/-!
# Entries that are looked up by their keys

A value that is put under a key replaces the first entry of this key, or is added at the end. It is
found there afterwards, and under any other key what was found before.
-/

namespace Archetype

variable {Key Value : Type} [DecidableEq Key]

/-- Entries with a value under a key. -/
def putFirst (key : Key) (value : Value) : List (Key × Value) → List (Key × Value)
  | [] => [(key, value)]
  | (k, old) :: rest => if k = key then (k, value) :: rest else (k, old) :: putFirst key value rest

variable [BEq Key] [LawfulBEq Key]

theorem lookup_cons_eq_ite (other key : Key) (value : Value) (rest : List (Key × Value)) :
    ((key, value) :: rest).lookup other = if other = key then some value else rest.lookup other := by
  rw [List.lookup_cons]
  by_cases hkey : other = key
  · rw [hkey, beq_self_eq_true, if_pos rfl]
  · rw [beq_false_of_ne hkey, if_neg hkey]

theorem lookup_putFirst (key other : Key) (value : Value) (entries : List (Key × Value)) :
    (putFirst key value entries).lookup other =
      if other = key then some value else entries.lookup other := by
  induction entries with
  | nil => rw [putFirst, lookup_cons_eq_ite]
  | cons entry rest ih =>
      obtain ⟨first, old⟩ := entry
      rw [putFirst]
      by_cases hfirst : first = key
      · rw [if_pos hfirst, lookup_cons_eq_ite, lookup_cons_eq_ite, hfirst]
        split <;> rfl
      · rw [if_neg hfirst, lookup_cons_eq_ite, lookup_cons_eq_ite, ih]
        by_cases hother : other = first
        · rw [if_pos hother, if_neg (hother ▸ hfirst), if_pos hother]
        · rw [if_neg hother, if_neg hother]

end Archetype
