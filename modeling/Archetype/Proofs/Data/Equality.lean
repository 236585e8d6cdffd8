import Archetype.Proofs.Record.Arrangement

/-!
# Equal data

Two data are equal if they are the same text, the same number or both null, or collections with
equal members. The entries of a mapping may stand in any order. What is no number equals nothing,
not even itself.
-/

namespace Archetype.Datum

mutual

def equals : Datum → Datum → Bool
  | .list items, .list others => itemsEqual items others
  | .map entries, .map others =>
    entries.length == others.length && entriesEqual entries others
  | .float x, .float y => x == y
  | datum, other => datum.sameKey other

def itemsEqual : List Datum → List Datum → Bool
  | [], [] => true
  | item :: rest, other :: others => item.equals other && itemsEqual rest others
  | _, _ => false

/-- Whether other entries give each key an equal value. -/
def entriesEqual : List (Datum × Datum) → List (Datum × Datum) → Bool
  | [], _ => true
  | (key, value) :: rest, others =>
    (others.find? fun (k, _) => key.equals k).any (fun (_, v) => value.equals v) &&
      entriesEqual rest others

end

theorem equals_text {text : Text} (key : Datum) :
    (Datum.text text).equals key = key.sameKey (.text text) := by
  cases key with
  | text other =>
      simp only [equals, sameKey]
      exact BEq.comm
  | _ => simp [equals, sameKey, integer?]

/-- Equality finds a text key as its name does. -/
theorem find?_equals_text (entries : List (Datum × Datum)) (name : String) :
    (entries.find? fun (k, _) => (Datum.text name).equals k).map (·.2) = get? entries name := by
  simp only [get?, equals_text]

theorem equals_map_iff {entries : List (Datum × Datum)} {datum : Datum} :
    (Datum.map entries).equals datum = true ↔ ∃ others, datum = .map others ∧
      entries.length = others.length ∧ entriesEqual entries others = true := by
  cases datum with
  | map others => simp [equals]
  | _ => simp [equals, sameKey, integer?]

theorem entriesEqual_nil (others : List (Datum × Datum)) : entriesEqual [] others = true := by
  rw [entriesEqual]

theorem entriesEqual_cons_text {name : String} {value : Datum} {rest others : List (Datum × Datum)} :
    entriesEqual ((.text name, value) :: rest) others = true ↔
      (∃ other, get? others name = some other ∧ value.equals other = true) ∧
        entriesEqual rest others = true := by
  rw [entriesEqual, Bool.and_eq_true, ← find?_equals_text]
  cases others.find? _ <;> simp

/-- Entries of text keys equal those that give each of the keys an equal value. -/
theorem entriesEqual_map_iff {ι : Type} {name : ι → String} {value : ι → Datum} {indices : List ι}
    {others : List (Datum × Datum)} :
    entriesEqual (indices.map fun i => (.text (name i), value i)) others = true ↔
      ∀ i ∈ indices, ∃ other, get? others (name i) = some other ∧
        (value i).equals other = true := by
  induction indices with
  | nil => simp [entriesEqual_nil]
  | cons i rest ih => rw [List.map_cons, entriesEqual_cons_text, ih, List.forall_mem_cons]

end Archetype.Datum
