import Archetype.Proofs.Record.Arrangement
import Archetype.RecordFile

/-!
# Why data make no record

The parts of a record are read one after the other, and so are the entries of a bag; the first one
that cannot be read is told. Most faults are faults of what the data say, and foreseen. Two are not:
a number or a truth value where a bag is described, and a count that is infinite.
-/

namespace Archetype.Record

/-- A fault that is told as one of the data. -/
def Fault.isForeseen (fault : Fault) : Bool :=
  (FileFault.record fault).isForeseen

theorem isForeseen_invalidCount (key datum : Datum) :
    (invalidCount key datum).isForeseen = true := by
  unfold invalidCount
  split <;> rfl

theorem nameOf_eq_error {datum : Datum} {fault : Fault} (herror : nameOf datum = .error fault) :
    fault = .noText := by
  unfold nameOf at herror
  split at herror
  · cases herror
  · exact (Except.error.inj herror).symm

/-! ### Bags -/

/-- What is wrong with one entry of a bag. -/
def entryFault? (entry : Datum × Datum) : Option Fault :=
  match entry.2.count with
  | .ok _ => if entry.1.display?.isSome then none else some .noText
  | .error .invalid => some (invalidCount entry.1 entry.2)
  | .error .infinite => some .infiniteCount

theorem entryFault?_eq_none_iff {entry : Datum × Datum} :
    entryFault? entry = none ↔
      ∃ count : Text × Int, entry.1.display? = some count.1 ∧ entry.2.count = .ok count.2 := by
  unfold entryFault?
  constructor
  · intro hnone
    split at hnone
    · next n hcount =>
      cases hname : entry.1.display? with
      | none => simp [hname] at hnone
      | some name => exact ⟨(name, n), rfl, hcount⟩
    · cases hnone
    · cases hnone
  · rintro ⟨count, hname, hcount⟩
    simp [hname, hcount]

theorem bagOfEntries_cons_of_fault {entry : Datum × Datum} {fault : Fault}
    (hfault : entryFault? entry = some fault) (bag : Bag) (rest : List (Datum × Datum)) :
    bagOfEntries bag (entry :: rest) = .error fault := by
  obtain ⟨key, datum⟩ := entry
  rw [entryFault?] at hfault
  rw [bagOfEntries]
  cases hcount : datum.count with
  | ok n =>
      cases hname : key.display? with
      | some name => simp [hcount, hname] at hfault
      | none =>
          obtain rfl : Fault.noText = fault := by simpa [hcount, hname] using hfault
          simp [nameOf, hname, bind, Except.bind]
  | error cause =>
      rw [hcount] at hfault
      cases cause with
      | invalid =>
          cases hfault
          rfl
      | infinite =>
          cases hfault
          rfl

/-- **The first faulty entry is told.** -/
theorem bagOfEntries_eq_error_iff {fault : Fault} {entries : List (Datum × Datum)} :
    ∀ {bag : Bag}, bagOfEntries bag entries = .error fault ↔
      entries.findSome? entryFault? = some fault := by
  induction entries with
  | nil => simp [bagOfEntries]
  | cons entry rest ih =>
      intro bag
      rw [List.findSome?_cons]
      cases hfault : entryFault? entry with
      | some found => simp [bagOfEntries_cons_of_fault hfault]
      | none =>
          obtain ⟨key, datum⟩ := entry
          obtain ⟨⟨name, n⟩, hname, hcount⟩ := entryFault?_eq_none_iff.mp hfault
          rw [bagOfEntries, hcount]
          dsimp only
          rw [nameOf_eq_ok_iff.mpr hname]
          exact ih

/-- What describes no bag and is not told as such: a number or a truth value that counts for
something, and counts of which the first that is faulty is infinite. -/
inductive Unforeseen : Datum → Prop
  | number {datum : Datum} (hnumber : datum.number?.isSome = true)
      (hfull : datum.isEmpty = false) : Unforeseen datum
  | infinite {before after : List (Datum × Datum)} {counts : List (Text × Int)} {key : Datum}
      {x : Float} {negative : Bool} (hbefore : Counts before counts)
      (hinfinite : Decimal.Binary64.ofFloat x = .infinite negative) :
      Unforeseen (.map (before ++ (key, .float x) :: after))

theorem forall_entryFault?_iff {entries : List (Datum × Datum)} :
    (∀ entry ∈ entries, entryFault? entry = none) ↔ ∃ counts, Counts entries counts := by
  simp only [entryFault?_eq_none_iff]
  induction entries with
  | nil => simp [Counts]
  | cons entry rest ih =>
      rw [List.forall_mem_cons, ih]
      constructor
      · rintro ⟨⟨count, hcount⟩, counts, hcounts⟩
        exact ⟨count :: counts, .cons hcount hcounts⟩
      · rintro ⟨_, _ | ⟨hcount, hcounts⟩⟩
        exact ⟨⟨_, hcount⟩, _, hcounts⟩

theorem count_infinite_iff {datum : Datum} :
    datum.count = .error .infinite ↔
      ∃ x negative, datum = .float x ∧ Decimal.Binary64.ofFloat x = .infinite negative := by
  constructor
  · intro hcount
    unfold Datum.count at hcount
    split at hcount
    · cases hcount
    · cases hcount
    · next x =>
      split at hcount
      · cases hcount
      · next negative hinfinite => exact ⟨x, negative, rfl, hinfinite⟩
      · cases hcount
    · split at hcount <;> cases hcount
    all_goals cases hcount
  · rintro ⟨x, negative, rfl, hinfinite⟩
    rw [Datum.count, hinfinite]

theorem entryFault?_unforeseen_iff {entry : Datum × Datum} :
    (∃ fault, entryFault? entry = some fault ∧ fault.isForeseen = false) ↔
      entry.2.count = .error .infinite := by
  unfold entryFault?
  constructor
  · rintro ⟨fault, hfault, hunforeseen⟩
    split at hfault
    · split at hfault <;> cases hfault
      cases hunforeseen
    · cases hfault
      rw [isForeseen_invalidCount] at hunforeseen
      cases hunforeseen
    · next hcount => exact hcount
  · intro hcount
    exact ⟨.infiniteCount, by rw [hcount], rfl⟩

theorem isForeseen_of_bagOf_list {items : List Datum} {fault : Fault}
    (herror : bagOf (.list items) = .error fault) : fault.isForeseen = true := by
  rw [bagOf_list] at herror
  obtain ⟨-, item, -, -, -, hitem⟩ := mapM_eq_error_iff.mp (eq_error_of_map herror)
  rw [nameOf_eq_error hitem]
  rfl

theorem bagOf_map_unforeseen_iff {entries : List (Datum × Datum)} :
    (∃ fault, bagOf (.map entries) = .error fault ∧ fault.isForeseen = false) ↔
      Unforeseen (.map entries) := by
  simp only [bagOf_map, bagOfEntries_eq_error_iff, List.findSome?_eq_some_iff]
  constructor
  · rintro ⟨fault, ⟨before, ⟨key, datum⟩, after, rfl, hfault, hbefore⟩, hunforeseen⟩
    obtain ⟨x, negative, rfl, hinfinite⟩ :=
      count_infinite_iff.mp (entryFault?_unforeseen_iff.mp ⟨fault, hfault, hunforeseen⟩)
    obtain ⟨counts, hcounts⟩ := forall_entryFault?_iff.mp hbefore
    exact .infinite hcounts hinfinite
  · rintro (⟨⟨⟩, -⟩ | @⟨before, after, counts, key, x, negative, hbefore, hinfinite⟩)
    have hcount : (key, Datum.float x).2.count = .error .infinite :=
      count_infinite_iff.mpr ⟨x, negative, rfl, hinfinite⟩
    obtain ⟨fault, hfault, hunforeseen⟩ := entryFault?_unforeseen_iff.mpr hcount
    exact ⟨fault, ⟨before, (key, .float x), after, rfl, hfault,
      forall_entryFault?_iff.mpr ⟨counts, hbefore⟩⟩, hunforeseen⟩

theorem bagOf_number {datum : Datum} (hnumber : datum.number?.isSome = true)
    (hfull : datum.isEmpty = false) : bagOf datum = .error (.notItems datum) := by
  cases datum <;> simp_all [bagOf, Datum.number?]

/-- **What is not told as a fault of the data, for a bag.** -/
theorem bagOf_unforeseen_iff {datum : Datum} :
    (∃ fault, bagOf datum = .error fault ∧ fault.isForeseen = false) ↔ Unforeseen datum := by
  constructor
  · rintro ⟨fault, herror, hunforeseen⟩
    cases datum with
    | map entries => exact bagOf_map_unforeseen_iff.mp ⟨fault, herror, hunforeseen⟩
    | list items =>
        rw [isForeseen_of_bagOf_list herror] at hunforeseen
        cases hunforeseen
    | null => cases herror
    | text name =>
        unfold bagOf at herror
        split at herror <;> cases herror
    | bool | int | float =>
        refine .number rfl ?_
        unfold bagOf at herror
        split at herror
        · cases herror
        · next hfull => simpa using hfull
  · intro hunforeseen
    cases hunforeseen with
    | number hnumber hfull => exact ⟨_, bagOf_number hnumber hfull, rfl⟩
    | infinite hbefore hinfinite =>
        exact bagOf_map_unforeseen_iff.mpr (.infinite hbefore hinfinite)

/-! ### Records -/

/-- What the data of a record say of one of its bags. -/
def described (data : List (Datum × Datum)) (name : String) : Datum :=
  (Datum.get? data name).getD .null

/-- Data of which the first faulty part is an unforeseen description of a bag. -/
def UnforeseenData (data : List (Datum × Datum)) : Prop :=
  (∃ category, categoryOf data = .ok category) ∧
    ∃ before name after, bagNames = before ++ name :: after ∧
      (∀ other ∈ before, ∃ bag, bagOf (described data other) = .ok bag) ∧
      Unforeseen (described data name)

theorem categoryOf_eq_error {data : List (Datum × Datum)} {fault : Fault}
    (herror : categoryOf data = .error fault) : fault = .noText := by
  unfold categoryOf at herror
  split at herror
  · cases herror
  · cases herror
  · exact nameOf_eq_error (eq_error_of_map herror)

theorem ofEntries_eq_error_iff {data : List (Datum × Datum)} {fault : Fault} :
    ofEntries data = .error fault ↔ categoryOf data = .error fault ∨
      (∃ category, categoryOf data = .ok category) ∧
        bagNames.mapM (fun name => bagOf (described data name)) = .error fault := by
  simp only [bagNames, List.mapM_cons, List.mapM_nil, ofEntries, described]
  cases categoryOf data with
  | error cause => simp [bind, Except.bind]
  | ok category =>
      simp only [ok_bind]
      cases bagOf ((Datum.get? data "colors").getD .null) <;>
      cases bagOf ((Datum.get? data "cards").getD .null) <;>
      cases bagOf ((Datum.get? data "words").getD .null) <;>
      simp [bind, Except.bind, pure, Except.pure]

/-- **What is not told as a fault of the data, for a record.** -/
theorem ofEntries_unforeseen_iff {data : List (Datum × Datum)} :
    (∃ fault, ofEntries data = .error fault ∧ fault.isForeseen = false) ↔ UnforeseenData data := by
  simp only [ofEntries_eq_error_iff, mapM_eq_error_iff]
  constructor
  · rintro ⟨fault, hcategory | ⟨hcategory, before, name, after, hnames, hbefore, hname⟩, hunforeseen⟩
    · rw [categoryOf_eq_error hcategory] at hunforeseen
      cases hunforeseen
    · exact ⟨hcategory, before, name, after, hnames, hbefore,
        bagOf_unforeseen_iff.mp ⟨fault, hname, hunforeseen⟩⟩
  · rintro ⟨hcategory, before, name, after, hnames, hbefore, hname⟩
    obtain ⟨fault, herror, hunforeseen⟩ := bagOf_unforeseen_iff.mpr hname
    exact ⟨fault, .inr ⟨hcategory, before, name, after, hnames, hbefore, herror⟩, hunforeseen⟩

end Archetype.Record
