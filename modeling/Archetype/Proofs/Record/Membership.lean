import Mathlib.Data.Set.Card
import Archetype.Proofs.Record.Normal

/-!
# Membership and counts

A name is in a bag when it has an entry, and it is counted by what the entry says. The two come to
the same but for the names whose entry says less than one. A bag has such names only if it is given
by counts, and then they are the names whose last count is below one: zero, negative, or a fraction
that is cut to one of these.
-/

namespace Archetype

namespace Bag

/-- The names that have an entry with a count below one. -/
def belowOne (bag : Bag) : List Text :=
  (bag.entries.filter fun entry => entry.2 < 1).map (·.1)

theorem belowOne_sublist (bag : Bag) : bag.belowOne.Sublist bag.names :=
  List.filter_sublist.map _

section Names

variable {bag : Bag} (hnames : bag.names.Nodup)
include hnames

theorem mem_belowOne_iff {name : Text} :
    name ∈ bag.belowOne ↔ ∃ n, bag.count? name = some n ∧ n < 1 := by
  simp only [belowOne, List.mem_map, List.mem_filter, decide_eq_true_eq,
    count?_eq_some_iff hnames]
  constructor
  · rintro ⟨⟨name, n⟩, hentry, rfl⟩
    exact ⟨n, hentry⟩
  · rintro ⟨n, hentry⟩
    exact ⟨(name, n), hentry, rfl⟩

theorem has_iff {name : Text} :
    bag.has name = true ↔ 1 ≤ bag.count name ∨ name ∈ bag.belowOne := by
  rw [mem_belowOne_iff hnames, has, count]
  cases bag.count? name with
  | none => simp
  | some n => simpa using le_or_gt 1 n

theorem count_lt_one_of_mem_belowOne {name : Text} (hbelow : name ∈ bag.belowOne) :
    bag.count name < 1 := by
  obtain ⟨n, hcount, hn⟩ := (mem_belowOne_iff hnames).mp hbelow
  rwa [count, hcount]

theorem setOf_one_le_count : {name | 1 ≤ bag.count name} =
    {name | name ∈ (bag.entries.filter fun entry => !decide (entry.2 < 1)).map (·.1)} := by
  ext name
  simp only [Set.mem_ofPred_eq, List.mem_map, List.mem_filter, Bool.not_eq_true',
    decide_eq_false_iff_not, not_lt]
  constructor
  · intro hone
    rw [count] at hone
    cases hcount : bag.count? name with
    | none =>
        rw [hcount] at hone
        simp at hone
    | some n =>
        rw [hcount] at hone
        exact ⟨(name, n), ⟨(count?_eq_some_iff hnames).mp hcount, hone⟩, rfl⟩
  · rintro ⟨⟨name, n⟩, ⟨hentry, hone⟩, rfl⟩
    rwa [count, (count?_eq_some_iff hnames).mpr hentry]

/-- **A bag holds as many names as are counted at least once, and those below one.** -/
theorem distinct_eq :
    bag.distinct = {name | 1 ≤ bag.count name}.ncard + bag.belowOne.length := by
  have hcounted : ((bag.entries.filter fun entry => !decide (entry.2 < 1)).map (·.1)).Nodup :=
    hnames.sublist (List.filter_sublist.map _)
  rw [setOf_one_le_count hnames, ← List.coe_toFinset, Set.ncard_coe_finset,
    List.toFinset_card_of_nodup hcounted, belowOne, List.length_map, List.length_map, distinct,
    Nat.add_comm]
  exact List.length_eq_length_filter_add _

/-- Where no count is below one, an item that may be absent is held as soon as it is counted. -/
theorem holds_eq_one_le_countOf {item : Option Text}
    (hitem : ∀ name ∈ item, name ∉ bag.belowOne) :
    bag.holds item = decide (1 ≤ bag.countOf item) := by
  cases item with
  | none => rfl
  | some name =>
      have hiff : bag.has name = true ↔ 1 ≤ bag.count name :=
        (has_iff hnames).trans (or_iff_left (hitem name rfl))
      exact Bool.eq_iff_iff.mpr (hiff.trans decide_eq_true_iff.symm)

end Names

theorem belowOne_ofList (items : List Text) : (ofList items).belowOne = [] := by
  have hentries : ∀ entry ∈ tally items, 1 ≤ entry.2 := by
    rintro ⟨name, n⟩ hentry
    obtain ⟨item, hitem, heq⟩ := List.mem_map.mp hentry
    cases heq
    have hcount : 1 ≤ items.count name := List.count_pos_iff.mpr (List.mem_eraseDups.mp hitem)
    exact Nat.one_le_cast.mpr hcount
  rw [belowOne, entries_ofList, List.map_eq_nil_iff, List.filter_eq_nil_iff]
  intro entry hentry
  simpa using hentries entry hentry

end Bag

namespace Record

/-! ### The counts that entries give -/

/-- The last of these entries whose key is spelled like the name gives it this count. -/
def GivesCount (entries : List (Datum × Datum)) (name : Text) (n : Int) : Prop :=
  ∃ before key datum after, entries = before ++ (key, datum) :: after ∧
    key.display? = some name ∧ datum.count = .ok n ∧
    ∀ entry ∈ after, entry.1.display? ≠ some name

theorem givesCount_cons_iff {entry : Datum × Datum} {rest : List (Datum × Datum)} {name : Text}
    {n : Int} :
    GivesCount (entry :: rest) name n ↔ GivesCount rest name n ∨
      (entry.1.display? = some name ∧ entry.2.count = .ok n ∧
        ∀ other ∈ rest, other.1.display? ≠ some name) := by
  constructor
  · rintro ⟨before, key, datum, after, hentries, hkey, hcount, hafter⟩
    cases before with
    | nil =>
        cases hentries
        exact .inr ⟨hkey, hcount, hafter⟩
    | cons first before =>
        obtain ⟨rfl, rfl⟩ := List.cons.inj hentries
        exact .inl ⟨before, key, datum, after, rfl, hkey, hcount, hafter⟩
  · rintro (⟨before, key, datum, after, rfl, hkey, hcount, hafter⟩ | ⟨hkey, hcount, hafter⟩)
    · exact ⟨entry :: before, key, datum, after, rfl, hkey, hcount, hafter⟩
    · exact ⟨[], entry.1, entry.2, rest, rfl, hkey, hcount, hafter⟩

/-- **The last count of a name stands**, and a name without one keeps the count that it had. -/
theorem count?_eq_some_iff_of_bagOfEntries {entries : List (Datum × Datum)} {name : Text}
    {n : Int} : ∀ {bag result : Bag}, bagOfEntries bag entries = .ok result →
      (result.count? name = some n ↔ GivesCount entries name n ∨
        (bag.count? name = some n ∧ ∀ entry ∈ entries, entry.1.display? ≠ some name)) := by
  induction entries with
  | nil =>
      rintro bag result ⟨⟩
      simp [GivesCount]
  | cons entry rest ih =>
      intro bag result hbag
      obtain ⟨key, datum⟩ := entry
      obtain ⟨spelled, m, hkey, hcount, hrest⟩ := bagOfEntries_cons_eq_ok_iff.mp hbag
      rw [ih hrest, givesCount_cons_iff, Bag.count?_put, or_assoc]
      refine or_congr_right ?_
      simp only [List.forall_mem_cons, hkey, hcount, Option.some.injEq, Except.ok.injEq]
      by_cases hname : name = spelled
      · subst hname
        simp
      · simp [hname, Ne.symm hname]

/-- **A bag has names below one only if they are given so.** -/
theorem mem_belowOne_iff_of_bagOf {datum : Datum} {bag : Bag} (hbag : bagOf datum = .ok bag)
    {name : Text} :
    name ∈ bag.belowOne ↔
      ∃ entries n, datum = .map entries ∧ GivesCount entries name n ∧ n < 1 := by
  have hnames := nodup_names_of_bagOf hbag
  by_cases hmap : ∃ entries, datum = .map entries
  · obtain ⟨entries, rfl⟩ := hmap
    rw [bagOf_map] at hbag
    have hcount : ∀ n, bag.count? name = some n ↔ GivesCount entries name n := by
      intro n
      rw [count?_eq_some_iff_of_bagOfEntries hbag]
      exact or_iff_left fun hempty => nomatch hempty.1
    simp only [Bag.mem_belowOne_iff hnames, hcount, Datum.map.injEq, exists_and_left,
      exists_eq_left']
  · have hnone : bag.belowOne = [] := by
      unfold bagOf at hbag
      split at hbag
      · cases hbag
        rfl
      · split at hbag
        · exact absurd ⟨_, rfl⟩ hmap
        · cases hbag
          rfl
        · obtain ⟨names, -, rfl⟩ := exists_of_map_eq_ok hbag
          exact Bag.belowOne_ofList names
        · cases hbag
    rw [hnone]
    simp only [List.not_mem_nil, false_iff]
    rintro ⟨entries, n, rfl, -⟩
    exact hmap ⟨entries, rfl⟩

theorem nodup_names_of_ofEntries {data : List (Datum × Datum)} {record : Record}
    (hrecord : ofEntries data = .ok record) : ∀ part ∈ record.bags, part.2.names.Nodup := by
  intro part hpart
  exact nodup_names_of_bagOf ((ofEntries_eq_ok_iff_bags.mp hrecord).2 part hpart)

/-- A bag that is missing in the data has no names, and so none below one. -/
theorem mem_belowOne_iff_of_ofEntries {data : List (Datum × Datum)} {record : Record}
    (hrecord : ofEntries data = .ok record) {part : String × Bag} (hpart : part ∈ record.bags)
    {name : Text} :
    name ∈ part.2.belowOne ↔ ∃ entries n,
      Datum.get? data part.1 = some (.map entries) ∧ GivesCount entries name n ∧ n < 1 := by
  rw [mem_belowOne_iff_of_bagOf ((ofEntries_eq_ok_iff_bags.mp hrecord).2 part hpart)]
  cases Datum.get? data part.1 <;> simp

/-- None of these names, nor the category, has a count below one in a bag of the record. -/
def CountsAll (record : Record) (names : Set Text) : Prop :=
  ∀ part ∈ record.bags, ∀ name, name ∈ names ∨ record.category = some name →
    name ∉ part.2.belowOne

theorem CountsAll.mono {record : Record} {names more : Set Text} (hcounts : record.CountsAll more)
    (hsubset : names ⊆ more) : record.CountsAll names := by
  intro part hpart name hname
  exact hcounts part hpart name (hname.imp_left (hsubset ·))

end Record

end Archetype
