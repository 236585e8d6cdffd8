import Mathlib.Data.Finset.Card
import Mathlib.Data.List.Induction
import Archetype.Proofs.Record.Arrangement

/-!
# The normal form of records

A bag can be described in several ways: by counts, by a list of names, by one name or by nothing.
All of them end as counts by name, each name once, and a record that is written out as such counts
is read back as it was. A list of names stands for its tally: the different names in the order in
which they first come, each with the number of its occurrences.
-/

namespace Archetype

namespace Bag

theorem nodup_names_empty : empty.names.Nodup :=
  List.nodup_nil

theorem names_put (bag : Bag) (item : Text) (n : Int) :
    (bag.put item n).names = if item ∈ bag.names then bag.names else bag.names ++ [item] :=
  map_fst_putEntry item n bag.entries

/-- A bag is told by its names in their order and the count of each. -/
theorem entries_eq_map_names {bag : Bag} (hnames : bag.names.Nodup) :
    bag.entries = bag.names.map fun name => (name, bag.count name) := by
  rw [names, List.map_map]
  conv_lhs => rw [← List.map_id bag.entries]
  refine List.map_congr_left fun entry hentry => ?_
  have hcount : bag.count? entry.1 = some entry.2 := (count?_eq_some_iff hnames).mpr hentry
  simp [count, hcount]

/-! ### Counting the items of a list -/

/-- The different items of a list in the order in which they first come, with their numbers. -/
def tally (items : List Text) : List (Text × Int) :=
  items.eraseDups.map fun item => (item, (items.count item : Int))

theorem names_ofList (items : List Text) : (ofList items).names = items.eraseDups := by
  induction items using List.reverseRecOn with
  | nil => simp [ofList, empty, names]
  | append_singleton items item ih =>
      have hadd : ofList (items ++ [item]) = (ofList items).add item := by simp [ofList]
      rw [hadd, add, names_put, ih, List.eraseDups_append]
      by_cases hitem : item ∈ items
      · simp [hitem, List.removeAll]
      · simp [hitem, List.removeAll, List.eraseDups_cons]

theorem count_ofList {item : Text} {items : List Text} (hitem : item ∈ items) :
    (ofList items).count item = items.count item := by
  rw [count, ofList, count?_foldl_add, if_pos hitem]
  simp [count, count?, empty]

/-- **A list is counted in the order of first occurrence.** -/
theorem entries_ofList (items : List Text) : (ofList items).entries = tally items := by
  rw [entries_eq_map_names (nodup_names_ofList items), names_ofList, tally]
  refine List.map_congr_left fun item hitem => ?_
  rw [count_ofList (List.mem_eraseDups.mp hitem)]

theorem distinct_ofList (items : List Text) :
    (ofList items).distinct = items.toFinset.card := by
  have hnodup : items.eraseDups.Nodup := names_ofList items ▸ nodup_names_ofList items
  have hset : items.eraseDups.toFinset = items.toFinset := by
    ext item
    simp
  calc (ofList items).distinct
      = items.eraseDups.length := by rw [distinct, entries_ofList, tally, List.length_map]
    _ = items.eraseDups.toFinset.card := (List.toFinset_card_of_nodup hnodup).symm
    _ = items.toFinset.card := by rw [hset]

theorem total_put (bag : Bag) (item : Text) (n : Int) :
    (bag.put item n).total = bag.total - bag.count item + n := by
  obtain ⟨entries⟩ := bag
  simp only [put, total, count, count?]
  induction entries with
  | nil => simp [putEntry]
  | cons entry rest ih =>
      obtain ⟨name, m⟩ := entry
      rw [putEntry, lookup_cons_eq_ite]
      by_cases hname : name = item
      · simp [hname]
        omega
      · have hother : item ≠ name := Ne.symm hname
        simp only [if_neg hname, if_neg hother, List.foldr_cons, ih]
        omega

theorem total_foldl_add (items : List Text) : ∀ bag : Bag,
    (items.foldl add bag).total = bag.total + items.length := by
  induction items with
  | nil => simp
  | cons item rest ih =>
      intro bag
      rw [List.foldl_cons, ih, add, total_put, List.length_cons]
      push_cast
      omega

theorem total_ofList (items : List Text) : (ofList items).total = items.length := by
  rw [ofList, total_foldl_add]
  simp [empty, total]

end Bag

namespace Datum

theorem get?_put (data : List (Datum × Datum)) (key name : String) (value : Datum) :
    get? (put data (.text key) value) name = if key = name then some value else get? data name := by
  have hkey : (Datum.text key).sameKey (.text name) = true ↔ key = name := by
    rw [sameKey_text, Datum.text.injEq, Text.ofString_inj]
  induction data with
  | nil =>
      rw [put, get?_cons]
      simp only [hkey]
  | cons entry rest ih =>
      obtain ⟨k, old⟩ := entry
      rw [put]
      by_cases hsame : k.sameKey (.text key) = true
      · rw [if_pos hsame, get?_cons, get?_cons, sameKey_text.mp hsame]
        simp only [hkey]
        by_cases hname : key = name <;> simp [hname]
      · rw [if_neg hsame, get?_cons, get?_cons, ih]
        by_cases hname : k.sameKey (.text name) = true
        · have hother : key ≠ name := fun heq => hsame (heq ▸ hname)
          simp [hname, hother]
        · simp [hname]

end Datum

namespace Record

/-! ### What is read is in normal form -/

theorem nodup_names_of_bagOfEntries {entries : List (Datum × Datum)} : ∀ {bag result : Bag},
    bag.names.Nodup → bagOfEntries bag entries = .ok result → result.names.Nodup := by
  induction entries with
  | nil =>
      rintro bag result hnames ⟨⟩
      exact hnames
  | cons entry rest ih =>
      intro bag result hnames hbag
      obtain ⟨name, n, -, -, hrest⟩ := bagOfEntries_cons_eq_ok_iff.mp hbag
      exact ih (Bag.nodup_names_put hnames name n) hrest

/-- Whatever describes a bag, each name has one count in it. -/
theorem nodup_names_of_bagOf {datum : Datum} {bag : Bag} (hbag : bagOf datum = .ok bag) :
    bag.names.Nodup := by
  unfold bagOf at hbag
  split at hbag
  · cases hbag
    exact List.nodup_nil
  · split at hbag
    · exact nodup_names_of_bagOfEntries Bag.nodup_names_empty hbag
    · cases hbag
      exact Bag.nodup_names_put Bag.nodup_names_empty _ _
    · obtain ⟨names, -, rfl⟩ := exists_of_map_eq_ok hbag
      exact Bag.nodup_names_ofList names
    · cases hbag

/-- **A bag that is written out is read back**, in the same order. -/
theorem bagOf_bagEntries {bag : Bag} (hnames : bag.names.Nodup) :
    bagOf (bagEntries bag) = .ok bag := by
  have hspelled : ((bag.entries.map fun entry => (Datum.text entry.1, Datum.int entry.2)).map
      (·.1.display?)).Nodup := by
    have hmap : (bag.entries.map fun entry => (Datum.text entry.1, Datum.int entry.2)).map
        (·.1.display?) = bag.names.map some := by
      simp [Bag.names, Datum.display?]
    rw [hmap]
    exact hnames.map (Option.some_injective _)
  apply (bagOf_map_eq_ok_iff hspelled).mpr
  refine ⟨bag.entries, ?_, rfl⟩
  rw [Counts, List.forall₂_map_left_iff]
  exact List.forall₂_same.mpr fun entry _ => ⟨rfl, rfl⟩

theorem categoryOf_toEntries (record : Record) :
    categoryOf (toEntries record) = .ok record.category := by
  have hget : Datum.get? (toEntries record) "category" =
      some (record.category.elim .null .text) := rfl
  rw [categoryOf, hget]
  cases record.category <;> rfl

/-- The bags of a record by their names in its data. -/
def bags (record : Record) : List (String × Bag) :=
  [("colors", record.colors), ("cards", record.cards), ("words", record.words)]

theorem ofEntries_eq_ok_iff_bags {data : List (Datum × Datum)} {record : Record} :
    ofEntries data = .ok record ↔ categoryOf data = .ok record.category ∧
      ∀ part ∈ record.bags, bagOf ((Datum.get? data part.1).getD .null) = .ok part.2 := by
  rw [ofEntries_eq_ok_iff, bags, List.forall_mem_cons, List.forall_mem_cons,
    List.forall_mem_singleton]

theorem get?_toEntries {record : Record} {part : String × Bag} (hpart : part ∈ record.bags) :
    Datum.get? (toEntries record) part.1 = some (bagEntries part.2) := by
  simp only [bags, List.mem_cons, List.not_mem_nil, or_false] at hpart
  obtain rfl | rfl | rfl := hpart <;>
    simp [toEntries, Datum.get?_cons, Datum.sameKey_text, Text.ofString_inj]

theorem ofEntries_toEntries {data : List (Datum × Datum)} {record : Record}
    (hrecord : ofEntries data = .ok record) : ofEntries (toEntries record) = .ok record := by
  obtain ⟨-, hbags⟩ := ofEntries_eq_ok_iff_bags.mp hrecord
  refine ofEntries_eq_ok_iff_bags.mpr ⟨categoryOf_toEntries record, fun part hpart => ?_⟩
  rw [get?_toEntries hpart]
  exact bagOf_bagEntries (nodup_names_of_bagOf (hbags part hpart))

/-! ### Lists and their tallies -/

/-- The mapping from the different names of a list to their numbers. -/
def tallied (names : List Text) : Datum :=
  .map (names.eraseDups.map fun name => (.text name, .int (names.count name)))

theorem tallied_eq_bagEntries (names : List Text) : tallied names = bagEntries (.ofList names) := by
  simp [tallied, bagEntries, Bag.entries_ofList, Bag.tally]

theorem bagOf_tallied (names : List Text) : bagOf (tallied names) = .ok (.ofList names) := by
  rw [tallied_eq_bagEntries]
  exact bagOf_bagEntries (Bag.nodup_names_ofList names)

theorem exists_names_of_bagOf_list {items : List Datum} {bag : Bag}
    (hbag : bagOf (.list items) = .ok bag) :
    ∃ names, items.map Datum.display? = names.map some ∧ bag = .ofList names := by
  rw [bagOf_list] at hbag
  obtain ⟨names, hnames, rfl⟩ := exists_of_map_eq_ok hbag
  refine ⟨names, ?_, rfl⟩
  rw [← List.forall₂_eq_eq_eq, List.forall₂_map_left_iff, List.forall₂_map_right_iff]
  exact (mapM_eq_ok_iff.mp hnames).imp fun _ _ => nameOf_eq_ok_iff.mp

/-- A bag that is described otherwise leaves the rest of the record as it is. -/
theorem ofEntries_put {data : List (Datum × Datum)} {record : Record}
    (hrecord : ofEntries data = .ok record) {part : String × Bag} (hpart : part ∈ record.bags)
    {datum : Datum} (hdatum : bagOf datum = .ok part.2) :
    ofEntries (Datum.put data (.text part.1) datum) = .ok record := by
  obtain ⟨hcategory, hbags⟩ := ofEntries_eq_ok_iff_bags.mp hrecord
  have hname : part.1 ∈ bagNames := by
    simp only [bags, List.mem_cons, List.not_mem_nil, or_false] at hpart
    obtain rfl | rfl | rfl := hpart <;> simp [bagNames]
  refine ofEntries_eq_ok_iff_bags.mpr ⟨?_, fun other hother => ?_⟩
  · have hget : ∀ name, name ∉ bagNames →
        Datum.get? (Datum.put data (.text part.1) datum) name = Datum.get? data name := by
      intro name hnot
      rw [Datum.get?_put, if_neg (ne_of_mem_of_not_mem hname hnot)]
    rw [← hcategory, categoryOf, categoryOf, hget "category" (by decide),
      hget "game_type" (by decide)]
  · rw [Datum.get?_put]
    by_cases hsame : part.1 = other.1
    · have hbag : part.2 = other.2 := by
        simp only [bags, List.mem_cons, List.not_mem_nil, or_false] at hpart hother
        obtain rfl | rfl | rfl := hpart <;> obtain rfl | rfl | rfl := hother <;>
          simp at hsame ⊢
      rw [if_pos hsame, ← hbag]
      exact hdatum
    · rw [if_neg hsame]
      exact hbags other hother

/-- **Records are read into a normal form.** What was read is written out and read back as it was,
order and all. A bag may be given by the tally of its list instead, which has as many entries as
there are different names and adds up to the length of the list. -/
theorem ofEntries_normal {data : List (Datum × Datum)} {record : Record}
    (hrecord : ofEntries data = .ok record) :
    ofEntries (toEntries record) = .ok record ∧
    ∀ part ∈ record.bags, ∀ items, Datum.get? data part.1 = some (.list items) →
      ∃ names, items.map Datum.display? = names.map some ∧
        ofEntries (Datum.put data (.text part.1) (tallied names)) = .ok record ∧
        part.2.total = items.length ∧ part.2.distinct = names.toFinset.card := by
  refine ⟨ofEntries_toEntries hrecord, ?_⟩
  intro part hpart items hitems
  obtain ⟨-, hbags⟩ := ofEntries_eq_ok_iff_bags.mp hrecord
  have hbag := hbags part hpart
  rw [hitems, Option.getD_some] at hbag
  obtain ⟨names, hnames, heq⟩ := exists_names_of_bagOf_list hbag
  have hlength : items.length = names.length := by simpa using congrArg List.length hnames
  refine ⟨names, hnames, ?_, ?_, ?_⟩
  · apply ofEntries_put hrecord hpart
    rw [heq]
    exact bagOf_tallied names
  · rw [heq, Bag.total_ofList, hlength]
  · rw [heq, Bag.distinct_ofList]

/-- A number and its text are one name in a list, and so they are in a mapping. -/
theorem ofEntries_normal_of_mixed_items :
    ∃ data items, ∃ record : Record,
      record.colors = ⟨[("W", 2), ("1", 2)]⟩ ∧ record.cards = ⟨[("7", 1)]⟩ ∧
      ofEntries data = .ok record ∧ ("colors", record.colors) ∈ record.bags ∧
      Datum.get? data "colors" = some (.list items) ∧
      ofEntries (toEntries record) = .ok record ∧
      ∃ names, items.map Datum.display? = names.map some ∧
        ofEntries (Datum.put data (.text "colors") (tallied names)) = .ok record ∧
        record.colors.total = items.length ∧ record.colors.distinct = names.toFinset.card := by
  have hread : ofEntries
      [(.text "colors", .list [.text "W", .int 1, .text "1", .text "W"]),
        (.text "cards", .map [(.int 7, .text " 2"), (.text "7", .bool true)])] =
      .ok ⟨none, ⟨[("W", 2), ("1", 2)]⟩, ⟨[("7", 1)]⟩, .empty⟩ := by
    apply eq_ok_of_toOption
    decide +kernel
  obtain ⟨hagain, hlists⟩ := ofEntries_normal hread
  exact ⟨_, _, _, rfl, rfl, hread, List.mem_cons_self, rfl, hagain,
    hlists _ List.mem_cons_self _ rfl⟩

end Record

end Archetype
