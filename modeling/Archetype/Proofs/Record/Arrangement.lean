import Archetype.Proofs.Outcome
import Archetype.Proofs.Record.Likeness
import Mathlib.Data.List.Forall2
import Mathlib.Logic.Relation

/-!
# The order in which a record is given

The data of a record can be arranged in many ways: the entries of the record and of its bags can
come in any order, and so can the items of a list. None of this matters to what the bags hold. Names
of a bag that are spelled alike are an exception, since the last count of a name is the one that
stands.
-/

namespace Archetype

theorem Text.ofString_inj {s t : String} : Text.ofString s = .ofString t ↔ s = t := by
  constructor
  · intro heq
    have hstrings := congrArg Text.string? heq
    rwa [string?_ofString, string?_ofString, Option.some_inj] at hstrings
  · exact congrArg Text.ofString

namespace Datum

/-- A list with its items in another order, or a mapping with its entries in another order. No two
names of the mapping are spelled alike. -/
inductive Rearranged : Datum → Datum → Prop
  | list {items others : List Datum} (hperm : items.Perm others) :
      Rearranged (.list items) (.list others)
  | map {entries others : List (Datum × Datum)} (hperm : entries.Perm others)
      (hnames : (entries.map (·.1.display?)).Nodup) : Rearranged (.map entries) (.map others)

theorem sameKey_text {key : Datum} {text : Text} :
    key.sameKey (.text text) = true ↔ key = .text text := by
  cases key <;> simp [sameKey, integer?]

theorem get?_append (before after : List (Datum × Datum)) (name : String) :
    get? (before ++ after) name = (get? before name).or (get? after name) := by
  unfold get?
  rw [List.find?_append]
  cases before.find? _ <;> rfl

theorem get?_cons (key datum : Datum) (rest : List (Datum × Datum)) (name : String) :
    get? ((key, datum) :: rest) name =
      if key.sameKey (.text name) then some datum else get? rest name := by
  unfold get?
  rw [List.find?_cons]
  dsimp only
  cases key.sameKey (.text name) <;> rfl

theorem get?_eq_some_iff {data : List (Datum × Datum)} (hkeys : (data.map (·.1)).Nodup)
    {name : String} {datum : Datum} :
    get? data name = some datum ↔ (.text name, datum) ∈ data := by
  induction data with
  | nil => simp [get?]
  | cons entry rest ih =>
      obtain ⟨key, value⟩ := entry
      rw [List.map_cons, List.nodup_cons] at hkeys
      rw [get?_cons]
      split
      · next hsame =>
        rw [sameKey_text.mp hsame] at hkeys ⊢
        have hnot : (.text name, datum) ∉ rest :=
          fun hmem => hkeys.1 (List.mem_map.mpr ⟨_, hmem, rfl⟩)
        simp [hnot, eq_comm]
      · next hother =>
        have hkey : .text name ≠ key := fun heq => hother (sameKey_text.mpr heq.symm)
        simp [ih hkeys.2, hkey]

/-- The value of a name does not depend on the order of the entries. -/
theorem get?_eq_of_perm {data others : List (Datum × Datum)} (hkeys : (data.map (·.1)).Nodup)
    (hperm : data.Perm others) (name : String) : get? data name = get? others name := by
  have hother : (others.map (·.1)).Nodup := (hperm.map (·.1)).nodup_iff.mp hkeys
  refine Option.ext fun datum => ?_
  rw [get?_eq_some_iff hkeys, get?_eq_some_iff hother, hperm.mem_iff]

end Datum

namespace Record

theorem nameOf_eq_ok_iff {datum : Datum} {name : Text} :
    nameOf datum = .ok name ↔ datum.display? = some name := by
  unfold nameOf
  cases datum.display? <;> simp

/-- The names and counts that entries give, one after the other. -/
def Counts : List (Datum × Datum) → List (Text × Int) → Prop :=
  List.Forall₂ fun entry count => entry.1.display? = some count.1 ∧ entry.2.count = .ok count.2

theorem Counts.names_eq {entries : List (Datum × Datum)} {counts : List (Text × Int)}
    (hcounts : Counts entries counts) :
    entries.map (·.1.display?) = (counts.map (·.1)).map some := by
  induction hcounts with
  | nil => rfl
  | cons hfirst _ ih => simp only [List.map_cons, hfirst.1, ih]

theorem bagOfEntries_cons_eq_ok_iff {bag result : Bag} {key datum : Datum}
    {rest : List (Datum × Datum)} :
    bagOfEntries bag ((key, datum) :: rest) = .ok result ↔
      ∃ name n, key.display? = some name ∧ datum.count = .ok n ∧
        bagOfEntries (bag.put name n) rest = .ok result := by
  rw [bagOfEntries]
  constructor
  · intro hbag
    split at hbag
    · next n hcount =>
      obtain ⟨name, hname, hrest⟩ := exists_of_bind_eq_ok hbag
      exact ⟨name, n, nameOf_eq_ok_iff.mp hname, hcount, hrest⟩
    · cases hbag
    · cases hbag
  · rintro ⟨name, n, hname, hcount, hrest⟩
    rw [hcount]
    dsimp only
    rw [nameOf_eq_ok_iff.mpr hname]
    exact hrest

/-- **Entries with names of their own give a bag of just these names and counts.** -/
theorem bagOfEntries_eq_ok_iff {entries : List (Datum × Datum)} : ∀ {bag result : Bag},
    (bag.names.map some ++ entries.map (·.1.display?)).Nodup →
      (bagOfEntries bag entries = .ok result ↔
        ∃ counts, Counts entries counts ∧ result = ⟨bag.entries ++ counts⟩) := by
  induction entries with
  | nil =>
      intro bag result _
      constructor
      · rintro ⟨⟩
        exact ⟨[], .nil, by rw [List.append_nil]⟩
      · rintro ⟨_, ⟨⟩, rfl⟩
        rw [List.append_nil]
        rfl
  | cons entry rest ih =>
      intro bag result hnames
      obtain ⟨key, datum⟩ := entry
      have hput : ∀ {name : Text} (n : Int), key.display? = some name →
          bag.put name n = ⟨bag.entries ++ [(name, n)]⟩ ∧
            ((bag.put name n).names.map some ++ rest.map (·.1.display?)).Nodup := by
        intro name n hname
        rw [List.map_cons, hname] at hnames
        have hnew : name ∉ bag.names := fun hmem =>
          (List.nodup_append.mp hnames).2.2 _ (List.mem_map_of_mem hmem) _ List.mem_cons_self rfl
        have hentries := Bag.entries_put_of_notMem hnew n
        refine ⟨congrArg Bag.mk hentries, ?_⟩
        rw [Bag.names, hentries]
        simpa [Bag.names] using hnames
      rw [bagOfEntries_cons_eq_ok_iff]
      constructor
      · rintro ⟨name, n, hname, hcount, hrest⟩
        obtain ⟨heq, hnodup⟩ := hput n hname
        obtain ⟨counts, hcounts, rfl⟩ := (ih hnodup).mp hrest
        refine ⟨(name, n) :: counts, .cons ⟨hname, hcount⟩ hcounts, ?_⟩
        rw [heq, List.append_assoc]
        rfl
      · rintro ⟨counts, hcounts, rfl⟩
        cases hcounts with
        | cons hfirst hrest =>
            obtain ⟨heq, hnodup⟩ := hput _ hfirst.1
            refine ⟨_, _, hfirst.1, hfirst.2, (ih hnodup).mpr ⟨_, hrest, ?_⟩⟩
            rw [heq, List.append_assoc]
            rfl

theorem bagOf_list (items : List Datum) :
    bagOf (.list items) = (items.mapM nameOf).map Bag.ofList := by
  cases items <;> rfl

theorem bagOf_map (entries : List (Datum × Datum)) :
    bagOf (.map entries) = bagOfEntries .empty entries := by
  cases entries <;> rfl

theorem bagOf_map_eq_ok_iff {entries : List (Datum × Datum)}
    (hnames : (entries.map (·.1.display?)).Nodup) {bag : Bag} :
    bagOf (.map entries) = .ok bag ↔ ∃ counts, Counts entries counts ∧ bag = ⟨counts⟩ := by
  rw [bagOf_map]
  exact bagOfEntries_eq_ok_iff hnames

/-- **A bag does not depend on the order in which it is given.** -/
theorem exists_alike_bagOf {datum other : Datum} (hdatum : datum.Rearranged other) {bag : Bag}
    (hbag : bagOf datum = .ok bag) :
    ∃ twin, bagOf other = .ok twin ∧ ∀ names, Bag.Alike names bag twin := by
  cases hdatum with
  | @list items others hperm =>
      rw [bagOf_list] at hbag
      obtain ⟨names, hnames, rfl⟩ := exists_of_map_eq_ok hbag
      obtain ⟨spelled, hspelled, hsame⟩ :=
        List.perm_comp_forall₂ hperm.symm (mapM_eq_ok_iff.mp hnames)
      refine ⟨Bag.ofList spelled, ?_, ?_⟩
      · rw [bagOf_list, mapM_eq_ok_iff.mpr hspelled]
        rfl
      · exact Bag.alike_of_perm (Bag.nodup_names_ofList names) (Bag.perm_entries_ofList hsame.symm)
  | @map entries others hperm hnames =>
      have hothers : (others.map (·.1.display?)).Nodup := (hperm.map _).nodup_iff.mp hnames
      rw [bagOf_map_eq_ok_iff hnames] at hbag
      obtain ⟨counts, hcounts, rfl⟩ := hbag
      obtain ⟨twins, htwins, hsame⟩ := List.perm_comp_forall₂ hperm.symm hcounts
      refine ⟨⟨twins⟩, ?_, ?_⟩
      · exact (bagOf_map_eq_ok_iff hothers).mpr ⟨twins, htwins, rfl⟩
      · refine Bag.alike_of_perm ?_ hsame.symm
        rw [Counts.names_eq hcounts] at hnames
        exact hnames.of_map some

/-! ### Records -/

/-- The names of the bags of a record in its data. -/
def bagNames : List String :=
  ["colors", "cards", "words"]

/-- The entries of a record in another order, or one of its bags in another arrangement. -/
inductive Rearranges : List (Datum × Datum) → List (Datum × Datum) → Prop
  | entries {data others : List (Datum × Datum)} (hperm : data.Perm others)
      (hkeys : (data.map (·.1)).Nodup) : Rearranges data others
  | bag {before after : List (Datum × Datum)} {name : String} {datum other : Datum}
      (hname : name ∈ bagNames) (hdatum : datum.Rearranged other) :
      Rearranges (before ++ (.text name, datum) :: after) (before ++ (.text name, other) :: after)

theorem ofEntries_eq_ok_iff {data : List (Datum × Datum)} {record : Record} :
    ofEntries data = .ok record ↔ categoryOf data = .ok record.category ∧
      bagOf ((Datum.get? data "colors").getD .null) = .ok record.colors ∧
      bagOf ((Datum.get? data "cards").getD .null) = .ok record.cards ∧
      bagOf ((Datum.get? data "words").getD .null) = .ok record.words := by
  unfold ofEntries
  constructor
  · intro hok
    obtain ⟨category, hcategory, hok⟩ := exists_of_bind_eq_ok hok
    obtain ⟨colors, hcolors, hok⟩ := exists_of_bind_eq_ok hok
    obtain ⟨cards, hcards, hok⟩ := exists_of_bind_eq_ok hok
    obtain ⟨words, hwords, hok⟩ := exists_of_bind_eq_ok hok
    cases hok
    exact ⟨hcategory, hcolors, hcards, hwords⟩
  · rintro ⟨hcategory, hcolors, hcards, hwords⟩
    dsimp only
    rw [hcategory, ok_bind, hcolors, ok_bind, hcards, ok_bind, hwords, ok_bind]
    rfl

theorem get?_of_rearranges {data others : List (Datum × Datum)} (hdata : Rearranges data others)
    (name : String) : Datum.get? others name = Datum.get? data name ∨
      name ∈ bagNames ∧ ∃ datum other, Datum.get? data name = some datum ∧
        Datum.get? others name = some other ∧ datum.Rearranged other := by
  cases hdata with
  | entries hperm hkeys => exact .inl (Datum.get?_eq_of_perm hkeys hperm name).symm
  | @bag before after key datum other hname hdatum =>
      rw [Datum.get?_append, Datum.get?_append, Datum.get?_cons, Datum.get?_cons]
      cases Datum.get? before name with
      | some found => exact .inl rfl
      | none =>
          split
          · next hsame =>
            have hkey : key = name :=
              Text.ofString_inj.mp (Datum.text.inj (Datum.sameKey_text.mp hsame))
            exact .inr ⟨hkey ▸ hname, datum, other, rfl, rfl, hdatum⟩
          · exact .inl rfl

theorem exists_alike_bag {data others : List (Datum × Datum)} (hdata : Rearranges data others)
    {name : String} {bag : Bag} (hbag : bagOf ((Datum.get? data name).getD .null) = .ok bag) :
    ∃ twin, bagOf ((Datum.get? others name).getD .null) = .ok twin ∧
      ∀ names, Bag.Alike names bag twin := by
  rcases get?_of_rearranges hdata name with heq | ⟨-, datum, other, hdatum, hother, hsame⟩
  · rw [heq]
    exact ⟨bag, hbag, fun names => .refl names bag⟩
  · rw [hdatum] at hbag
    rw [hother]
    exact exists_alike_bagOf hsame hbag

theorem categoryOf_of_rearranges {data others : List (Datum × Datum)}
    (hdata : Rearranges data others) : categoryOf others = categoryOf data := by
  have hget : ∀ name, name ∉ bagNames → Datum.get? others name = Datum.get? data name :=
    fun name hname => (get?_of_rearranges hdata name).resolve_right fun hbag => hname hbag.1
  rw [categoryOf, categoryOf, hget "category" (by decide), hget "game_type" (by decide)]

/-- **A record does not depend on the order in which it is given.** -/
theorem exists_alike_of_rearranges {data others : List (Datum × Datum)}
    (hdata : Rearranges data others) {record : Record} (hrecord : ofEntries data = .ok record) :
    ∃ twin, ofEntries others = .ok twin ∧ ∀ names, Alike names record twin := by
  obtain ⟨hcategory, hcolors, hcards, hwords⟩ := ofEntries_eq_ok_iff.mp hrecord
  obtain ⟨colors, hcolors, halike⟩ := exists_alike_bag hdata hcolors
  obtain ⟨cards, hcards, halike'⟩ := exists_alike_bag hdata hcards
  obtain ⟨words, hwords, halike''⟩ := exists_alike_bag hdata hwords
  rw [← categoryOf_of_rearranges hdata] at hcategory
  refine ⟨⟨record.category, colors, cards, words⟩, ?_, ?_⟩
  · exact ofEntries_eq_ok_iff.mpr ⟨hcategory, hcolors, hcards, hwords⟩
  · exact fun names => ⟨rfl, halike _, halike' _, halike'' _⟩

end Record

end Archetype
