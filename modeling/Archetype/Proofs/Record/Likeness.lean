import Mathlib.Algebra.BigOperators.Group.List.Basic
import Mathlib.Data.List.Nodup
import Mathlib.Data.Set.Basic
import Archetype.Proofs.Entries
import Archetype.Record

/-!
# Records that are alike

A bag is asked how many names it holds, what their counts add up to, and whether and how often it
holds a name. Two bags that answer all of this alike for certain names cannot be told apart by them.
Bags with the same entries in another order cannot be told apart at all. Records are alike if they
are of one category and their bags are alike.
-/

namespace Archetype.Bag

/-- Two bags of the same sizes that agree on these names. -/
structure Alike (names : Set Text) (a b : Bag) : Prop where
  distinct : a.distinct = b.distinct
  total : a.total = b.total
  has : ∀ name ∈ names, a.has name = b.has name
  count : ∀ name ∈ names, a.count name = b.count name

section Queries

variable {names : Set Text} {a b : Bag}

theorem Alike.refl (names : Set Text) (bag : Bag) : Alike names bag bag :=
  ⟨rfl, rfl, fun _ _ => rfl, fun _ _ => rfl⟩

theorem Alike.mono {more : Set Text} (halike : Alike more a b) (hsubset : names ⊆ more) :
    Alike names a b where
  distinct := halike.distinct
  total := halike.total
  has name hname := halike.has name (hsubset hname)
  count name hname := halike.count name (hsubset hname)

variable (halike : Alike names a b)
include halike

theorem Alike.holds_eq {item : Option Text} (hitem : ∀ name ∈ item, name ∈ names) :
    a.holds item = b.holds item := by
  cases item with
  | none => rfl
  | some name => exact halike.has name (hitem name rfl)

theorem Alike.countOf_eq {item : Option Text} (hitem : ∀ name ∈ item, name ∈ names) :
    a.countOf item = b.countOf item := by
  cases item with
  | none => rfl
  | some name => exact halike.count name (hitem name rfl)

theorem Alike.containsAll_eq {items : List (Option Text)}
    (hitems : ∀ item ∈ items, ∀ name ∈ item, name ∈ names) :
    a.containsAll items = b.containsAll items := by
  unfold containsAll
  rw [Bool.eq_iff_iff, List.all_eq_true, List.all_eq_true]
  refine forall₂_congr fun item hitem => ?_
  rw [halike.holds_eq (hitems item hitem)]

theorem Alike.containsAny_eq {items : List (Option Text)} (least : Int)
    (hitems : ∀ item ∈ items, ∀ name ∈ item, name ∈ names) :
    a.containsAny least items = b.containsAny least items := by
  have hcount : items.countP a.holds = items.countP b.holds := by
    refine List.countP_congr fun item hitem => ?_
    rw [halike.holds_eq (hitems item hitem)]
  rw [containsAny, containsAny, hcount]

end Queries

/-! ### The order of entries -/

/-- The names of a bag in the order of its entries. -/
def names (bag : Bag) : List Text :=
  bag.entries.map (·.1)

theorem count?_eq_some_iff {bag : Bag} (hnames : bag.names.Nodup) {item : Text} {n : Int} :
    bag.count? item = some n ↔ (item, n) ∈ bag.entries := by
  unfold count? names at *
  generalize bag.entries = entries at *
  constructor
  · intro hlookup
    obtain ⟨before, after, rfl, -⟩ := List.lookup_eq_some_iff.mp hlookup
    simp
  · intro hmem
    obtain ⟨before, after, rfl⟩ := List.append_of_mem hmem
    refine List.lookup_eq_some_iff.mpr ⟨before, after, rfl, ?_⟩
    intro entry hentry
    rw [bne_iff_ne]
    rintro rfl
    rw [List.map_append, List.nodup_append] at hnames
    exact hnames.2.2 _ (List.mem_map_of_mem hentry) _ List.mem_cons_self rfl

/-- **Bags with the same entries in another order are alike under all names.** -/
theorem alike_of_perm {a b : Bag} (hnames : a.names.Nodup) (hperm : a.entries.Perm b.entries)
    (items : Set Text) : Alike items a b := by
  have hothers : b.names.Nodup := by
    rw [names, ← (hperm.map (·.1)).nodup_iff]
    exact hnames
  have hcounts : ∀ item, a.count? item = b.count? item := by
    intro item
    refine Option.ext fun n => ?_
    rw [count?_eq_some_iff hnames, count?_eq_some_iff hothers, hperm.mem_iff]
  have htotal : ∀ bag : Bag, bag.total = (bag.entries.map (·.2)).sum := by
    intro bag
    rw [List.sum, List.foldr_map]
    rfl
  refine ⟨hperm.length_eq, ?_, fun name _ => ?_, fun name _ => ?_⟩
  · rw [htotal, htotal]
    exact (hperm.map (·.2)).sum_eq
  · rw [has, has, hcounts]
  · rw [count, count, hcounts]

theorem map_fst_putEntry (item : Text) (n : Int) (entries : List (Text × Int)) :
    (putEntry item n entries).map (·.1) =
      if item ∈ entries.map (·.1) then entries.map (·.1) else entries.map (·.1) ++ [item] := by
  induction entries with
  | nil => rfl
  | cons entry rest ih =>
      obtain ⟨name, m⟩ := entry
      by_cases hname : name = item
      · simp [putEntry, hname]
      · have hother : item ≠ name := fun heq => hname heq.symm
        simp only [putEntry, if_neg hname, List.map_cons, ih, List.mem_cons, hother, false_or]
        split <;> rfl

theorem nodup_names_put {bag : Bag} (hnames : bag.names.Nodup) (item : Text) (n : Int) :
    (bag.put item n).names.Nodup := by
  rw [names, put, map_fst_putEntry]
  split
  · exact hnames
  · next hnew => exact List.nodup_append.mpr ⟨hnames, by simp, by
      intro name hname other hother
      rw [List.mem_singleton.mp hother]
      exact ne_of_mem_of_not_mem hname hnew⟩

theorem entries_put_of_notMem {bag : Bag} {item : Text} (hnew : item ∉ bag.names) (n : Int) :
    (bag.put item n).entries = bag.entries ++ [(item, n)] := by
  obtain ⟨entries⟩ := bag
  simp only [names, put] at hnew ⊢
  induction entries with
  | nil => rfl
  | cons entry rest ih =>
      obtain ⟨name, m⟩ := entry
      rw [List.map_cons, List.mem_cons, not_or] at hnew
      rw [putEntry, if_neg (Ne.symm hnew.1), ih hnew.2]
      rfl

theorem putEntry_eq_putFirst (item : Text) (n : Int) (entries : List (Text × Int)) :
    putEntry item n entries = putFirst item n entries := by
  induction entries with
  | nil => rfl
  | cons entry rest ih => rw [putEntry, putFirst, ih]

theorem count?_put (bag : Bag) (item other : Text) (n : Int) :
    (bag.put item n).count? other = if other = item then some n else bag.count? other := by
  rw [count?, put, putEntry_eq_putFirst, lookup_putFirst]
  rfl

/-- Items that are added one by one are counted. -/
theorem count?_foldl_add (items : List Text) : ∀ (bag : Bag) (item : Text),
    (items.foldl add bag).count? item =
      if item ∈ items then some (bag.count item + items.count item) else bag.count? item := by
  induction items with
  | nil => simp
  | cons first rest ih =>
      intro bag item
      rw [List.foldl_cons, ih, add, count?_put, count, count?_put]
      by_cases hfirst : item = first
      · subst hfirst
        by_cases hrest : item ∈ rest
        · simp [hrest]
          omega
        · simp [hrest, List.count_eq_zero_of_not_mem hrest]
      · simp [hfirst, count, List.count_cons_of_ne (Ne.symm hfirst)]

theorem nodup_names_foldl_add (items : List Text) : ∀ {bag : Bag}, bag.names.Nodup →
    (items.foldl add bag).names.Nodup := by
  induction items with
  | nil => exact fun hnames => hnames
  | cons first rest ih =>
      intro bag hnames
      exact ih (nodup_names_put hnames first _)

theorem nodup_names_ofList (items : List Text) : (ofList items).names.Nodup :=
  nodup_names_foldl_add items List.nodup_nil

/-- **The order of the items of a list does not matter to its bag.** -/
theorem perm_entries_ofList {items others : List Text} (hperm : items.Perm others) :
    (ofList items).entries.Perm (ofList others).entries := by
  have hnodup : ∀ items, (ofList items).entries.Nodup :=
    fun items => (nodup_names_ofList items).of_map _
  rw [List.perm_ext_iff_of_nodup (hnodup items) (hnodup others)]
  rintro ⟨item, n⟩
  rw [← count?_eq_some_iff (nodup_names_ofList items),
    ← count?_eq_some_iff (nodup_names_ofList others), ofList, ofList, count?_foldl_add,
    count?_foldl_add, hperm.count_eq]
  simp only [hperm.mem_iff]

end Archetype.Bag

namespace Archetype.Record

/-- Two records of one category whose bags agree on these names and on the category. -/
structure Alike (names : Set Text) (a b : Record) : Prop where
  category : a.category = b.category
  colors : Bag.Alike (names ∪ {name | a.category = some name}) a.colors b.colors
  cards : Bag.Alike (names ∪ {name | a.category = some name}) a.cards b.cards
  words : Bag.Alike (names ∪ {name | a.category = some name}) a.words b.words

theorem Alike.mono {names more : Set Text} {a b : Record} (halike : Alike more a b)
    (hsubset : names ⊆ more) : Alike names a b where
  category := halike.category
  colors := halike.colors.mono (Set.union_subset_union_left _ hsubset)
  cards := halike.cards.mono (Set.union_subset_union_left _ hsubset)
  words := halike.words.mono (Set.union_subset_union_left _ hsubset)

end Archetype.Record
