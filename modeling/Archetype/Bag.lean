import Archetype.Text.Basic

/-!
Bags: names with counts.
-/

namespace Archetype

/-- Names with their counts, in the order in which the names first came. A name is in the bag when
it has an entry, whatever its count. -/
structure Bag where
  entries : List (Text × Int)
deriving DecidableEq, Repr, Inhabited

namespace Bag

def empty : Bag := ⟨[]⟩

def count? (bag : Bag) (item : Text) : Option Int :=
  bag.entries.lookup item

def has (bag : Bag) (item : Text) : Bool :=
  (bag.count? item).isSome

/-- The count of an item, zero if it is not in the bag. -/
def count (bag : Bag) (item : Text) : Int :=
  (bag.count? item).getD 0

/-- How many names the bag holds. -/
def distinct (bag : Bag) : Nat :=
  bag.entries.length

/-- The sum of all counts. -/
def total (bag : Bag) : Int :=
  bag.entries.foldr (fun entry sum => entry.2 + sum) 0

/-- An absent item is in no bag. -/
def holds (bag : Bag) (item : Option Text) : Bool :=
  item.any bag.has

def countOf (bag : Bag) (item : Option Text) : Int :=
  item.elim 0 bag.count

def containsAll (bag : Bag) (items : List (Option Text)) : Bool :=
  items.all bag.holds

/-- Whether at least `least` of the items are in the bag; an item given twice counts twice. -/
def containsAny (bag : Bag) (least : Int) (items : List (Option Text)) : Bool :=
  least ≤ (items.countP bag.holds : Int)

def putEntry (item : Text) (n : Int) : List (Text × Int) → List (Text × Int)
  | [] => [(item, n)]
  | (name, m) :: rest =>
    if name = item then (name, n) :: rest else (name, m) :: putEntry item n rest

/-- Sets the count of an item; an item that is there already keeps its place. -/
def put (bag : Bag) (item : Text) (n : Int) : Bag :=
  ⟨putEntry item n bag.entries⟩

/-- Adds one more of an item. -/
def add (bag : Bag) (item : Text) : Bag :=
  bag.put item (bag.count item + 1)

/-- The bag of the items of a list. -/
def ofList (items : List Text) : Bag :=
  items.foldl add empty

end Bag

end Archetype
