import Archetype.Bag
import Archetype.Data.Count
import Archetype.Data.Display

/-!
Records: what is known of a deck when its type is looked for.
-/

namespace Archetype

structure Record where
  category : Option Text
  colors : Bag
  cards : Bag
  words : Bag
deriving DecidableEq, Repr, Inhabited

namespace Record

/-- Why data make no record. -/
inductive Fault where
  /-- A name whose count is no number, both as they stand in messages. -/
  | invalidCount (key count : String)
  | infiniteCount
  /-- A number or truth value stands where items are listed. -/
  | notItems (datum : Datum)
  /-- A number that has no text stands for a name or in a message. -/
  | noText

def Fault.message : Fault → String
  | .invalidCount key count => s!"计数无效: {key} -> {count}"
  | .infiniteCount => "cannot convert float infinity to integer"
  | .notItems datum => s!"'{datum.typeName}' object is not iterable"
  | .noText => Text.noTextMessage

/-- The text that a datum stands for. -/
def nameOf (datum : Datum) : Except Fault Text :=
  match datum.display? with
  | some name => .ok name
  | none => .error .noText

def invalidCount (key count : Datum) : Fault :=
  match key.literal?, count.literal? with
  | some key, some count => .invalidCount key count
  | _, _ => .noText

/-- Counts given by name. Names that are spelled alike are one name, with the last count. -/
def bagOfEntries (bag : Bag) : List (Datum × Datum) → Except Fault Bag
  | [] => .ok bag
  | (key, datum) :: rest =>
    match datum.count with
    | .ok n => do bagOfEntries (bag.put (← nameOf key) n) rest
    | .error .invalid => .error (invalidCount key datum)
    | .error .infinite => .error .infiniteCount

/-- The bag that a datum describes: counts by name, a list of names, one name, or nothing. -/
def bagOf (datum : Datum) : Except Fault Bag :=
  if datum.isEmpty then
    .ok .empty
  else
    match datum with
    | .map entries => bagOfEntries .empty entries
    | .text name => .ok (Bag.empty.put name 1)
    | .list items => (items.mapM nameOf).map Bag.ofList
    | _ => .error (.notItems datum)

/-- The category of a record goes by either of two names; the first wins even if it is null. -/
def categoryOf (data : List (Datum × Datum)) : Except Fault (Option Text) :=
  match (Datum.get? data "category").orElse fun _ => Datum.get? data "game_type" with
  | none | some .null => .ok none
  | some datum => (nameOf datum).map some

def ofEntries (data : List (Datum × Datum)) : Except Fault Record := do
  let bag (name : String) : Except Fault Bag := bagOf ((Datum.get? data name).getD .null)
  return {
    category := ← categoryOf data
    colors := ← bag "colors"
    cards := ← bag "cards"
    words := ← bag "words" }

def bagEntries (bag : Bag) : Datum :=
  .map (bag.entries.map fun (name, n) => (.text name, .int n))

/-- The data that describe a record. -/
def toEntries (record : Record) : List (Datum × Datum) :=
  [(.text "category", record.category.elim .null .text),
    (.text "colors", bagEntries record.colors),
    (.text "cards", bagEntries record.cards),
    (.text "words", bagEntries record.words)]

end Record

end Archetype
