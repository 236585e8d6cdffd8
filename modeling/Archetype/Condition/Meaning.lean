import Archetype.Condition.Expr
import Archetype.Condition.Issue
import Archetype.Record

/-!
Meanings of conditions: a kind, and a value of that kind for every record.
-/

namespace Archetype.Condition

/-- The values of a kind. A text may be absent, as the category of a record may. -/
abbrev Kind.Carrier : Kind → Type
  | .bool => Bool
  | .int => Int
  | .text => Option Text
  | .bag => Bag
  | .null => Unit

structure Meaning where
  kind : Kind
  value : Record → kind.Carrier

/-- What a condition says of a record. -/
abbrev Predicate := Record → Bool

/-- Names are compared without their low lines and in lower case. -/
def canonical (name : String) : String :=
  String.ofList ((name.toList.filter (· != '_')).map Char.toLower)

namespace Meaning

def ofLiteral : Literal → Meaning
  | .null => ⟨.null, fun _ => ()⟩
  | .bool value => ⟨.bool, fun _ => value⟩
  | .number value => ⟨.int, fun _ => value⟩
  | .text value => ⟨.text, fun _ => some (Text.ofString value)⟩

/-- The parts of a record that conditions can name. -/
def attribute? (name : String) : Option Meaning :=
  match canonical name with
  | "category" | "gametype" => some ⟨.text, Record.category⟩
  | "colors" => some ⟨.bag, Record.colors⟩
  | "cards" => some ⟨.bag, Record.cards⟩
  | "words" => some ⟨.bag, Record.words⟩
  | _ => none

/-- The bag that a meaning denotes, if it is of that kind. -/
def bag? : Meaning → Option (Record → Bag)
  | ⟨.bag, bag⟩ => some bag
  | _ => none

/-- Numbers that a bag has without arguments. -/
def property? (bag : Record → Bag) (name : String) : Option Meaning :=
  match canonical name with
  | "count" => some ⟨.int, fun record => (bag record).distinct⟩
  | "total" => some ⟨.int, fun record => (bag record).total⟩
  | _ => none

/-- The items that arguments denote, counted from `position`. All must be texts. -/
def textItems (name : String) : Nat → List Meaning → Except Cause (List (Record → Option Text))
  | _, [] => .ok []
  | position, ⟨.text, item⟩ :: rest => (textItems name (position + 1) rest).map (item :: ·)
  | position, ⟨kind, _⟩ :: _ => .error (.wrongItemKind position name kind)

/-- One or more items. -/
def items (name : String) (args : List Meaning) : Except Cause (List (Record → Option Text)) :=
  if args.isEmpty then .error (.missingItems name) else textItems name 1 args

/-- Exactly one item. -/
def item (name : String) (args : List Meaning) : Except Cause (Record → Option Text) :=
  match args with
  | [⟨.text, item⟩] => .ok item
  | [⟨kind, _⟩] => .error (.wrongItemKind 1 name kind)
  | _ => .error (.wrongArgumentCount name args.length)

/-- A number in front of the items says how many of them are wanted; otherwise it is one. -/
def leastAndItems : List Meaning → (Record → Int) × List Meaning
  | ⟨.int, least⟩ :: rest => (least, rest)
  | args => (fun _ => 1, args)

/-- What a bag answers to a method. -/
def method (bag : Record → Bag) (name : String) (args : List Meaning) : Except Cause Meaning :=
  match canonical name with
  | "contains" | "containsall" => do
    let items ← items name args
    return ⟨.bool, fun record => (bag record).containsAll (items.map (· record))⟩
  | "containsany" => do
    let (least, args) := leastAndItems args
    let items ← items name args
    return ⟨.bool, fun record => (bag record).containsAny (least record) (items.map (· record))⟩
  | "containskey" => do
    let item ← item name args
    return ⟨.bool, fun record => (bag record).holds (item record)⟩
  | "count" => do
    let item ← item name args
    return ⟨.int, fun record => (bag record).countOf (item record)⟩
  | _ => .error (.unknownMethod name)

/-- The count of an item in a bag. -/
def index (target key : Meaning) : Except Cause Meaning :=
  match target, key with
  | ⟨.bag, bag⟩, ⟨.text, item⟩ => .ok ⟨.int, fun record => (bag record).countOf (item record)⟩
  | ⟨.bag, _⟩, ⟨kind, _⟩ => .error (.wrongIndexKind kind)
  | ⟨kind, _⟩, _ => .error (.notIndexable kind)

def not : Meaning → Except Cause Meaning
  | ⟨.bool, operand⟩ => .ok ⟨.bool, fun record => !operand record⟩
  | ⟨kind, _⟩ => .error (.wrongOperand kind)

/-- Whether two meanings are equal. Bags are not compared; a text is compared with null by being
absent, and otherwise both sides are of one kind. -/
def equal? : Meaning → Meaning → Option Predicate
  | ⟨.bool, a⟩, ⟨.bool, b⟩ => some fun record => a record == b record
  | ⟨.int, a⟩, ⟨.int, b⟩ => some fun record => a record == b record
  | ⟨.text, a⟩, ⟨.text, b⟩ => some fun record => a record == b record
  | ⟨.null, _⟩, ⟨.null, _⟩ => some fun _ => true
  | ⟨.text, a⟩, ⟨.null, _⟩ => some fun record => (a record).isNone
  | ⟨.null, _⟩, ⟨.text, b⟩ => some fun record => (b record).isNone
  | _, _ => none

/-- Both sides as truth values. -/
def connect? (op : Bool → Bool → Bool) : Meaning → Meaning → Option Meaning
  | ⟨.bool, a⟩, ⟨.bool, b⟩ => some ⟨.bool, fun record => op (a record) (b record)⟩
  | _, _ => none

/-- Both sides as numbers that are compared. -/
def compare? (op : Int → Int → Bool) : Meaning → Meaning → Option Meaning
  | ⟨.int, a⟩, ⟨.int, b⟩ => some ⟨.bool, fun record => op (a record) (b record)⟩
  | _, _ => none

/-- Both sides as numbers that are computed with. -/
def compute? (op : Int → Int → Int) : Meaning → Meaning → Option Meaning
  | ⟨.int, a⟩, ⟨.int, b⟩ => some ⟨.int, fun record => op (a record) (b record)⟩
  | _, _ => none

def binary? : BinaryOp → Meaning → Meaning → Option Meaning
  | .and => connect? (· && ·)
  | .or => connect? (· || ·)
  | .eq => fun a b => (equal? a b).map fun equal => ⟨.bool, equal⟩
  | .ne => fun a b => (equal? a b).map fun equal => ⟨.bool, fun record => !equal record⟩
  | .lt => compare? fun a b => a < b
  | .le => compare? fun a b => a ≤ b
  | .gt => compare? fun a b => a > b
  | .ge => compare? fun a b => a ≥ b
  | .add => compute? (· + ·)
  | .sub => compute? (· - ·)

end Meaning

end Archetype.Condition
