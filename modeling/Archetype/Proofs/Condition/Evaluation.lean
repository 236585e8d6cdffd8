import Archetype.Condition.Checker

/-!
# Evaluating a condition without kinds

An interpreter for the tree of a condition. Nothing is known of an operand but its value, and every
operation looks at what it is given: an operand that it cannot take, a name that nothing bears and a
rule that is not there each end the evaluation. So a condition that evaluates to a value has met
none of them.
-/

namespace Archetype.Condition

/-- What conditions compute with. A text that is absent is `null`. -/
inductive Value where
  | null
  | bool (value : Bool)
  | int (value : Int)
  | text (value : Text)
  | bag (value : Bag)
deriving DecidableEq, Repr

/-- Why an evaluation goes wrong. -/
inductive Mishap where
  | wrongOperand
  | missingName (name : String)
  | unresolvedRule (name : String)
deriving DecidableEq, Repr

namespace Value

/-- Whether a value is of a kind. A text may be absent. -/
def isOf : Kind → Value → Bool
  | .bool, .bool _ => true
  | .int, .int _ => true
  | .text, .text _ | .text, .null => true
  | .bag, .bag _ => true
  | .null, .null => true
  | _, _ => false

def ofLiteral : Literal → Value
  | .null => .null
  | .bool value => .bool value
  | .number value => .int value
  | .text value => .text (Text.ofString value)

def asBool : Value → Except Mishap Bool
  | .bool value => .ok value
  | _ => .error .wrongOperand

def asInt : Value → Except Mishap Int
  | .int value => .ok value
  | _ => .error .wrongOperand

def asBag : Value → Except Mishap Bag
  | .bag value => .ok value
  | _ => .error .wrongOperand

/-- An item that bags are asked for: a text, or an absent one. -/
def asItem : Value → Except Mishap (Option Text)
  | .text value => .ok (some value)
  | .null => .ok none
  | _ => .error .wrongOperand

/-- Values are compared with values of their own sort, and texts with `null`; bags with none. -/
def equals : Value → Value → Except Mishap Bool
  | .null, .null => .ok true
  | .bool a, .bool b => .ok (a == b)
  | .int a, .int b => .ok (a == b)
  | .text a, .text b => .ok (a == b)
  | .null, .text _ | .text _, .null => .ok false
  | _, _ => .error .wrongOperand

/-- What an operator makes of its operands. The right one of a connective is looked at only if the
left one does not decide. -/
def combine (op : BinaryOp) (left : Value) (right : Except Mishap Value) : Except Mishap Value :=
  match op with
  | .and => do
    if ← left.asBool then return .bool (← (← right).asBool) else return .bool false
  | .or => do
    if ← left.asBool then return .bool true else return .bool (← (← right).asBool)
  | .eq => do return .bool (← left.equals (← right))
  | .ne => do return .bool (!(← left.equals (← right)))
  | .lt => do return .bool ((← left.asInt) < (← (← right).asInt))
  | .le => do return .bool ((← left.asInt) ≤ (← (← right).asInt))
  | .gt => do return .bool ((← left.asInt) > (← (← right).asInt))
  | .ge => do return .bool ((← left.asInt) ≥ (← (← right).asInt))
  | .add => do return .int ((← left.asInt) + (← (← right).asInt))
  | .sub => do return .int ((← left.asInt) - (← (← right).asInt))

end Value

/-- The part of a record that a name stands for. -/
def recordPart? (record : Record) (name : String) : Option Value :=
  match canonical name with
  | "category" | "gametype" => some (record.category.elim .null .text)
  | "colors" => some (.bag record.colors)
  | "cards" => some (.bag record.cards)
  | "words" => some (.bag record.words)
  | _ => none

/-- The numbers that a bag has without arguments. -/
def bagNumber? (bag : Bag) (name : String) : Option Int :=
  match canonical name with
  | "count" => some bag.distinct
  | "total" => some bag.total
  | _ => none

/-- One or more items. -/
def itemsOf (args : List Value) : Except Mishap (List (Option Text)) :=
  if args.isEmpty then .error .wrongOperand else args.mapM Value.asItem

/-- Exactly one item. -/
def itemOf : List Value → Except Mishap (Option Text)
  | [arg] => arg.asItem
  | _ => .error .wrongOperand

/-- How many of which items are wanted: a number in front of the items says it, otherwise one. -/
def wanted : List Value → Int × List Value
  | .int least :: rest => (least, rest)
  | args => (1, args)

/-- What a bag answers to a call with arguments. -/
def bagAnswer (bag : Bag) (name : String) (args : List Value) : Except Mishap Value :=
  match canonical name with
  | "contains" | "containsall" => do return .bool (bag.containsAll (← itemsOf args))
  | "containsany" => do
    return .bool (bag.containsAny (wanted args).1 (← itemsOf (wanted args).2))
  | "containskey" => do return .bool (bag.holds (← itemOf args))
  | "count" => do return .int (bag.countOf (← itemOf args))
  | _ => .error (.missingName name)

section Evaluation

/-! `refer` gives the value of the rule of a name. -/

variable (refer : String → Except Mishap Value) (record : Record)

mutual

/-- The value of a condition for a record. -/
def Expr.eval : Expr → Except Mishap Value
  | .literal _ value => .ok (.ofLiteral value)
  | .attribute _ name =>
    match recordPart? record name with
    | some part => .ok part
    | none => .error (.missingName name)
  | .property _ target name => do
    let bag ← (← target.eval).asBag
    match bagNumber? bag name with
    | some n => return .int n
    | none => throw (.missingName name)
  | .method _ target name args => do
    let bag ← (← target.eval).asBag
    let args ← evalAll args
    match args, bagNumber? bag name with
    | [], some n => return .int n
    | _, _ => bagAnswer bag name args
  | .index _ target key => do
    let bag ← (← target.eval).asBag
    return .int (bag.countOf (← (← key.eval).asItem))
  | .call _ name args =>
    if canonical name = "matches" then
      match ruleName? args with
      | some (rule, _) => refer rule
      | none => .error .wrongOperand
    else
      .error (.missingName name)
  | .not _ operand => do return .bool (!(← (← operand.eval).asBool))
  | .binary _ left op right => do (← left.eval).combine op right.eval

def evalAll : List Expr → Except Mishap (List Value)
  | [] => .ok []
  | expr :: rest => do
    let first ← expr.eval
    return first :: (← evalAll rest)

end

end Evaluation

/-- No rule can be referred to. -/
def noRules (name : String) : Except Mishap Value :=
  .error (.unresolvedRule name)

/-! ### Going through the nodes of a condition

Arguments stand in lists, so the induction on conditions is stated once with its arguments as the
members of a list. A reference is a leaf: the name of its rule is no part that is evaluated. -/

/-- Induction on the parts of a condition that are evaluated. -/
theorem Expr.induction {motive : Expr → Prop}
    (literal : ∀ offset value, motive (.literal offset value))
    (named : ∀ offset name, motive (.attribute offset name))
    (property : ∀ offset target name, motive target → motive (.property offset target name))
    (method : ∀ offset target name args, motive target → (∀ arg ∈ args, motive arg) →
      motive (.method offset target name args))
    (index : ∀ offset target key, motive target → motive key → motive (.index offset target key))
    (call : ∀ offset name args, motive (.call offset name args))
    (not : ∀ offset operand, motive operand → motive (.not offset operand))
    (binary : ∀ offset left op right, motive left → motive right →
      motive (.binary offset left op right)) (expr : Expr) : motive expr := by
  refine @Expr.rec motive (fun args => ∀ arg ∈ args, motive arg) literal named property method index
    (fun offset name args _ => call offset name args) not binary ?_ ?_ expr
  · intro arg hmem
    cases hmem
  · intro first rest hfirst hrest arg hmem
    rcases List.mem_cons.mp hmem with rfl | hmem
    · exact hfirst
    · exact hrest arg hmem

/-- The conditions right below a condition that are evaluated. -/
def Expr.children : Expr → List Expr
  | .literal _ _ | .attribute _ _ | .call _ _ _ => []
  | .property _ target _ => [target]
  | .method _ target _ args => target :: args
  | .index _ target key => [target, key]
  | .not _ operand => [operand]
  | .binary _ left _ right => [left, right]

/-- The first condition is the second or stands somewhere below it. -/
inductive Expr.IsPart : Expr → Expr → Prop
  | self (expr : Expr) : IsPart expr expr
  | inside {part child expr : Expr} : child ∈ expr.children → IsPart part child → IsPart part expr

end Archetype.Condition
