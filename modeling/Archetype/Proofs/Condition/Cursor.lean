import Archetype.Proofs.Condition.Grammar

/-!
# Reading with a cursor

A parser that goes through a list of marks by a cursor: the place that it is at, and how many levels
it has entered. A call looks at the mark of its place, steps over tokens but never over the end, and
hands the cursor on to the calls that it makes. There is a call for each category of conditions and
one for arguments, and they call one another; the loops in them turn until a mark stops them.

Nothing here makes sure that the place is in the list, that a call leaves the levels that it enters
or that the calls come to an end. A place outside of the list is a halt of its own, and so is fuel
that has run out.
-/

namespace Archetype.Condition

/-- What stands in a list of tokens that has an end: a token, or the end at its offset. -/
inductive Mark where
  | token (token : Token)
  | stop (offset : Nat)
deriving DecidableEq, Repr

def Mark.offset : Mark → Nat
  | .token found => found.offset
  | .stop offset => offset

/-- A mark as messages show it; the end is not shown. -/
def Mark.shown : Mark → Option String
  | .token found => some found.lexeme.shown
  | .stop _ => none

/-- Tokens with the end behind them. -/
def ended (stop : Nat) (tokens : List Token) : List Mark :=
  tokens.map .token ++ [.stop stop]

structure Cursor where
  position : Nat
  depth : Nat
deriving DecidableEq, Repr

namespace Cursor

/-- Why a call gives no result: the marks are no condition, there is no mark at the place of the
cursor, or the fuel has run out. -/
inductive Halt where
  | failure (failure : Failure)
  | noMark
  | unfinished
deriving DecidableEq, Repr

/-- A call leaves its cursor somewhere, also if it halts. -/
abbrev Call (α : Type) := ExceptT Halt (StateM Cursor) α

def failAt {α : Type} (cause : Cause) (offset : Nat) : Call α :=
  throw (.failure (.issue ⟨cause, offset⟩))

/-- A result that does not depend on the cursor. -/
def settled {α : Type} : Except Failure α → Call α
  | .ok result => return result
  | .error failure => throw (.failure failure)

/-- The class of one symbol. -/
def only (symbol other : Symbol) : Option Unit :=
  if other = symbol then some () else none

section Marks

variable (marks : List Mark)

def peek : Call Mark := do
  match marks[(← get).position]? with
  | some mark => return mark
  | none => throw .noMark

/-- The mark at the cursor, which steps over it unless it is the end. -/
def advance : Call Mark := do
  let mark ← peek marks
  match mark with
  | .token _ => modify fun cursor => { cursor with position := cursor.position + 1 }
  | .stop _ => pure ()
  return mark

/-- Steps over an operator of the wanted class, if one is there. -/
def operator {α : Type} (accept : Symbol → Option α) : Call (Option (α × Nat)) := do
  match ← peek marks with
  | .stop _ => return none
  | .token token =>
    match token.symbol?.bind accept with
    | none => return none
    | some found =>
      let _ ← advance marks
      return some (found, token.offset)

/-- Steps over a symbol, if it is there. -/
def passes (symbol : Symbol) : Call Bool := do
  return (← operator marks (only symbol)).isSome

def need (symbol : Symbol) : Call Unit := do
  if ← passes marks symbol then
    return
  else
    let mark ← peek marks
    failAt (.expectedSymbol symbol mark.shown) mark.offset

/-- A call one level deeper. The level is left when the call has a result. -/
def within {α : Type} (call : Call α) : Call α := do
  modifyThe Cursor fun cursor => { cursor with depth := cursor.depth + 1 }
  if (← getThe Cursor).depth > maxNesting then
    failAt .tooDeep (← peek marks).offset
  else
    let result ← call
    modifyThe Cursor fun cursor => { cursor with depth := cursor.depth - 1 }
    return result

/-- The calls that a call can make. -/
structure Calls where
  expr : Category → Call Expr
  arguments : Call (List Expr)

/-- Operators and operands, grouped to the left, as long as there is an operator. -/
def chained (op? : Symbol → Option BinaryOp) (operand : Call Expr) : Nat → Expr → Call Expr
  | 0, _ => throw .unfinished
  | turns + 1, left => do
    match ← operator marks op? with
    | none => return left
    | some (op, offset) => chained op? operand turns (.binary offset left op (← operand))

variable (calls : Calls)

/-- The member that is named after a dot. -/
def memberOf (target : Expr) : Call Expr := do
  match ← advance marks with
  | .stop offset => failAt .expectedMemberName offset
  | .token token =>
    match token.lexeme with
    | .word name =>
      if ← passes marks .openParen then
        return .method token.offset target name (← calls.arguments)
      else
        return .property token.offset target name
    | _ => failAt .expectedMemberName token.offset

/-- The entry whose key stands after an opening bracket. -/
def entryOf (target : Expr) : Call Expr := do
  let key ← calls.expr .disjunction
  need marks .closeBracket
  return .index key.offset target key

def suffixed : Nat → Expr → Call Expr
  | 0, _ => throw .unfinished
  | turns + 1, target => do
    if ← passes marks .dot then
      suffixed turns (← memberOf marks calls target)
    else if ← passes marks .openBracket then
      suffixed turns (← entryOf marks calls target)
    else
      return target

/-- Arguments up to the closing parenthesis, behind those that are there already. -/
def listed : Nat → List Expr → Call (List Expr)
  | 0, _ => throw .unfinished
  | turns + 1, args => do
    let args := args ++ [← calls.expr .disjunction]
    if ← passes marks .closeParen then
      return args
    else
      need marks .comma
      listed turns args

/-- A word in front of an operand: a value, a call or an attribute. -/
def wordAt (offset : Nat) (name : String) : Call Expr := do
  match reserved? name with
  | some value => return .literal offset value
  | none =>
    if ← passes marks .openParen then
      return .call offset name (← calls.arguments)
    else
      return .attribute offset name

/-- What a call for a category does, whose loops have so many turns. -/
def body (turns : Nat) : Category → Call Expr
  | .disjunction => within marks do
    chained marks orOp? (calls.expr .conjunction) turns (← calls.expr .conjunction)
  | .conjunction => do
    chained marks andOp? (calls.expr .negation) turns (← calls.expr .negation)
  | .negation => do
    match ← operator marks (only .not) with
    | some (_, offset) => return .not offset (← within marks (calls.expr .negation))
    | none => calls.expr .comparison
  | .comparison => do
    let left ← calls.expr .sum
    match ← operator marks comparisonOp? with
    | some (op, offset) => return .binary offset left op (← calls.expr .sum)
    | none => return left
  | .sum => do
    chained marks additiveOp? (calls.expr .operand) turns (← calls.expr .operand)
  | .operand => do
    suffixed marks calls turns (← calls.expr .primary)
  | .primary => do
    match ← advance marks with
    | .stop offset => failAt .expectedExpression offset
    | .token token =>
      match token.lexeme with
      | .number digits => settled (number token.offset digits)
      | .text value => return .literal token.offset (.text value)
      | .word name => wordAt marks calls token.offset name
      | .symbol .openParen => do
        let inner ← calls.expr .disjunction
        need marks .closeParen
        return inner
      | .symbol symbol => failAt (.unexpectedToken symbol.text) token.offset

/-- What a call for arguments does, behind the opening parenthesis. -/
def argumentsBody (turns : Nat) : Call (List Expr) := do
  if ← passes marks .closeParen then
    return []
  else
    listed marks calls turns []

/-- The calls, for as much fuel. Each call leaves one less to the calls that it makes. -/
def run : Nat → Calls
  | 0 => ⟨fun _ => throw .unfinished, throw .unfinished⟩
  | fuel + 1 => ⟨body marks (run fuel) fuel, argumentsBody marks (run fuel) fuel⟩

/-- A whole condition, with nothing behind it. -/
def parse (fuel : Nat) : Call Expr := do
  let expr ← (run marks fuel).expr .disjunction
  match ← peek marks with
  | .stop _ => return expr
  | .token token => failAt (.unexpectedToken token.lexeme.shown) token.offset

end Marks

/-- Where the end is missing, the cursor leaves the list. -/
example : (match (parse [.token ⟨.word "a", 0⟩] 9).run.run ⟨0, 0⟩ with
    | (.error .noMark, cursor) => some cursor
    | _ => none) = some ⟨1, 1⟩ := by
  decide +kernel

end Cursor

end Archetype.Condition
