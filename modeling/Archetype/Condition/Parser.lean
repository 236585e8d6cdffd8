import Archetype.Condition.Expr
import Archetype.Condition.Token

/-!
Reading a condition from its tokens. From loosest to tightest bind `||`, `&&`, `!`, one comparison,
`+` and `-`, and the suffixes of an operand. The words `and`, `or` and `not` are operators too.

A condition nests at most `maxNesting` levels: itself, and one more for every parenthesis,
argument, index key and `!` around a place. The readers of one level are built from the reader of
the level below, so reading ends because the levels do. Loops inside a level run as often as there
are tokens.
-/

namespace Archetype.Condition

open Archetype.Text

/-- Why a condition cannot be read. A number that is too long is no issue of the condition: it
ends the reading of a whole outline. -/
inductive Failure where
  | issue (issue : Issue)
  | numberTooLong (digits : Nat)
deriving DecidableEq, Repr

/-- A reader takes what it needs from the front of the tokens and gives the rest back. -/
abbrev Reader (α : Type) := List Token → Except Failure (α × List Token)

def fail {α : Type} (cause : Cause) (offset : Nat) : Except Failure α :=
  .error (.issue ⟨cause, offset⟩)

/-- Words that stand for an operator, in any letter case. -/
def keyword? (name : String) : Option Symbol :=
  match name.toLower with
  | "and" => some .and
  | "or" => some .or
  | "not" => some .not
  | _ => none

/-- Words that stand for a value where an operand starts, in any letter case. -/
def reserved? (name : String) : Option Literal :=
  match name.toLower with
  | "true" => some (.bool true)
  | "false" => some (.bool false)
  | "null" => some .null
  | _ => none

def Token.symbol? (token : Token) : Option Symbol :=
  match token.lexeme with
  | .symbol symbol => some symbol
  | .word name => keyword? name
  | _ => none

def orOp? : Symbol → Option BinaryOp
  | .or => some .or
  | _ => none

def andOp? : Symbol → Option BinaryOp
  | .and => some .and
  | _ => none

def comparisonOp? : Symbol → Option BinaryOp
  | .eq => some .eq
  | .ne => some .ne
  | .lt => some .lt
  | .le => some .le
  | .gt => some .gt
  | .ge => some .ge
  | _ => none

def additiveOp? : Symbol → Option BinaryOp
  | .plus => some .add
  | .minus => some .sub
  | _ => none

/-- The operator in front of the tokens with its offset, if it is of the wanted class. -/
def operator? {α : Type} (accept : Symbol → Option α) : List Token → Option (α × Nat × List Token)
  | [] => none
  | token :: rest => (token.symbol?.bind accept).map (·, token.offset, rest)

/-- The tokens after a symbol that stands in front of them. -/
def past? (symbol : Symbol) : List Token → Option (List Token)
  | [] => none
  | token :: rest => if token.symbol? = some symbol then some rest else none

/-- An operand followed by any number of operators and operands, grouped to the left. -/
def chainFrom (op? : Symbol → Option BinaryOp) (operand : Reader Expr) :
    Nat → Expr → Reader Expr
  | 0, left, tokens => .ok (left, tokens)
  | fuel + 1, left, tokens =>
    match operator? op? tokens with
    | none => .ok (left, tokens)
    | some (op, offset, rest) => do
      let (right, rest) ← operand rest
      chainFrom op? operand fuel (.binary offset left op right) rest

def chain (op? : Symbol → Option BinaryOp) (operand : Reader Expr) : Reader Expr := fun tokens => do
  let (first, rest) ← operand tokens
  chainFrom op? operand rest.length first rest

/-- Below the levels of negation stand conjunctions, and below them disjunctions. -/
def disjunction (operand : Reader Expr) : Reader Expr :=
  chain orOp? (chain andOp? operand)

section Level

/-! Readers of one level: `stop` is the length of the condition, `nested` reads a whole condition
of the next level. -/

variable (stop : Nat) (nested : Reader Expr)

/-- Where the tokens start, or the end of the condition if none is left. -/
def offsetOf : List Token → Nat
  | [] => stop
  | token :: _ => token.offset

def expect (symbol : Symbol) (tokens : List Token) : Except Failure (List Token) :=
  match past? symbol tokens with
  | some rest => .ok rest
  | none =>
    fail (.expectedSymbol symbol (tokens.head?.map fun token => token.lexeme.shown))
      (offsetOf stop tokens)

/-- One or more arguments up to the closing parenthesis. -/
def argumentsFrom : Nat → Reader (List Expr)
  | 0, tokens => fail .expectedExpression (offsetOf stop tokens)
  | fuel + 1, tokens => do
    let (first, rest) ← nested tokens
    match past? .closeParen rest with
    | some rest => return ([first], rest)
    | none =>
      let rest ← expect stop .comma rest
      let (others, rest) ← argumentsFrom fuel rest
      return (first :: others, rest)

/-- The arguments after an opening parenthesis, up to the closing one. -/
def arguments : Reader (List Expr) := fun tokens =>
  match past? .closeParen tokens with
  | some rest => .ok ([], rest)
  | none => argumentsFrom stop nested (tokens.length + 1) tokens

def number (offset : Nat) (digits : List Char) : Except Failure Expr :=
  if digits.length > maxNumeralDigits then
    .error (.numberTooLong digits.length)
  else
    .ok (.literal offset (.number (numeralValue digits)))

/-- A word in front of an operand: a value, a call or an attribute. -/
def named (offset : Nat) (name : String) : Reader Expr := fun tokens =>
  match reserved? name with
  | some value => .ok (.literal offset value, tokens)
  | none =>
    match past? .openParen tokens with
    | some rest => do
      let (args, rest) ← arguments stop nested rest
      return (.call offset name args, rest)
    | none => .ok (.attribute offset name, tokens)

def primary : Reader Expr
  | [] => fail .expectedExpression stop
  | token :: rest =>
    match token.lexeme with
    | .number digits => do return (← number token.offset digits, rest)
    | .text value => .ok (.literal token.offset (.text value), rest)
    | .word name => named stop nested token.offset name rest
    | .symbol .openParen => do
      let (inner, rest) ← nested rest
      return (inner, ← expect stop .closeParen rest)
    | .symbol symbol => fail (.unexpectedToken symbol.text) token.offset

/-- The member of `target` that is named after a dot. -/
def member (target : Expr) : Reader Expr
  | [] => fail .expectedMemberName stop
  | token :: rest =>
    match token.lexeme with
    | .word name =>
      match past? .openParen rest with
      | some rest => do
        let (args, rest) ← arguments stop nested rest
        return (.method token.offset target name args, rest)
      | none => .ok (.property token.offset target name, rest)
    | _ => fail .expectedMemberName token.offset

/-- The entry of `target` whose key stands after an opening bracket. -/
def entry (target : Expr) : Reader Expr := fun tokens => do
  let (key, rest) ← nested tokens
  return (.index key.offset target key, ← expect stop .closeBracket rest)

def suffixesFrom : Nat → Expr → Reader Expr
  | 0, target, tokens => .ok (target, tokens)
  | fuel + 1, target, tokens =>
    match past? .dot tokens with
    | some rest => do
      let (next, rest) ← member stop nested target rest
      suffixesFrom fuel next rest
    | none =>
      match past? .openBracket tokens with
      | some rest => do
        let (next, rest) ← entry stop nested target rest
        suffixesFrom fuel next rest
      | none => .ok (target, tokens)

def operand : Reader Expr := fun tokens => do
  let (first, rest) ← primary stop nested tokens
  suffixesFrom stop nested rest.length first rest

def sum : Reader Expr :=
  chain additiveOp? (operand stop nested)

/-- At most one comparison: comparisons do not group. -/
def comparison : Reader Expr := fun tokens => do
  let (left, rest) ← sum stop nested tokens
  match operator? comparisonOp? rest with
  | none => return (left, rest)
  | some (op, offset, rest) =>
    let (right, rest) ← sum stop nested rest
    return (.binary offset left op right, rest)

/-- A comparison, or `!` before what `deeper` reads. -/
def negated (deeper : Reader Expr) : Reader Expr := fun tokens =>
  match tokens with
  | [] => comparison stop nested tokens
  | token :: rest =>
    if token.symbol? = some .not then do
      let (inner, rest) ← deeper rest
      return (.not token.offset inner, rest)
    else
      comparison stop nested tokens

end Level

/-- The most levels that a condition nests, itself included. -/
def maxNesting : Nat := 50

/-- The reader below the last level. -/
def tooDeep (stop : Nat) : Reader Expr := fun tokens =>
  fail .tooDeep (offsetOf stop tokens)

/-- An operand of a conjunction with `room` levels left below its own. -/
def negation (stop : Nat) : Nat → Reader Expr
  | 0 => negated stop (tooDeep stop) (tooDeep stop)
  | room + 1 => negated stop (disjunction (negation stop room)) (negation stop room)

/-- The condition that tokens spell, when they are followed by the end at offset `stop`. -/
def Expr.ofTokens (stop : Nat) (tokens : List Token) : Except Failure Expr := do
  let (expr, rest) ← disjunction (negation stop (maxNesting - 1)) tokens
  match rest with
  | [] => return expr
  | token :: _ => fail (.unexpectedToken token.lexeme.shown) token.offset

/-- The condition that a text spells. -/
def Expr.parse (text : String) : Except Failure Expr := do
  let chars := text.toList
  match tokenize chars with
  | .error issue => .error (.issue issue)
  | .ok tokens => Expr.ofTokens chars.length tokens

end Archetype.Condition
