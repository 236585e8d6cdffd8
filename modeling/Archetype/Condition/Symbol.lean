/-!
Operators and punctuation of conditions.
-/

namespace Archetype.Condition

inductive Symbol where
  | and | or | not
  | eq | ne | lt | le | gt | ge
  | plus | minus
  | openParen | closeParen | openBracket | closeBracket | comma | dot
deriving DecidableEq, Repr

def Symbol.text : Symbol → String
  | .and => "&&"
  | .or => "||"
  | .not => "!"
  | .eq => "=="
  | .ne => "!="
  | .lt => "<"
  | .le => "<="
  | .gt => ">"
  | .ge => ">="
  | .plus => "+"
  | .minus => "-"
  | .openParen => "("
  | .closeParen => ")"
  | .openBracket => "["
  | .closeBracket => "]"
  | .comma => ","
  | .dot => "."

/-- The longest symbol at the front of a text, with the number of its characters after the
first. -/
def Symbol.front? : List Char → Option (Symbol × Nat)
  | '&' :: '&' :: _ => some (.and, 1)
  | '|' :: '|' :: _ => some (.or, 1)
  | '=' :: '=' :: _ => some (.eq, 1)
  | '!' :: '=' :: _ => some (.ne, 1)
  | '<' :: '=' :: _ => some (.le, 1)
  | '>' :: '=' :: _ => some (.ge, 1)
  | '!' :: _ => some (.not, 0)
  | '<' :: _ => some (.lt, 0)
  | '>' :: _ => some (.gt, 0)
  | '(' :: _ => some (.openParen, 0)
  | ')' :: _ => some (.closeParen, 0)
  | '[' :: _ => some (.openBracket, 0)
  | ']' :: _ => some (.closeBracket, 0)
  | ',' :: _ => some (.comma, 0)
  | '.' :: _ => some (.dot, 0)
  | '+' :: _ => some (.plus, 0)
  | '-' :: _ => some (.minus, 0)
  | _ => none

/-- Operators that take an operand on either side. -/
inductive BinaryOp where
  | and | or
  | eq | ne | lt | le | gt | ge
  | add | sub
deriving DecidableEq, Repr

def BinaryOp.symbol : BinaryOp → Symbol
  | .and => .and
  | .or => .or
  | .eq => .eq
  | .ne => .ne
  | .lt => .lt
  | .le => .le
  | .gt => .gt
  | .ge => .ge
  | .add => .plus
  | .sub => .minus

def BinaryOp.text (op : BinaryOp) : String :=
  op.symbol.text

end Archetype.Condition
