import Archetype.Condition.Symbol

/-!
Conditions as trees. Every node has the offset that its messages point at.
-/

namespace Archetype.Condition

inductive Literal where
  | null
  | bool (value : Bool)
  | number (value : Nat)
  | text (value : String)
deriving DecidableEq, Repr

inductive Expr where
  | literal (offset : Nat) (value : Literal)
  /-- A part of the record, such as its category. -/
  | attribute (offset : Nat) (name : String)
  /-- A member without an argument list. -/
  | property (offset : Nat) (target : Expr) (name : String)
  | method (offset : Nat) (target : Expr) (name : String) (args : List Expr)
  | index (offset : Nat) (target key : Expr)
  | call (offset : Nat) (name : String) (args : List Expr)
  | not (offset : Nat) (operand : Expr)
  | binary (offset : Nat) (left : Expr) (op : BinaryOp) (right : Expr)
deriving Repr

def Expr.offset : Expr → Nat
  | .literal offset _ => offset
  | .attribute offset _ => offset
  | .property offset _ _ => offset
  | .method offset _ _ _ => offset
  | .index offset _ _ => offset
  | .call offset _ _ => offset
  | .not offset _ => offset
  | .binary offset _ _ _ => offset

end Archetype.Condition
