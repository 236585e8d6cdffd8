import Archetype.Proofs.Condition.Grammar

/-!
# Where readers stop

A reader stops where the next token binds more loosely than what it reads. A condition that groups
to the left is read by a loop, and a derivation of it may end where the loop would still go on. What
is said of a reader is therefore that it comes to its loop: with the condition read so far, and with
enough turns left for all the tokens that remain. If the next token stops the reader, the loop has
nothing to do and the condition is what is read.
-/

namespace Archetype.Condition

open Archetype.Text

/-! ### What stops a reader -/

/-- How loosely a symbol binds what stands before it. -/
def Symbol.looseness : Symbol → Nat
  | .openParen => 0
  | .dot | .openBracket => 1
  | .plus | .minus => 2
  | .eq | .ne | .lt | .le | .gt | .ge => 3
  | .and => 4
  | .or => 5
  | .not | .closeParen | .closeBracket | .comma => 6

theorem looseness_comparison {op : BinaryOp}
    (hop : op ∈ [BinaryOp.eq, .ne, .lt, .le, .gt, .ge]) : op.symbol.looseness = 3 := by
  cases op <;> simp [BinaryOp.symbol, Symbol.looseness] at hop ⊢

theorem looseness_additive {op : BinaryOp} (hop : op ∈ [BinaryOp.add, .sub]) :
    op.symbol.looseness = 2 := by
  cases op <;> simp [BinaryOp.symbol, Symbol.looseness] at hop ⊢

/-- The tokens begin with none that binds more tightly. -/
def Loose (least : Nat) (tokens : List Token) : Prop :=
  ∀ token rest symbol, tokens = token :: rest → token.Spells symbol → least ≤ symbol.looseness

theorem Loose.mono {least more : Nat} {tokens : List Token} (hloose : Loose more tokens)
    (hle : least ≤ more) : Loose least tokens := by
  intro token rest symbol htokens hspells
  exact Nat.le_trans hle (hloose token rest symbol htokens hspells)

theorem loose_nil {least : Nat} : Loose least [] := by
  intro token rest symbol htokens
  cases htokens

theorem eq_of_spells {token : Token} {first second : Symbol} (hfirst : token.Spells first)
    (hsecond : token.Spells second) : first = second := by
  rw [spells_iff] at hfirst hsecond
  rw [hfirst] at hsecond
  exact Option.some.inj hsecond

theorem loose_cons {least : Nat} {token : Token} {symbol : Symbol} {rest : List Token}
    (hspells : token.Spells symbol) (hle : least ≤ symbol.looseness) :
    Loose least (token :: rest) := by
  intro first others other htokens hother
  cases htokens
  rw [eq_of_spells hother hspells]
  exact hle

theorem past?_eq_none {least : Nat} {tokens : List Token} {symbol : Symbol}
    (hloose : Loose least tokens) (hlt : symbol.looseness < least) :
    past? symbol tokens = none := by
  cases hpast : past? symbol tokens with
  | none => rfl
  | some rest =>
      obtain ⟨token, htokens, hspells⟩ := past?_eq_some_iff.mp hpast
      exact absurd (hloose token rest symbol htokens hspells) (Nat.not_le_of_lt hlt)

theorem operator?_eq_none {least : Nat} {tokens : List Token} {op? : Symbol → Option BinaryOp}
    (hloose : Loose least tokens)
    (hlt : ∀ symbol op, op? symbol = some op → symbol.looseness < least) :
    operator? op? tokens = none := by
  cases hoperator : operator? op? tokens with
  | none => rfl
  | some found =>
      obtain ⟨op, offset, rest⟩ := found
      obtain ⟨token, symbol, htokens, -, hspells, hop⟩ := operator?_eq_some_iff.mp hoperator
      exact absurd (hloose token rest symbol htokens hspells) (Nat.not_le_of_lt (hlt symbol op hop))

theorem past?_cons {token : Token} {symbol : Symbol} {rest : List Token}
    (hspells : token.Spells symbol) : past? symbol (token :: rest) = some rest :=
  past?_eq_some_iff.mpr ⟨token, rfl, hspells⟩

theorem past?_cons_of_ne {token : Token} {symbol other : Symbol} {rest : List Token}
    (hspells : token.Spells symbol) (hne : other ≠ symbol) :
    past? other (token :: rest) = none := by
  rw [past?, spells_iff.mp hspells]
  refine if_neg ?_
  intro hsame
  exact hne (Option.some.inj hsame).symm

theorem expect_cons {stop : Nat} {token : Token} {symbol : Symbol} {rest : List Token}
    (hspells : token.Spells symbol) : expect stop symbol (token :: rest) = .ok rest := by
  rw [expect, past?_cons hspells]

/-- Punctuation is spelled by its sign alone. -/
theorem lexeme_of_spells {token : Token} {symbol : Symbol} (hspells : token.Spells symbol)
    (hsign : ∀ name, (name, symbol) ∉ operatorWords) : token.lexeme = .symbol symbol := by
  cases hspells with
  | sign hlexeme => exact hlexeme
  | word _ hname => exact absurd hname (hsign _)

/-! ### Readers by category -/

/-- The reader of whole conditions that nest at most this many levels. -/
def whole (stop : Nat) : Nat → Reader Expr
  | 0 => tooDeep stop
  | room + 1 => disjunction (negation stop room)

/-- The reader of what follows a `!`. -/
def negatedOperand (stop : Nat) : Nat → Reader Expr
  | 0 => tooDeep stop
  | room + 1 => negation stop room

theorem negation_eq (stop room : Nat) :
    negation stop room = negated stop (whole stop room) (negatedOperand stop room) := by
  cases room <;> rfl

def readerOf (stop room : Nat) : Category → Reader Expr
  | .disjunction => disjunction (negation stop room)
  | .conjunction => chain andOp? (negation stop room)
  | .negation => negation stop room
  | .comparison => comparison stop (whole stop room)
  | .sum => sum stop (whole stop room)
  | .operand => operand stop (whole stop room)
  | .primary => primary stop (whole stop room)

/-- The loop that the reader of a category ends in; most have none. -/
def loopOf (stop room : Nat) : Category → Nat → Expr → Reader Expr
  | .disjunction => chainFrom orOp? (chain andOp? (negation stop room))
  | .conjunction => chainFrom andOp? (negation stop room)
  | .sum => chainFrom additiveOp? (operand stop (whole stop room))
  | .operand => suffixesFrom stop (whole stop room)
  | .negation | .comparison | .primary => fun _ expr tokens => .ok (expr, tokens)

/-- What binds at least this loosely stops the reader of a category. -/
def Category.stops : Category → Nat
  | .primary => 1
  | .operand => 2
  | .sum => 3
  | .comparison | .negation => 4
  | .conjunction => 5
  | .disjunction => 6

/-- What binds at least this loosely leads the reader of a category into its loop. -/
def Category.loops : Category → Nat
  | .primary | .operand => 1
  | .sum => 2
  | .comparison | .negation | .conjunction => 4
  | .disjunction => 5

theorem Category.loops_le_stops (category : Category) : category.loops ≤ category.stops := by
  cases category <;> decide

/-- Numbers are not too long to be read. -/
def Short (tokens : List Token) : Prop :=
  ∀ token ∈ tokens, ∀ digits, token.lexeme = .number digits → digits.length ≤ maxNumeralDigits

theorem Short.subset {tokens others : List Token} (hshort : Short tokens)
    (hsubset : others ⊆ tokens) : Short others := by
  intro token hmem
  exact hshort token (hsubset hmem)

theorem Short.left {before after : List Token} (hshort : Short (before ++ after)) : Short before :=
  hshort.subset (List.subset_append_left before after)

theorem Short.right {before after : List Token} (hshort : Short (before ++ after)) : Short after :=
  hshort.subset (List.subset_append_right before after)

theorem Short.tail {token : Token} {rest : List Token} (hshort : Short (token :: rest)) :
    Short rest :=
  hshort.subset (List.subset_cons_self token rest)

/-- The reader comes to its loop with the condition that the tokens spell. -/
def Completes (stop room : Nat) (category : Category) (tokens : List Token) (expr : Expr) : Prop :=
  ∀ rest, Loose category.loops rest → ∃ fuel, rest.length ≤ fuel ∧
    readerOf stop room category (tokens ++ rest) = loopOf stop room category fuel expr rest

theorem chainFrom_of_none {op? : Symbol → Option BinaryOp} {operand : Reader Expr} {fuel : Nat}
    {left : Expr} {tokens : List Token} (hnone : operator? op? tokens = none) :
    chainFrom op? operand fuel left tokens = .ok (left, tokens) := by
  cases fuel with
  | zero => rfl
  | succ fuel => rw [chainFrom, hnone]

theorem suffixesFrom_of_none {stop fuel : Nat} {nested : Reader Expr} {target : Expr}
    {tokens : List Token} (hdot : past? .dot tokens = none)
    (hbracket : past? .openBracket tokens = none) :
    suffixesFrom stop nested fuel target tokens = .ok (target, tokens) := by
  cases fuel with
  | zero => rfl
  | succ fuel => rw [suffixesFrom, hdot, hbracket]

theorem loopOf_of_loose {stop room fuel : Nat} {category : Category} {expr : Expr}
    {rest : List Token} (hloose : Loose category.stops rest) :
    loopOf stop room category fuel expr rest = .ok (expr, rest) := by
  cases category with
  | disjunction =>
      refine chainFrom_of_none (operator?_eq_none hloose ?_)
      intro symbol op hop
      rw [(orOp?_eq_some_iff.mp hop).2]
      decide
  | conjunction =>
      refine chainFrom_of_none (operator?_eq_none hloose ?_)
      intro symbol op hop
      rw [(andOp?_eq_some_iff.mp hop).2]
      decide
  | sum =>
      refine chainFrom_of_none (operator?_eq_none hloose ?_)
      intro symbol op hop
      obtain ⟨hadditive, rfl⟩ := additiveOp?_eq_some_iff.mp hop
      rw [looseness_additive hadditive]
      decide
  | operand =>
      exact suffixesFrom_of_none (past?_eq_none hloose (by decide))
        (past?_eq_none hloose (by decide))
  | negation | comparison | primary => rfl

/-- A reader that comes to its loop gives the condition if the loop has nothing to do. -/
theorem Completes.read {stop room : Nat} {category : Category} {tokens : List Token} {expr : Expr}
    (hcompletes : Completes stop room category tokens expr) {rest : List Token}
    (hloose : Loose category.stops rest) :
    readerOf stop room category (tokens ++ rest) = .ok (expr, rest) := by
  obtain ⟨fuel, -, hread⟩ := hcompletes rest (hloose.mono category.loops_le_stops)
  rw [hread]
  exact loopOf_of_loose hloose

/-- A condition that stands in brackets, before a comma or at the end is read one level deeper. -/
theorem Completes.read_whole {stop room : Nat} {tokens : List Token} {expr : Expr}
    (hcompletes : Completes stop room .disjunction tokens expr) {rest : List Token}
    (hloose : Loose 6 rest) : whole stop (room + 1) (tokens ++ rest) = .ok (expr, rest) :=
  hcompletes.read hloose

end Archetype.Condition
