import Archetype.Proofs.Condition.Grammar
import Archetype.Proofs.Condition.Spelling

/-!
# Printed conditions

A condition is printed from its tree alone. An operand that binds more loosely than its place asks
for stands in parentheses, and nothing else does: operators that group to the left ask for less on
their left side, and a comparison asks for a sum on both. How deep the printed condition nests can
be counted on the tree as well.
-/

namespace Archetype.Condition

open Archetype.Text

/-! ### Places -/

def Category.tightness : Category → Nat
  | .disjunction => 0
  | .conjunction => 1
  | .negation => 2
  | .comparison => 3
  | .sum => 4
  | .operand => 5
  | .primary => 6

def BinaryOp.category : BinaryOp → Category
  | .or => .disjunction
  | .and => .conjunction
  | .eq | .ne | .lt | .le | .gt | .ge => .comparison
  | .add | .sub => .sum

/-- What may stand in front of an operator as it is. -/
def BinaryOp.before : BinaryOp → Category
  | .or => .disjunction
  | .and => .conjunction
  | .eq | .ne | .lt | .le | .gt | .ge | .add | .sub => .sum

/-- What may stand behind an operator as it is. -/
def BinaryOp.behind : BinaryOp → Category
  | .or => .conjunction
  | .and => .negation
  | .eq | .ne | .lt | .le | .gt | .ge => .sum
  | .add | .sub => .operand

/-- What a condition is without parentheses around it. -/
def Expr.category : Expr → Category
  | .literal _ _ | .attribute _ _ | .call _ _ _ => .primary
  | .property _ _ _ | .method _ _ _ _ | .index _ _ _ => .operand
  | .not _ _ => .negation
  | .binary _ _ op _ => op.category

/-- A condition of some category, in parentheses if its place asks for a tighter one. -/
def enclosed (own place : Category) (inside : List Lexeme) : List Lexeme :=
  if own.tightness < place.tightness then
    .symbol .openParen :: (inside ++ [.symbol .closeParen])
  else inside

/-- How many levels a condition takes at its place: parentheses take one more. -/
def enclosedDepth (own place : Category) (depth : Nat) : Nat :=
  if own.tightness < place.tightness then depth + 1 else depth

/-! ### Lexemes -/

def Literal.lexeme : Literal → Lexeme
  | .null => .word "null"
  | .bool true => .word "true"
  | .bool false => .word "false"
  | .number value => .number (Nat.toDigits 10 value)
  | .text value => .text value

mutual

def Expr.lexemes : Expr → List Lexeme
  | .literal _ value => [value.lexeme]
  | .attribute _ name => [.word name]
  | .property _ target name =>
    enclosed target.category .operand target.lexemes ++ [.symbol .dot, .word name]
  | .method _ target name args =>
    enclosed target.category .operand target.lexemes ++ .symbol .dot :: .word name ::
      .symbol .openParen :: (argumentLexemes args ++ [.symbol .closeParen])
  | .index _ target key =>
    enclosed target.category .operand target.lexemes ++ .symbol .openBracket ::
      (key.lexemes ++ [.symbol .closeBracket])
  | .call _ name args =>
    .word name :: .symbol .openParen :: (argumentLexemes args ++ [.symbol .closeParen])
  | .not _ operand => .symbol .not :: enclosed operand.category .negation operand.lexemes
  | .binary _ left op right =>
    enclosed left.category op.before left.lexemes ++ .symbol op.symbol ::
      enclosed right.category op.behind right.lexemes

/-- Arguments with commas between them. -/
def argumentLexemes : List Expr → List Lexeme
  | [] => []
  | [arg] => arg.lexemes
  | arg :: next :: rest => arg.lexemes ++ .symbol .comma :: argumentLexemes (next :: rest)

end

/-- The text of a condition: its lexemes with single spaces between them. -/
def Expr.print (quote : String → Char) (expr : Expr) : String :=
  String.ofList (typedLine quote expr.lexemes)

/-! ### Nesting -/

mutual

/-- How many levels a condition nests below its own. -/
def Expr.depth : Expr → Nat
  | .literal _ _ | .attribute _ _ => 0
  | .property _ target _ => enclosedDepth target.category .operand target.depth
  | .method _ target _ args =>
    max (enclosedDepth target.category .operand target.depth) (argumentDepth args)
  | .index _ target key =>
    max (enclosedDepth target.category .operand target.depth) (key.depth + 1)
  | .call _ _ args => argumentDepth args
  | .not _ operand => enclosedDepth operand.category .negation operand.depth + 1
  | .binary _ left op right =>
    max (enclosedDepth left.category op.before left.depth)
      (enclosedDepth right.category op.behind right.depth)

/-- Every argument is one level deeper than what it is an argument of. -/
def argumentDepth : List Expr → Nat
  | [] => 0
  | arg :: rest => max (arg.depth + 1) (argumentDepth rest)

end

/-- How many levels a printed condition nests, its own included. -/
def Expr.nesting (expr : Expr) : Nat :=
  expr.depth + 1

/-! ### Conditions without their places -/

mutual

/-- A condition that does not tell where it stood. -/
def Expr.bare : Expr → Expr
  | .literal _ value => .literal 0 value
  | .attribute _ name => .attribute 0 name
  | .property _ target name => .property 0 target.bare name
  | .method _ target name args => .method 0 target.bare name (bareAll args)
  | .index _ target key => .index 0 target.bare key.bare
  | .call _ name args => .call 0 name (bareAll args)
  | .not _ operand => .not 0 operand.bare
  | .binary _ left op right => .binary 0 left.bare op right.bare

def bareAll : List Expr → List Expr
  | [] => []
  | arg :: rest => arg.bare :: bareAll rest

end

theorem category_bare (expr : Expr) : expr.bare.category = expr.category := by
  cases expr <;> rfl

mutual

theorem depth_bare : ∀ expr : Expr, expr.bare.depth = expr.depth
  | .literal _ _ | .attribute _ _ => rfl
  | .property _ target _ => by
      simp only [Expr.bare, Expr.depth, category_bare, depth_bare target]
  | .method _ target _ args => by
      simp only [Expr.bare, Expr.depth, category_bare, depth_bare target,
        argumentDepth_bareAll args]
  | .index _ target key => by
      simp only [Expr.bare, Expr.depth, category_bare, depth_bare target, depth_bare key]
  | .call _ _ args => by
      simp only [Expr.bare, Expr.depth, argumentDepth_bareAll args]
  | .not _ operand => by
      simp only [Expr.bare, Expr.depth, category_bare, depth_bare operand]
  | .binary _ left _ right => by
      simp only [Expr.bare, Expr.depth, category_bare, depth_bare left, depth_bare right]

theorem argumentDepth_bareAll :
    ∀ args : List Expr, argumentDepth (bareAll args) = argumentDepth args
  | [] => rfl
  | arg :: rest => by
      simp only [bareAll, argumentDepth, depth_bare arg, argumentDepth_bareAll rest]

end

mutual

theorem lexemes_bare : ∀ expr : Expr, expr.bare.lexemes = expr.lexemes
  | .literal _ _ | .attribute _ _ => rfl
  | .property _ target _ => by
      simp only [Expr.bare, Expr.lexemes, category_bare, lexemes_bare target]
  | .method _ target _ args => by
      simp only [Expr.bare, Expr.lexemes, category_bare, lexemes_bare target,
        argumentLexemes_bareAll args]
  | .index _ target key => by
      simp only [Expr.bare, Expr.lexemes, category_bare, lexemes_bare target, lexemes_bare key]
  | .call _ _ args => by
      simp only [Expr.bare, Expr.lexemes, argumentLexemes_bareAll args]
  | .not _ operand => by
      simp only [Expr.bare, Expr.lexemes, category_bare, lexemes_bare operand]
  | .binary _ left _ right => by
      simp only [Expr.bare, Expr.lexemes, category_bare, lexemes_bare left, lexemes_bare right]

theorem argumentLexemes_bareAll :
    ∀ args : List Expr, argumentLexemes (bareAll args) = argumentLexemes args
  | [] => rfl
  | [arg] => lexemes_bare arg
  | arg :: next :: rest => by
      have hothers := argumentLexemes_bareAll (next :: rest)
      simp only [bareAll, argumentLexemes, lexemes_bare arg] at hothers ⊢
      rw [hothers]

end

/-! ### Conditions that can be printed -/

/-- Words that mean something by themselves, in any letter case. -/
def keywords : List String :=
  operatorWords.map (·.1) ++ valueWords.map (·.1)

/-- The conditions that have a text: numbers are not too long, members may have any name, and names
in front of an operand are no keywords. -/
inductive Expr.Printable : Expr → Prop
  | literal {offset : Nat} {value : Literal}
      (hshort : ∀ n, value = .number n → (Nat.toDigits 10 n).length ≤ maxNumeralDigits) :
      Printable (.literal offset value)
  | named {offset : Nat} {name : String} (hname : isName name = true)
      (hfree : name.toLower ∉ keywords) : Printable (.attribute offset name)
  | property {offset : Nat} {target : Expr} {name : String} (htarget : Printable target)
      (hname : isName name = true) : Printable (.property offset target name)
  | method {offset : Nat} {target : Expr} {name : String} {args : List Expr}
      (htarget : Printable target) (hname : isName name = true)
      (hargs : ∀ arg ∈ args, Printable arg) : Printable (.method offset target name args)
  | index {offset : Nat} {target key : Expr} (htarget : Printable target) (hkey : Printable key) :
      Printable (.index offset target key)
  | call {offset : Nat} {name : String} {args : List Expr} (hname : isName name = true)
      (hfree : name.toLower ∉ keywords) (hargs : ∀ arg ∈ args, Printable arg) :
      Printable (.call offset name args)
  | not {offset : Nat} {operand : Expr} (hoperand : Printable operand) :
      Printable (.not offset operand)
  | binary {offset : Nat} {left : Expr} {op : BinaryOp} {right : Expr} (hleft : Printable left)
      (hright : Printable right) : Printable (.binary offset left op right)

theorem notMem_operatorWords {name : String} (hfree : name.toLower ∉ keywords) (symbol : Symbol) :
    (name.toLower, symbol) ∉ operatorWords := by
  intro hmem
  exact hfree (List.mem_append_left _ (List.mem_map_of_mem hmem))

theorem notMem_valueWords {name : String} (hfree : name.toLower ∉ keywords) (literal : Literal) :
    (name.toLower, literal) ∉ valueWords := by
  intro hmem
  exact hfree (List.mem_append_right _ (List.mem_map_of_mem hmem))

/-- Lexemes that are found again as they are typed, and numbers that can be read. -/
def Lexeme.IsReadable (lexeme : Lexeme) : Prop :=
  lexeme.IsTypable ∧ ∀ digits, lexeme = .number digits → digits.length ≤ maxNumeralDigits

theorem isReadable_symbol (symbol : Symbol) : (Lexeme.symbol symbol).IsReadable := by
  refine ⟨trivial, ?_⟩
  intro digits hdigits
  cases hdigits

theorem isReadable_word {name : String} (hname : isName name = true) :
    (Lexeme.word name).IsReadable := by
  refine ⟨hname, ?_⟩
  intro digits hdigits
  cases hdigits

theorem isReadable_literal {value : Literal}
    (hshort : ∀ n, value = .number n → (Nat.toDigits 10 n).length ≤ maxNumeralDigits) :
    value.lexeme.IsReadable := by
  cases value with
  | null => exact isReadable_word (by decide)
  | bool truth => cases truth <;> exact isReadable_word (by decide)
  | number n =>
      refine ⟨⟨Nat.toDigits_ne_nil, ?_⟩, ?_⟩
      · intro c hc
        exact Nat.isDigit_of_mem_toDigits (by decide) (by decide) hc
      · intro digits hdigits
        cases hdigits
        exact hshort n rfl
  | text value =>
      refine ⟨trivial, ?_⟩
      intro digits hdigits
      cases hdigits

theorem forall_mem_enclosed {own place : Category} {inside : List Lexeme}
    (hinside : ∀ lexeme ∈ inside, lexeme.IsReadable) :
    ∀ lexeme ∈ enclosed own place inside, lexeme.IsReadable := by
  unfold enclosed
  split
  · simp only [List.forall_mem_cons, List.forall_mem_append]
    exact ⟨isReadable_symbol _, hinside, isReadable_symbol _, by simp⟩
  · exact hinside

theorem forall_mem_argumentLexemes : ∀ {args : List Expr},
    (∀ arg ∈ args, ∀ lexeme ∈ arg.lexemes, lexeme.IsReadable) →
      ∀ lexeme ∈ argumentLexemes args, lexeme.IsReadable
  | [], _ => by simp [argumentLexemes]
  | [arg], hargs => by
      rw [argumentLexemes]
      exact hargs arg List.mem_cons_self
  | arg :: next :: rest, hargs => by
      obtain ⟨harg, hlater⟩ := List.forall_mem_cons.mp hargs
      have hothers := forall_mem_argumentLexemes hlater
      simp only [argumentLexemes, List.forall_mem_append, List.forall_mem_cons]
      exact ⟨harg, isReadable_symbol .comma, hothers⟩

/-- The lexemes of a condition that can be printed can be read. -/
theorem isReadable_of_mem_lexemes {expr : Expr} (hexpr : expr.Printable) :
    ∀ lexeme ∈ expr.lexemes, lexeme.IsReadable := by
  induction hexpr with
  | literal hshort => simpa [Expr.lexemes] using isReadable_literal hshort
  | named hname _ => simpa [Expr.lexemes] using isReadable_word hname
  | property _ hname ih =>
      simp only [Expr.lexemes, List.forall_mem_append, List.forall_mem_cons]
      exact ⟨forall_mem_enclosed ih, isReadable_symbol _, isReadable_word hname, by simp⟩
  | method _ hname _ ih ihargs =>
      simp only [Expr.lexemes, List.forall_mem_append, List.forall_mem_cons]
      exact ⟨forall_mem_enclosed ih, isReadable_symbol _, isReadable_word hname,
        isReadable_symbol _, forall_mem_argumentLexemes ihargs, isReadable_symbol _, by simp⟩
  | index _ _ ih ihkey =>
      simp only [Expr.lexemes, List.forall_mem_append, List.forall_mem_cons]
      exact ⟨forall_mem_enclosed ih, isReadable_symbol _, ihkey, isReadable_symbol _, by simp⟩
  | call hname _ _ ihargs =>
      simp only [Expr.lexemes, List.forall_mem_append, List.forall_mem_cons]
      exact ⟨isReadable_word hname, isReadable_symbol _, forall_mem_argumentLexemes ihargs,
        isReadable_symbol _, by simp⟩
  | not _ ih =>
      simp only [Expr.lexemes, List.forall_mem_cons]
      exact ⟨isReadable_symbol _, forall_mem_enclosed ih⟩
  | binary _ _ ihleft ihright =>
      simp only [Expr.lexemes, List.forall_mem_append, List.forall_mem_cons]
      exact ⟨forall_mem_enclosed ihleft, isReadable_symbol _, forall_mem_enclosed ihright⟩

end Archetype.Condition
