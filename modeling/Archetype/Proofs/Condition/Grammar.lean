import Archetype.Condition.Parser

/-!
# The grammar of conditions

Which tokens spell which condition, said without a reader. From loosest to tightest there are
disjunctions, conjunctions, negations, comparisons, sums, operands with suffixes and primaries. The
operators `||`, `&&`, `+` and `-` group to the left, and a comparison stands alone.

A derivation also says how many levels it may use below its own: a parenthesis, an argument, an
index key and what follows a `!` each stand one level deeper than what is around them.
-/

namespace Archetype.Condition

open Archetype.Text

/-- The words that spell an operator, in any letter case. -/
def operatorWords : List (String × Symbol) :=
  [("and", .and), ("or", .or), ("not", .not)]

/-- The words that spell a value where an operand starts, in any letter case. -/
def valueWords : List (String × Literal) :=
  [("true", .bool true), ("false", .bool false), ("null", .null)]

/-- A token spells a symbol by its signs or by an operator word. -/
inductive Token.Spells : Token → Symbol → Prop
  | sign {token : Token} {symbol : Symbol} (hsign : token.lexeme = .symbol symbol) :
      token.Spells symbol
  | word {token : Token} {symbol : Symbol} {name : String} (hword : token.lexeme = .word name)
      (hname : (name.toLower, symbol) ∈ operatorWords) : token.Spells symbol

/-- Segments with commas between them. -/
inductive Separated : List (List Token) → List Token → Prop
  | none : Separated [] []
  | one {segment : List Token} : Separated [segment] segment
  | more {segment next tokens : List Token} {rest : List (List Token)} {comma : Token}
      (hcomma : comma.Spells .comma) (hrest : Separated (next :: rest) tokens) :
      Separated (segment :: next :: rest) (segment ++ comma :: tokens)

/-- What tokens can be derived as. -/
inductive Category where
  | disjunction | conjunction | negation | comparison | sum | operand | primary
deriving DecidableEq, Repr

/-- Tokens spell a condition that nests at most `room` levels below its own. -/
inductive Derives : (room : Nat) → Category → List Token → Expr → Prop
  | conjunction {room : Nat} {tokens : List Token} {expr : Expr}
      (hexpr : Derives room .conjunction tokens expr) : Derives room .disjunction tokens expr
  | or {room : Nat} {before after : List Token} {left right : Expr} {sign : Token}
      (hleft : Derives room .disjunction before left) (hsign : sign.Spells .or)
      (hright : Derives room .conjunction after right) :
      Derives room .disjunction (before ++ sign :: after) (.binary sign.offset left .or right)
  | negation {room : Nat} {tokens : List Token} {expr : Expr}
      (hexpr : Derives room .negation tokens expr) : Derives room .conjunction tokens expr
  | and {room : Nat} {before after : List Token} {left right : Expr} {sign : Token}
      (hleft : Derives room .conjunction before left) (hsign : sign.Spells .and)
      (hright : Derives room .negation after right) :
      Derives room .conjunction (before ++ sign :: after) (.binary sign.offset left .and right)
  | not {room : Nat} {tokens : List Token} {expr : Expr} {sign : Token}
      (hsign : sign.Spells .not) (hexpr : Derives room .negation tokens expr) :
      Derives (room + 1) .negation (sign :: tokens) (.not sign.offset expr)
  /-- Where a negation starts, a word or sign that spells `!` is always the operator. -/
  | comparison {room : Nat} {tokens : List Token} {expr : Expr}
      (hexpr : Derives room .comparison tokens expr)
      (hstart : ∀ token, tokens.head? = some token → ¬ token.Spells .not) :
      Derives room .negation tokens expr
  | sum {room : Nat} {tokens : List Token} {expr : Expr} (hexpr : Derives room .sum tokens expr) :
      Derives room .comparison tokens expr
  | compare {room : Nat} {before after : List Token} {left right : Expr} {sign : Token}
      {op : BinaryOp} (hleft : Derives room .sum before left)
      (hop : op ∈ [BinaryOp.eq, .ne, .lt, .le, .gt, .ge]) (hsign : sign.Spells op.symbol)
      (hright : Derives room .sum after right) :
      Derives room .comparison (before ++ sign :: after) (.binary sign.offset left op right)
  | operand {room : Nat} {tokens : List Token} {expr : Expr}
      (hexpr : Derives room .operand tokens expr) : Derives room .sum tokens expr
  | add {room : Nat} {before after : List Token} {left right : Expr} {sign : Token}
      {op : BinaryOp} (hleft : Derives room .sum before left) (hop : op ∈ [BinaryOp.add, .sub])
      (hsign : sign.Spells op.symbol) (hright : Derives room .operand after right) :
      Derives room .sum (before ++ sign :: after) (.binary sign.offset left op right)
  | primary {room : Nat} {tokens : List Token} {expr : Expr}
      (hexpr : Derives room .primary tokens expr) : Derives room .operand tokens expr
  | property {room : Nat} {tokens : List Token} {target : Expr} {dot word : Token} {name : String}
      (htarget : Derives room .operand tokens target) (hdot : dot.Spells .dot)
      (hword : word.lexeme = .word name) :
      Derives room .operand (tokens ++ [dot, word]) (.property word.offset target name)
  | method {room inner : Nat} {tokens between : List Token} {target : Expr}
      {dot word opening closing : Token} {name : String} {args : List (List Token × Expr)}
      (htarget : Derives room .operand tokens target) (hdot : dot.Spells .dot)
      (hword : word.lexeme = .word name) (hopening : opening.Spells .openParen)
      (hargs : ∀ arg ∈ args, Derives inner .disjunction arg.1 arg.2)
      (hinner : args = [] ∨ room = inner + 1)
      (hbetween : Separated (args.map (·.1)) between) (hclosing : closing.Spells .closeParen) :
      Derives room .operand (tokens ++ dot :: word :: opening :: (between ++ [closing]))
        (.method word.offset target name (args.map (·.2)))
  | index {room : Nat} {tokens between : List Token} {target key : Expr} {opening closing : Token}
      (htarget : Derives (room + 1) .operand tokens target) (hopening : opening.Spells .openBracket)
      (hkey : Derives room .disjunction between key) (hclosing : closing.Spells .closeBracket) :
      Derives (room + 1) .operand (tokens ++ opening :: (between ++ [closing]))
        (.index key.offset target key)
  | number {room : Nat} {token : Token} {digits : List Char}
      (hnumber : token.lexeme = .number digits) :
      Derives room .primary [token] (.literal token.offset (.number (numeralValue digits)))
  | text {room : Nat} {token : Token} {value : String} (htext : token.lexeme = .text value) :
      Derives room .primary [token] (.literal token.offset (.text value))
  | value {room : Nat} {token : Token} {name : String} {literal : Literal}
      (hword : token.lexeme = .word name) (hvalue : (name.toLower, literal) ∈ valueWords) :
      Derives room .primary [token] (.literal token.offset literal)
  | named {room : Nat} {token : Token} {name : String} (hword : token.lexeme = .word name)
      (hfree : ∀ literal, (name.toLower, literal) ∉ valueWords) :
      Derives room .primary [token] (.attribute token.offset name)
  | call {room inner : Nat} {between : List Token} {token opening closing : Token} {name : String}
      {args : List (List Token × Expr)} (hword : token.lexeme = .word name)
      (hfree : ∀ literal, (name.toLower, literal) ∉ valueWords)
      (hopening : opening.Spells .openParen)
      (hargs : ∀ arg ∈ args, Derives inner .disjunction arg.1 arg.2)
      (hinner : args = [] ∨ room = inner + 1)
      (hbetween : Separated (args.map (·.1)) between) (hclosing : closing.Spells .closeParen) :
      Derives room .primary (token :: opening :: (between ++ [closing]))
        (.call token.offset name (args.map (·.2)))
  | paren {room : Nat} {between : List Token} {expr : Expr} {opening closing : Token}
      (hopening : opening.Spells .openParen) (hexpr : Derives room .disjunction between expr)
      (hclosing : closing.Spells .closeParen) :
      Derives (room + 1) .primary (opening :: (between ++ [closing])) expr

/-! ### Symbols, words and operators -/

theorem keyword?_eq_some_iff {name : String} {symbol : Symbol} :
    keyword? name = some symbol ↔ (name.toLower, symbol) ∈ operatorWords := by
  unfold keyword? operatorWords
  constructor
  · intro hkeyword
    split at hkeyword
    · next hname => cases hkeyword; rw [hname]; simp
    · next hname => cases hkeyword; rw [hname]; simp
    · next hname => cases hkeyword; rw [hname]; simp
    · cases hkeyword
  · intro hmem
    simp only [List.mem_cons, Prod.mk.injEq, List.not_mem_nil, or_false] at hmem
    rcases hmem with ⟨hname, rfl⟩ | ⟨hname, rfl⟩ | ⟨hname, rfl⟩
    · rw [hname]
      rfl
    · rw [hname]
      rfl
    · rw [hname]
      rfl

theorem reserved?_eq_some_iff {name : String} {literal : Literal} :
    reserved? name = some literal ↔ (name.toLower, literal) ∈ valueWords := by
  unfold reserved? valueWords
  constructor
  · intro hreserved
    split at hreserved
    · next hname => cases hreserved; rw [hname]; simp
    · next hname => cases hreserved; rw [hname]; simp
    · next hname => cases hreserved; rw [hname]; simp
    · cases hreserved
  · intro hmem
    simp only [List.mem_cons, Prod.mk.injEq, List.not_mem_nil, or_false] at hmem
    rcases hmem with ⟨hname, rfl⟩ | ⟨hname, rfl⟩ | ⟨hname, rfl⟩
    · rw [hname]
      rfl
    · rw [hname]
      rfl
    · rw [hname]
      rfl

theorem spells_iff {token : Token} {symbol : Symbol} :
    token.Spells symbol ↔ token.symbol? = some symbol := by
  unfold Token.symbol?
  constructor
  · intro hspells
    cases hspells with
    | sign hsign => rw [hsign]
    | word hword hname =>
        rw [hword]
        exact keyword?_eq_some_iff.mpr hname
  · intro hsymbol
    split at hsymbol
    · next hsign =>
      cases hsymbol
      exact .sign hsign
    · next hword => exact .word hword (keyword?_eq_some_iff.mp hsymbol)
    · cases hsymbol

theorem reserved?_eq_none_iff {name : String} :
    reserved? name = none ↔ ∀ literal, (name.toLower, literal) ∉ valueWords := by
  rw [Option.eq_none_iff_forall_ne_some]
  refine forall_congr' ?_
  intro literal
  exact not_congr reserved?_eq_some_iff

theorem past?_eq_some_iff {symbol : Symbol} {tokens rest : List Token} :
    past? symbol tokens = some rest ↔ ∃ token, tokens = token :: rest ∧ token.Spells symbol := by
  cases tokens with
  | nil =>
      constructor
      · intro hpast
        cases hpast
      · rintro ⟨token, htokens, -⟩
        cases htokens
  | cons token others =>
      rw [past?]
      constructor
      · intro hpast
        by_cases hsymbol : token.symbol? = some symbol
        · rw [if_pos hsymbol] at hpast
          cases hpast
          exact ⟨token, rfl, spells_iff.mpr hsymbol⟩
        · rw [if_neg hsymbol] at hpast
          cases hpast
      · rintro ⟨first, htokens, hspells⟩
        cases htokens
        exact if_pos (spells_iff.mp hspells)

/-- An operator that stands in front of the tokens. -/
theorem operator?_eq_some_iff {op? : Symbol → Option BinaryOp} {tokens rest : List Token}
    {op : BinaryOp} {offset : Nat} :
    operator? op? tokens = some (op, offset, rest) ↔
      ∃ token symbol, tokens = token :: rest ∧ token.offset = offset ∧ token.Spells symbol ∧
        op? symbol = some op := by
  cases tokens with
  | nil =>
      constructor
      · intro hoperator
        cases hoperator
      · rintro ⟨token, symbol, htokens, -⟩
        cases htokens
  | cons token others =>
      unfold operator?
      rw [Option.map_eq_some_iff]
      constructor
      · rintro ⟨found, hfound, hsame⟩
        obtain ⟨symbol, hsymbol, hop⟩ := Option.bind_eq_some_iff.mp hfound
        cases hsame
        exact ⟨token, symbol, rfl, rfl, spells_iff.mpr hsymbol, hop⟩
      · rintro ⟨first, symbol, htokens, rfl, hspells, hop⟩
        cases htokens
        refine ⟨op, ?_, rfl⟩
        rw [spells_iff.mp hspells]
        exact hop

theorem orOp?_eq_some_iff {symbol : Symbol} {op : BinaryOp} :
    orOp? symbol = some op ↔ op = .or ∧ symbol = .or := by
  cases symbol <;> simp [orOp?, eq_comm]

theorem andOp?_eq_some_iff {symbol : Symbol} {op : BinaryOp} :
    andOp? symbol = some op ↔ op = .and ∧ symbol = .and := by
  cases symbol <;> simp [andOp?, eq_comm]

theorem comparisonOp?_eq_some_iff {symbol : Symbol} {op : BinaryOp} :
    comparisonOp? symbol = some op ↔
      op ∈ [BinaryOp.eq, .ne, .lt, .le, .gt, .ge] ∧ symbol = op.symbol := by
  cases symbol <;> cases op <;> simp [comparisonOp?, BinaryOp.symbol]

theorem additiveOp?_eq_some_iff {symbol : Symbol} {op : BinaryOp} :
    additiveOp? symbol = some op ↔ op ∈ [BinaryOp.add, .sub] ∧ symbol = op.symbol := by
  cases symbol <;> cases op <;> simp [additiveOp?, BinaryOp.symbol]

end Archetype.Condition
