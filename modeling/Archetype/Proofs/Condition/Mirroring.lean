import Archetype.Proofs.Condition.Naming
import Archetype.Proofs.Condition.ParserLoops
import Archetype.Proofs.Condition.ParserSoundness

/-!
# Reading tokens that are written otherwise

The readers look at a token only for the symbol that it spells, for the value that it has and for
the canonical form of its name. So they read tokens that agree in these alike, token by token: what
is read from both differs at most in its places and in how its names are written, and what is left
agrees again. Only readings that go through are looked at; issues quote the tokens as they are
written.
-/

namespace Archetype.Condition

/-- A token does what another one does, wherever it stands and however it is written. -/
structure Token.Mirrors (token other : Token) : Prop where
  symbol : other.symbol? = token.symbol?
  number : ∀ digits, token.lexeme = .number digits → other.lexeme = .number digits
  text : ∀ value, token.lexeme = .text value → other.lexeme = .text value
  word : ∀ name, token.lexeme = .word name → ∃ another, other.lexeme = .word another ∧
    canonical another = canonical name ∧ reserved? another = reserved? name

/-- What a reader makes of tokens it also makes of others, but for places and names. -/
def MirroredBy {α : Type} (alike : α → α → Prop)
    (outcome other : Except Failure (α × List Token)) : Prop :=
  ∀ result rest, outcome = .ok (result, rest) → ∃ another later,
    other = .ok (another, later) ∧ alike result another ∧ List.Forall₂ Token.Mirrors rest later

/-- A reader reads alike what another one reads. -/
def Reader.Mirrors {α : Type} (alike : α → α → Prop) (reader other : Reader α) : Prop :=
  ∀ tokens others, List.Forall₂ Token.Mirrors tokens others →
    MirroredBy alike (reader tokens) (other others)

/-- Two conditions differ at most in their places and in how their names are written. -/
def Expr.IsLike (expr other : Expr) : Prop :=
  other.plain = expr.plain

def AreLike (args others : List Expr) : Prop :=
  plainAll others = plainAll args

section Outcomes

variable {α β : Type} {alike : α → α → Prop} {like : β → β → Prop} {tokens others : List Token}

theorem mirroredBy_fail {cause : Cause} {offset : Nat}
    {other : Except Failure (α × List Token)} :
    MirroredBy alike (fail cause offset) other := by
  intro result rest hread
  cases hread

theorem mirroredBy_ok {result another : α} (halike : alike result another)
    (htokens : List.Forall₂ Token.Mirrors tokens others) :
    MirroredBy alike (.ok (result, tokens)) (.ok (another, others)) := by
  intro _ _ hread
  cases hread
  exact ⟨another, others, rfl, halike, htokens⟩

theorem MirroredBy.bind {outcome other : Except Failure (α × List Token)}
    {next following : α × List Token → Except Failure (β × List Token)}
    (houtcome : MirroredBy alike outcome other)
    (hnext : ∀ {result another rest later}, alike result another →
      List.Forall₂ Token.Mirrors rest later →
        MirroredBy like (next (result, rest)) (following (another, later))) :
    MirroredBy like (outcome >>= next) (other >>= following) := by
  intro result rest hread
  obtain ⟨⟨middle, between⟩, hmiddle, hrest⟩ := exists_of_bind_eq_ok hread
  obtain ⟨another, later, hother, halike, hlater⟩ := houtcome middle between hmiddle
  rw [hother, ok_bind]
  exact hnext halike hlater result rest hrest

/-- Either a symbol stands in front of both lists of tokens, or of neither. -/
theorem past?_cases (htokens : List.Forall₂ Token.Mirrors tokens others) (symbol : Symbol) :
    (past? symbol tokens = none ∧ past? symbol others = none) ∨
      ∃ rest later, past? symbol tokens = some rest ∧ past? symbol others = some later ∧
        List.Forall₂ Token.Mirrors rest later := by
  cases htokens with
  | nil => exact .inl ⟨rfl, rfl⟩
  | @cons token other rest later htoken hrest =>
      rw [past?, past?, htoken.symbol]
      by_cases hsymbol : token.symbol? = some symbol
      · rw [if_pos hsymbol, if_pos hsymbol]
        exact .inr ⟨rest, later, rfl, rfl, hrest⟩
      · rw [if_neg hsymbol, if_neg hsymbol]
        exact .inl ⟨rfl, rfl⟩

theorem operator?_cases (htokens : List.Forall₂ Token.Mirrors tokens others)
    (op? : Symbol → Option BinaryOp) :
    (operator? op? tokens = none ∧ operator? op? others = none) ∨
      ∃ op offset place rest later, operator? op? tokens = some (op, offset, rest) ∧
        operator? op? others = some (op, place, later) ∧
        List.Forall₂ Token.Mirrors rest later := by
  cases htokens with
  | nil => exact .inl ⟨rfl, rfl⟩
  | @cons token other rest later htoken hrest =>
      rw [operator?, operator?, htoken.symbol]
      cases token.symbol?.bind op? with
      | none => exact .inl ⟨rfl, rfl⟩
      | some op => exact .inr ⟨op, token.offset, other.offset, rest, later, rfl, rfl, hrest⟩

theorem mirroredBy_expect_bind {stop finish : Nat} {symbol : Symbol}
    {next following : List Token → Except Failure (β × List Token)}
    (htokens : List.Forall₂ Token.Mirrors tokens others)
    (hnext : ∀ {rest later}, List.Forall₂ Token.Mirrors rest later →
      MirroredBy like (next rest) (following later)) :
    MirroredBy like (expect stop symbol tokens >>= next)
      (expect finish symbol others >>= following) := by
  unfold expect
  rcases past?_cases htokens symbol with ⟨hnone, -⟩ | ⟨rest, later, hrest, hlater, hbehind⟩
  · rw [hnone]
    exact mirroredBy_fail
  · rw [hrest, hlater]
    exact hnext hbehind

end Outcomes

/-! ### Loops -/

section Loops

variable {op? : Symbol → Option BinaryOp} {operand another : Reader Expr}
  (hoperand : operand.Mirrors Expr.IsLike another)
include hoperand

theorem mirrors_chainFrom : ∀ (fuel : Nat) {left first : Expr}, left.IsLike first →
    (chainFrom op? operand fuel left).Mirrors Expr.IsLike (chainFrom op? another fuel first) := by
  intro fuel
  induction fuel with
  | zero => exact fun hleft tokens others htokens => mirroredBy_ok hleft htokens
  | succ fuel ih =>
      intro left first hleft tokens others htokens
      rw [chainFrom, chainFrom]
      rcases operator?_cases htokens op? with
        ⟨hnone, hnothing⟩ | ⟨op, offset, place, rest, later, hfirst, hsecond, hrest⟩
      · rw [hnone, hnothing]
        exact mirroredBy_ok hleft htokens
      · rw [hfirst, hsecond]
        refine (hoperand rest later hrest).bind fun hright hbehind => ?_
        refine ih ?_ _ _ hbehind
        simp only [Expr.IsLike, Expr.plain] at hleft hright ⊢
        rw [hleft, hright]

theorem mirrors_chain :
    (chain op? operand).Mirrors Expr.IsLike (chain op? another) := by
  intro tokens others htokens
  refine (hoperand tokens others htokens).bind fun {first second rest later} hfirst hrest => ?_
  have hlength : rest.length = later.length := hrest.length_eq
  dsimp only
  rw [hlength]
  exact mirrors_chainFrom hoperand later.length hfirst rest later hrest

theorem mirrors_disjunction :
    (disjunction operand).Mirrors Expr.IsLike (disjunction another) :=
  mirrors_chain (mirrors_chain hoperand)

end Loops

/-! ### One level -/

section Level

variable {stop finish : Nat} {nested another : Reader Expr}
  (hnested : nested.Mirrors Expr.IsLike another)
include hnested

theorem mirrors_argumentsFrom : ∀ fuel : Nat,
    (argumentsFrom stop nested fuel).Mirrors AreLike (argumentsFrom finish another fuel) := by
  intro fuel
  induction fuel with
  | zero => exact fun _ _ _ => mirroredBy_fail
  | succ fuel ih =>
      intro tokens others htokens
      rw [argumentsFrom, argumentsFrom]
      refine (hnested tokens others htokens).bind fun {arg other rest later} harg hrest => ?_
      dsimp only
      rcases past?_cases hrest .closeParen with ⟨hnone, hnothing⟩ | ⟨_, _, hpast, hother, hbehind⟩
      · rw [hnone, hnothing]
        refine mirroredBy_expect_bind hrest fun hcomma => ?_
        refine (ih _ _ hcomma).bind fun hargs hlater => ?_
        refine mirroredBy_ok ?_ hlater
        exact congrArg₂ List.cons harg hargs
      · rw [hpast, hother]
        exact mirroredBy_ok (congrArg (fun expr => [expr]) harg) hbehind

theorem mirrors_arguments : (arguments stop nested).Mirrors AreLike (arguments finish another) := by
  intro tokens others htokens
  unfold arguments
  rcases past?_cases htokens .closeParen with ⟨hnone, hnothing⟩ | ⟨_, _, hpast, hother, hrest⟩
  · rw [hnone, hnothing, htokens.length_eq]
    exact mirrors_argumentsFrom hnested _ tokens others htokens
  · rw [hpast, hother]
    exact mirroredBy_ok rfl hrest

theorem mirrors_named {name other : String} (hname : canonical other = canonical name)
    (hreserved : reserved? other = reserved? name) (offset place : Nat) :
    (named stop nested offset name).Mirrors Expr.IsLike (named finish another place other) := by
  intro tokens others htokens
  unfold named
  rw [hreserved]
  cases reserved? name with
  | some value => exact mirroredBy_ok rfl htokens
  | none =>
      dsimp only
      rcases past?_cases htokens .openParen with ⟨hnone, hnothing⟩ | ⟨_, _, hpast, hother, hrest⟩
      · rw [hnone, hnothing]
        exact mirroredBy_ok (congrArg (Expr.attribute 0) hname) htokens
      · rw [hpast, hother]
        refine (mirrors_arguments hnested _ _ hrest).bind fun hargs hlater => ?_
        exact mirroredBy_ok (congrArg₂ (Expr.call 0) hname hargs) hlater

theorem mirrors_primary :
    (primary stop nested).Mirrors Expr.IsLike (primary finish another) := by
  intro tokens others htokens
  cases htokens with
  | nil => exact mirroredBy_fail
  | @cons token other rest later htoken hrest =>
      rw [primary]
      split
      · next digits hdigits =>
        rw [primary, htoken.number digits hdigits]
        dsimp only
        unfold number
        split
        · intro _ _ hread
          cases hread
        · exact mirroredBy_ok rfl hrest
      · next value hvalue =>
        rw [primary, htoken.text value hvalue]
        exact mirroredBy_ok rfl hrest
      · next name hname =>
        obtain ⟨written, hwritten, hcanonical, hreserved⟩ := htoken.word name hname
        rw [primary, hwritten]
        exact mirrors_named hnested hcanonical hreserved _ _ _ _ hrest
      · next hopening =>
        have hspells : other.Spells .openParen := by
          rw [spells_iff, htoken.symbol, Token.symbol?, hopening]
        rw [primary, lexeme_of_spells hspells (by simp [operatorWords])]
        refine (hnested _ _ hrest).bind fun hinner hlater => ?_
        exact mirroredBy_expect_bind hlater fun hbehind => mirroredBy_ok hinner hbehind
      · exact mirroredBy_fail

theorem mirrors_member {target first : Expr} (htarget : target.IsLike first) :
    (member stop nested target).Mirrors Expr.IsLike (member finish another first) := by
  intro tokens others htokens
  cases htokens with
  | nil => exact mirroredBy_fail
  | @cons token other rest later htoken hrest =>
      rw [member]
      split
      · next name hname =>
        obtain ⟨written, hwritten, hcanonical, -⟩ := htoken.word name hname
        rw [member, hwritten]
        dsimp only
        rcases past?_cases hrest .openParen with ⟨hnone, hnothing⟩ | ⟨_, _, hpast, hother, hlater⟩
        · rw [hnone, hnothing]
          exact mirroredBy_ok (congrArg₂ (Expr.property 0) htarget hcanonical) hrest
        · rw [hpast, hother]
          refine (mirrors_arguments hnested _ _ hlater).bind fun hargs hbehind => ?_
          refine mirroredBy_ok ?_ hbehind
          simp only [Expr.IsLike, AreLike, Expr.plain] at htarget hargs ⊢
          rw [htarget, hcanonical, hargs]
      · exact mirroredBy_fail

theorem mirrors_entry {target first : Expr} (htarget : target.IsLike first) :
    (entry stop nested target).Mirrors Expr.IsLike (entry finish another first) := by
  intro tokens others htokens
  refine (hnested _ _ htokens).bind fun hkey hrest => ?_
  refine mirroredBy_expect_bind hrest fun hbehind => ?_
  exact mirroredBy_ok (congrArg₂ (Expr.index 0) htarget hkey) hbehind

theorem mirrors_suffixesFrom : ∀ (fuel : Nat) {target first : Expr}, target.IsLike first →
    (suffixesFrom stop nested fuel target).Mirrors Expr.IsLike
      (suffixesFrom finish another fuel first) := by
  intro fuel
  induction fuel with
  | zero => exact fun htarget tokens others htokens => mirroredBy_ok htarget htokens
  | succ fuel ih =>
      intro target first htarget tokens others htokens
      rw [suffixesFrom, suffixesFrom]
      rcases past?_cases htokens .dot with ⟨hnone, hnothing⟩ | ⟨_, _, hpast, hother, hrest⟩
      · rw [hnone, hnothing]
        dsimp only
        rcases past?_cases htokens .openBracket with
          ⟨hnone, hnothing⟩ | ⟨_, _, hpast, hother, hrest⟩
        · rw [hnone, hnothing]
          exact mirroredBy_ok htarget htokens
        · rw [hpast, hother]
          exact (mirrors_entry hnested htarget _ _ hrest).bind fun hnext hlater =>
            ih hnext _ _ hlater
      · rw [hpast, hother]
        exact (mirrors_member hnested htarget _ _ hrest).bind fun hnext hlater =>
          ih hnext _ _ hlater

theorem mirrors_operand :
    (operand stop nested).Mirrors Expr.IsLike (operand finish another) := by
  intro tokens others htokens
  refine (mirrors_primary hnested _ _ htokens).bind fun {first second rest later} hfirst hrest => ?_
  dsimp only
  rw [hrest.length_eq]
  exact mirrors_suffixesFrom hnested later.length hfirst rest later hrest

theorem mirrors_sum : (sum stop nested).Mirrors Expr.IsLike (sum finish another) :=
  mirrors_chain (mirrors_operand hnested)

theorem mirrors_comparison :
    (comparison stop nested).Mirrors Expr.IsLike (comparison finish another) := by
  intro tokens others htokens
  refine (mirrors_sum hnested _ _ htokens).bind fun {left first rest later} hleft hrest => ?_
  dsimp only
  rcases operator?_cases hrest comparisonOp? with
    ⟨hnone, hnothing⟩ | ⟨op, offset, place, behind, following, hsign, hother, hbehind⟩
  · rw [hnone, hnothing]
    exact mirroredBy_ok hleft hrest
  · rw [hsign, hother]
    refine (mirrors_sum hnested _ _ hbehind).bind fun hright hlater => ?_
    refine mirroredBy_ok ?_ hlater
    simp only [Expr.IsLike, Expr.plain] at hleft hright ⊢
    rw [hleft, hright]

theorem mirrors_negated {deeper below : Reader Expr} (hdeeper : deeper.Mirrors Expr.IsLike below) :
    (negated stop nested deeper).Mirrors Expr.IsLike (negated finish another below) := by
  intro tokens others htokens
  have hcomparison : MirroredBy Expr.IsLike (comparison stop nested tokens)
      (comparison finish another others) := mirrors_comparison hnested tokens others htokens
  cases htokens with
  | nil => exact hcomparison
  | @cons token other rest later htoken hrest =>
      rw [negated, negated, htoken.symbol]
      split
      · refine (hdeeper _ _ hrest).bind fun hinner hlater => ?_
        exact mirroredBy_ok (congrArg (Expr.not 0) hinner) hlater
      · exact hcomparison

end Level

/-! ### All levels -/

theorem mirrors_tooDeep (stop finish : Nat) :
    (tooDeep stop).Mirrors Expr.IsLike (tooDeep finish) :=
  fun _ _ _ => mirroredBy_fail

theorem mirrors_negation (stop finish : Nat) : ∀ room : Nat,
    (negation stop room).Mirrors Expr.IsLike (negation finish room)
  | 0 => mirrors_negated (mirrors_tooDeep stop finish) (mirrors_tooDeep stop finish)
  | room + 1 =>
      mirrors_negated (mirrors_disjunction (mirrors_negation stop finish room))
        (mirrors_negation stop finish room)

/-- **Tokens that mirror those of a condition spell a condition like it.** -/
theorem exists_ofTokens_of_mirrors {stop : Nat} (finish : Nat) {tokens others : List Token}
    {expr : Expr} (htokens : List.Forall₂ Token.Mirrors tokens others)
    (hread : Expr.ofTokens stop tokens = .ok expr) :
    ∃ other, Expr.ofTokens finish others = .ok other ∧ expr.IsLike other := by
  obtain ⟨⟨result, rest⟩, hresult, hend⟩ := exists_of_bind_eq_ok hread
  obtain ⟨other, later, hother, halike, hlater⟩ :=
    mirrors_disjunction (mirrors_negation stop finish (maxNesting - 1)) tokens others htokens
      result rest hresult
  cases hlater with
  | nil =>
      cases hend
      rw [Expr.ofTokens, hother, ok_bind]
      exact ⟨other, rfl, halike⟩
  | cons => cases hend

end Archetype.Condition
