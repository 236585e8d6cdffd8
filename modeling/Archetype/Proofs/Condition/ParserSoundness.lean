import Archetype.Proofs.Condition.Grammar
import Archetype.Proofs.Outcome

/-!
# What is read can be derived

Each reader takes from the front of the tokens what its category derives, and leaves the rest. For
the loops that group to the left, the invariant is that the condition read so far is derived by the
tokens passed so far. Readers of one level are looked at with any reader of the level below that
takes what can be derived there; the levels themselves come last.
-/

namespace Archetype.Condition

open Archetype.Text

/-- A reader takes from the front of the tokens only what spells its result. -/
def Takes {α : Type} (reader : Reader α) (spells : List Token → α → Prop) : Prop :=
  ∀ (tokens rest : List Token) (result : α), reader tokens = .ok (result, rest) →
    ∃ used, tokens = used ++ rest ∧ spells used result

/-- What can be derived one level deeper. -/
def Deeper (room : Nat) (category : Category) (tokens : List Token) (expr : Expr) : Prop :=
  ∃ inner, room = inner + 1 ∧ Derives inner category tokens expr

/-! ### Chains -/

section Chain

variable {op? : Symbol → Option BinaryOp} {operand : Reader Expr}
  {part whole : List Token → Expr → Prop} (hoperand : Takes operand part)
  (hstep : ∀ {before after : List Token} {left right : Expr} {sign : Token} {symbol : Symbol}
    {op : BinaryOp}, whole before left → sign.Spells symbol → op? symbol = some op →
      part after right → whole (before ++ sign :: after) (.binary sign.offset left op right))
include hoperand hstep

theorem takes_chainFrom : ∀ (fuel : Nat) (before : List Token) (left : Expr), whole before left →
    ∀ (tokens rest : List Token) (result : Expr),
      chainFrom op? operand fuel left tokens = .ok (result, rest) →
        ∃ used, tokens = used ++ rest ∧ whole (before ++ used) result := by
  intro fuel
  induction fuel with
  | zero =>
      intro before left hleft tokens rest result hread
      cases hread
      refine ⟨[], rfl, ?_⟩
      rw [List.append_nil]
      exact hleft
  | succ fuel ih =>
      intro before left hleft tokens rest result hread
      rw [chainFrom] at hread
      cases hoperator : operator? op? tokens with
      | none =>
          rw [hoperator] at hread
          cases hread
          refine ⟨[], rfl, ?_⟩
          rw [List.append_nil]
          exact hleft
      | some found =>
          obtain ⟨op, offset, following⟩ := found
          rw [hoperator] at hread
          obtain ⟨⟨right, later⟩, hright, hmore⟩ := exists_of_bind_eq_ok hread
          obtain ⟨sign, symbol, rfl, rfl, hsign, hop⟩ := operator?_eq_some_iff.mp hoperator
          obtain ⟨after, rfl, hpart⟩ := hoperand _ _ _ hright
          obtain ⟨used, rfl, hwhole⟩ :=
            ih _ _ (hstep hleft hsign hop hpart) _ _ _ hmore
          refine ⟨sign :: after ++ used, by simp, ?_⟩
          rw [List.append_assoc] at hwhole
          exact hwhole

theorem takes_chain (hone : ∀ {tokens : List Token} {expr : Expr}, part tokens expr →
    whole tokens expr) : Takes (chain op? operand) whole := by
  intro tokens rest result hread
  obtain ⟨⟨first, following⟩, hfirst, hmore⟩ := exists_of_bind_eq_ok hread
  obtain ⟨before, rfl, hpart⟩ := hoperand _ _ _ hfirst
  obtain ⟨used, rfl, hwhole⟩ := takes_chainFrom hoperand hstep _ _ _ (hone hpart) _ _ _ hmore
  exact ⟨before ++ used, by rw [List.append_assoc], hwhole⟩

end Chain

section Operators

variable {room : Nat} {before after : List Token} {left right : Expr} {sign : Token}
  {symbol : Symbol} {op : BinaryOp}

theorem derives_of_orOp? (hleft : Derives room .disjunction before left)
    (hsign : sign.Spells symbol) (hop : orOp? symbol = some op)
    (hright : Derives room .conjunction after right) :
    Derives room .disjunction (before ++ sign :: after) (.binary sign.offset left op right) := by
  obtain ⟨rfl, rfl⟩ := orOp?_eq_some_iff.mp hop
  exact .or hleft hsign hright

theorem derives_of_andOp? (hleft : Derives room .conjunction before left)
    (hsign : sign.Spells symbol) (hop : andOp? symbol = some op)
    (hright : Derives room .negation after right) :
    Derives room .conjunction (before ++ sign :: after) (.binary sign.offset left op right) := by
  obtain ⟨rfl, rfl⟩ := andOp?_eq_some_iff.mp hop
  exact .and hleft hsign hright

theorem derives_of_additiveOp? (hleft : Derives room .sum before left)
    (hsign : sign.Spells symbol) (hop : additiveOp? symbol = some op)
    (hright : Derives room .operand after right) :
    Derives room .sum (before ++ sign :: after) (.binary sign.offset left op right) := by
  obtain ⟨hadditive, rfl⟩ := additiveOp?_eq_some_iff.mp hop
  exact .add hleft hadditive hsign hright

theorem derives_of_comparisonOp? (hleft : Derives room .sum before left)
    (hsign : sign.Spells symbol) (hop : comparisonOp? symbol = some op)
    (hright : Derives room .sum after right) :
    Derives room .comparison (before ++ sign :: after) (.binary sign.offset left op right) := by
  obtain ⟨hcompare, rfl⟩ := comparisonOp?_eq_some_iff.mp hop
  exact .compare hleft hcompare hsign hright

end Operators

theorem takes_disjunction {room : Nat} {operand : Reader Expr}
    (hoperand : Takes operand (Derives room .negation)) :
    Takes (disjunction operand) (Derives room .disjunction) :=
  takes_chain (takes_chain hoperand derives_of_andOp? .negation) derives_of_orOp? .conjunction

/-! ### One level -/

/-- What arguments and the parenthesis behind them are spelled by. -/
inductive Arguments (room : Nat) : List Token → List Expr → Prop
  | mk {inner : Nat} {between : List Token} {closing : Token} {args : List (List Token × Expr)}
      (hargs : ∀ arg ∈ args, Derives inner .disjunction arg.1 arg.2)
      (hinner : args = [] ∨ room = inner + 1)
      (hbetween : Separated (args.map (·.1)) between) (hclosing : closing.Spells .closeParen) :
      Arguments room (between ++ [closing]) (args.map (·.2))

/-- One argument or more, with the parenthesis behind them. -/
inductive SomeArguments (room : Nat) : List Token → List Expr → Prop
  | one {segment : List Token} {expr : Expr} {closing : Token}
      (hexpr : Deeper room .disjunction segment expr) (hclosing : closing.Spells .closeParen) :
      SomeArguments room (segment ++ [closing]) [expr]
  | more {segment tokens : List Token} {expr : Expr} {exprs : List Expr} {comma : Token}
      (hexpr : Deeper room .disjunction segment expr) (hcomma : comma.Spells .comma)
      (hrest : SomeArguments room tokens exprs) :
      SomeArguments room (segment ++ comma :: tokens) (expr :: exprs)

theorem SomeArguments.arguments {room : Nat} {tokens : List Token} {exprs : List Expr}
    (hsome : SomeArguments room tokens exprs) : Arguments room tokens exprs := by
  have hparts : ∃ inner between closing first, ∃ others : List (List Token × Expr),
      room = inner + 1 ∧ tokens = between ++ [closing] ∧ closing.Spells .closeParen ∧
        exprs = (first :: others).map (·.2) ∧ Separated ((first :: others).map (·.1)) between ∧
        ∀ arg ∈ first :: others, Derives inner .disjunction arg.1 arg.2 := by
    induction hsome with
    | @one segment expr closing hexpr hclosing =>
        obtain ⟨inner, rfl, hexpr⟩ := hexpr
        refine ⟨inner, segment, closing, (segment, expr), [], rfl, rfl, hclosing, rfl, .one, ?_⟩
        intro arg hmem
        rwa [List.mem_singleton.mp hmem]
    | @more segment tokens expr exprs comma hexpr hcomma _ ih =>
        obtain ⟨inner, between, closing, first, others, rfl, rfl, hclosing, rfl, hrest, hall⟩ := ih
        obtain ⟨same, hsame, hexpr⟩ := hexpr
        cases hsame
        exact ⟨inner, segment ++ comma :: between, closing, (segment, expr), first :: others, rfl,
          by simp, hclosing, rfl, .more hcomma hrest, List.forall_mem_cons.mpr ⟨hexpr, hall⟩⟩
  obtain ⟨inner, between, closing, first, others, rfl, rfl, hclosing, rfl, hbetween, hall⟩ := hparts
  exact .mk hall (.inr rfl) hbetween hclosing

theorem Arguments.call {room : Nat} {between : List Token} {args : List Expr}
    (hbetween : Arguments room between args) {token opening : Token} {name : String}
    (hword : token.lexeme = .word name) (hfree : ∀ literal, (name.toLower, literal) ∉ valueWords)
    (hopening : opening.Spells .openParen) :
    Derives room .primary (token :: opening :: between) (.call token.offset name args) := by
  cases hbetween with
  | mk hargs hinner hbetween hclosing =>
      exact .call hword hfree hopening hargs hinner hbetween hclosing

theorem Arguments.method {room : Nat} {between : List Token} {args : List Expr}
    (hbetween : Arguments room between args) {tokens : List Token} {target : Expr}
    {dot word opening : Token} {name : String} (htarget : Derives room .operand tokens target)
    (hdot : dot.Spells .dot) (hword : word.lexeme = .word name)
    (hopening : opening.Spells .openParen) :
    Derives room .operand (tokens ++ dot :: word :: opening :: between)
      (.method word.offset target name args) := by
  cases hbetween with
  | mk hargs hinner hbetween hclosing =>
      exact .method htarget hdot hword hopening hargs hinner hbetween hclosing

theorem expect_eq_ok {stop : Nat} {symbol : Symbol} {tokens rest : List Token}
    (hexpect : expect stop symbol tokens = .ok rest) :
    ∃ token, tokens = token :: rest ∧ token.Spells symbol := by
  unfold expect at hexpect
  split at hexpect
  · next hpast =>
    cases hexpect
    exact past?_eq_some_iff.mp hpast
  · cases hexpect

section Level

variable {stop room : Nat} {nested : Reader Expr}
  (hnested : Takes nested (Deeper room .disjunction))
include hnested

theorem takes_argumentsFrom : ∀ fuel : Nat,
    Takes (argumentsFrom stop nested fuel) (SomeArguments room) := by
  intro fuel
  induction fuel with
  | zero =>
      intro tokens rest exprs hread
      cases hread
  | succ fuel ih =>
      intro tokens rest exprs hread
      rw [argumentsFrom] at hread
      obtain ⟨⟨expr, following⟩, hfirst, hmore⟩ := exists_of_bind_eq_ok hread
      obtain ⟨segment, rfl, hexpr⟩ := hnested _ _ _ hfirst
      dsimp only at hmore
      split at hmore
      · next after hpast =>
        cases hmore
        obtain ⟨closing, rfl, hclosing⟩ := past?_eq_some_iff.mp hpast
        exact ⟨segment ++ [closing], by simp, .one hexpr hclosing⟩
      · obtain ⟨after, hexpect, hmore⟩ := exists_of_bind_eq_ok hmore
        obtain ⟨⟨exprs, later⟩, hothers, hpure⟩ := exists_of_bind_eq_ok hmore
        cases hpure
        obtain ⟨comma, rfl, hcomma⟩ := expect_eq_ok hexpect
        obtain ⟨used, rfl, hrest⟩ := ih _ _ _ hothers
        exact ⟨segment ++ comma :: used, by simp, .more hexpr hcomma hrest⟩

theorem takes_arguments : Takes (arguments stop nested) (Arguments room) := by
  intro tokens rest exprs hread
  unfold arguments at hread
  split at hread
  · next after hpast =>
    cases hread
    obtain ⟨closing, rfl, hclosing⟩ := past?_eq_some_iff.mp hpast
    refine ⟨[closing], rfl, ?_⟩
    exact @Arguments.mk room 0 [] closing [] (fun arg hmem => by cases hmem) (.inl rfl) .none
      hclosing
  · obtain ⟨used, rfl, hsome⟩ := takes_argumentsFrom hnested _ _ _ _ hread
    exact ⟨used, rfl, hsome.arguments⟩

theorem takes_named {token : Token} {name : String} (hword : token.lexeme = .word name)
    {tokens rest : List Token} {result : Expr}
    (hread : named stop nested token.offset name tokens = .ok (result, rest)) :
    ∃ used, token :: tokens = used ++ rest ∧ Derives room .primary used result := by
  unfold named at hread
  cases hreserved : reserved? name with
  | some value =>
      rw [hreserved] at hread
      cases hread
      exact ⟨[token], rfl, .value hword (reserved?_eq_some_iff.mp hreserved)⟩
  | none =>
      have hfree := reserved?_eq_none_iff.mp hreserved
      rw [hreserved] at hread
      dsimp only at hread
      split at hread
      · next after hpast =>
        obtain ⟨opening, rfl, hopening⟩ := past?_eq_some_iff.mp hpast
        obtain ⟨⟨exprs, later⟩, hinside, hpure⟩ := exists_of_bind_eq_ok hread
        cases hpure
        obtain ⟨used, rfl, harguments⟩ := takes_arguments hnested _ _ _ hinside
        exact ⟨_, rfl, harguments.call hword hfree hopening⟩
      · cases hread
        exact ⟨[token], rfl, .named hword hfree⟩

theorem takes_primary : Takes (primary stop nested) (Derives room .primary) := by
  intro tokens rest result hread
  cases tokens with
  | nil => cases hread
  | cons token following =>
      rw [primary] at hread
      split at hread
      · next digits hlexeme =>
        obtain ⟨expr, hnumber, hpure⟩ := exists_of_bind_eq_ok hread
        cases hpure
        unfold number at hnumber
        split at hnumber
        · cases hnumber
        · cases hnumber
          exact ⟨[token], rfl, .number hlexeme⟩
      · next value hlexeme =>
        cases hread
        exact ⟨[token], rfl, .text hlexeme⟩
      · next name hlexeme => exact takes_named hnested hlexeme hread
      · next hlexeme =>
        obtain ⟨⟨inner, later⟩, hinner, hmore⟩ := exists_of_bind_eq_ok hread
        obtain ⟨after, hexpect, hpure⟩ := exists_of_bind_eq_ok hmore
        cases hpure
        obtain ⟨closing, rfl, hclosing⟩ := expect_eq_ok hexpect
        obtain ⟨between, rfl, deeper, rfl, hderives⟩ := hnested _ _ _ hinner
        exact ⟨token :: (between ++ [closing]), by simp, .paren (.sign hlexeme) hderives hclosing⟩
      · cases hread

theorem takes_member {before : List Token} {target : Expr} {dot : Token}
    (htarget : Derives room .operand before target) (hdot : dot.Spells .dot)
    {tokens rest : List Token} {result : Expr}
    (hread : member stop nested target tokens = .ok (result, rest)) :
    ∃ used, tokens = used ++ rest ∧ Derives room .operand (before ++ dot :: used) result := by
  cases tokens with
  | nil => cases hread
  | cons word following =>
      rw [member] at hread
      split at hread
      · next name hword =>
        split at hread
        · next after hpast =>
          obtain ⟨opening, rfl, hopening⟩ := past?_eq_some_iff.mp hpast
          obtain ⟨⟨exprs, later⟩, hinside, hpure⟩ := exists_of_bind_eq_ok hread
          cases hpure
          obtain ⟨used, rfl, harguments⟩ := takes_arguments hnested _ _ _ hinside
          exact ⟨_, rfl, harguments.method htarget hdot hword hopening⟩
        · cases hread
          exact ⟨[word], rfl, .property htarget hdot hword⟩
      · cases hread

theorem takes_entry {before : List Token} {target : Expr} {opening : Token}
    (htarget : Derives room .operand before target) (hopening : opening.Spells .openBracket)
    {tokens rest : List Token} {result : Expr}
    (hread : entry stop nested target tokens = .ok (result, rest)) :
    ∃ used, tokens = used ++ rest ∧ Derives room .operand (before ++ opening :: used) result := by
  obtain ⟨⟨key, later⟩, hkey, hmore⟩ := exists_of_bind_eq_ok hread
  obtain ⟨after, hexpect, hpure⟩ := exists_of_bind_eq_ok hmore
  cases hpure
  obtain ⟨closing, rfl, hclosing⟩ := expect_eq_ok hexpect
  obtain ⟨between, rfl, inner, rfl, hderives⟩ := hnested _ _ _ hkey
  exact ⟨between ++ [closing], by simp, .index htarget hopening hderives hclosing⟩

theorem takes_suffixesFrom : ∀ (fuel : Nat) (before : List Token) (target : Expr),
    Derives room .operand before target → ∀ (tokens rest : List Token) (result : Expr),
      suffixesFrom stop nested fuel target tokens = .ok (result, rest) →
        ∃ used, tokens = used ++ rest ∧ Derives room .operand (before ++ used) result := by
  intro fuel
  induction fuel with
  | zero =>
      intro before target htarget tokens rest result hread
      cases hread
      refine ⟨[], rfl, ?_⟩
      rw [List.append_nil]
      exact htarget
  | succ fuel ih =>
      intro before target htarget tokens rest result hread
      rw [suffixesFrom] at hread
      split at hread
      · next following hpast =>
        obtain ⟨dot, rfl, hdot⟩ := past?_eq_some_iff.mp hpast
        obtain ⟨⟨next, later⟩, hmember, hmore⟩ := exists_of_bind_eq_ok hread
        obtain ⟨used, rfl, hnext⟩ := takes_member hnested htarget hdot hmember
        obtain ⟨others, rfl, hresult⟩ := ih _ _ hnext _ _ _ hmore
        refine ⟨dot :: used ++ others, by simp, ?_⟩
        rw [List.append_assoc] at hresult
        exact hresult
      · split at hread
        · next following hpast =>
          obtain ⟨opening, rfl, hopening⟩ := past?_eq_some_iff.mp hpast
          obtain ⟨⟨next, later⟩, hentry, hmore⟩ := exists_of_bind_eq_ok hread
          obtain ⟨used, rfl, hnext⟩ := takes_entry hnested htarget hopening hentry
          obtain ⟨others, rfl, hresult⟩ := ih _ _ hnext _ _ _ hmore
          refine ⟨opening :: used ++ others, by simp, ?_⟩
          rw [List.append_assoc] at hresult
          exact hresult
        · cases hread
          refine ⟨[], rfl, ?_⟩
          rw [List.append_nil]
          exact htarget

theorem takes_operand : Takes (operand stop nested) (Derives room .operand) := by
  intro tokens rest result hread
  obtain ⟨⟨first, following⟩, hfirst, hmore⟩ := exists_of_bind_eq_ok hread
  obtain ⟨before, rfl, hprimary⟩ := takes_primary hnested _ _ _ hfirst
  obtain ⟨used, rfl, hresult⟩ :=
    takes_suffixesFrom hnested _ _ _ (.primary hprimary) _ _ _ hmore
  exact ⟨before ++ used, by rw [List.append_assoc], hresult⟩

theorem takes_sum : Takes (sum stop nested) (Derives room .sum) :=
  takes_chain (takes_operand hnested) derives_of_additiveOp? .operand

theorem takes_comparison : Takes (comparison stop nested) (Derives room .comparison) := by
  intro tokens rest result hread
  obtain ⟨⟨left, following⟩, hleft, hmore⟩ := exists_of_bind_eq_ok hread
  obtain ⟨before, rfl, hsum⟩ := takes_sum hnested _ _ _ hleft
  dsimp only at hmore
  split at hmore
  · cases hmore
    exact ⟨before, rfl, .sum hsum⟩
  · next op offset after hoperator =>
    obtain ⟨⟨right, later⟩, hright, hpure⟩ := exists_of_bind_eq_ok hmore
    cases hpure
    obtain ⟨sign, symbol, rfl, rfl, hsign, hop⟩ := operator?_eq_some_iff.mp hoperator
    obtain ⟨used, rfl, hsum'⟩ := takes_sum hnested _ _ _ hright
    exact ⟨before ++ sign :: used, by simp, derives_of_comparisonOp? hsum hsign hop hsum'⟩

theorem takes_negated {deeper : Reader Expr} (hdeeper : Takes deeper (Deeper room .negation)) :
    Takes (negated stop nested deeper) (Derives room .negation) := by
  intro tokens rest result hread
  unfold negated at hread
  split at hread
  · obtain ⟨used, htokens, hcomparison⟩ := takes_comparison hnested _ _ _ hread
    obtain ⟨rfl, rfl⟩ := List.append_eq_nil_iff.mp htokens.symm
    refine ⟨[], rfl, .comparison hcomparison ?_⟩
    intro token hhead
    cases hhead
  · next token following =>
    split at hread
    · next hnot =>
      obtain ⟨⟨inner, later⟩, hinner, hpure⟩ := exists_of_bind_eq_ok hread
      cases hpure
      obtain ⟨used, rfl, below, rfl, hderives⟩ := hdeeper _ _ _ hinner
      exact ⟨token :: used, rfl, .not (spells_iff.mpr hnot) hderives⟩
    · next hnot =>
      obtain ⟨used, htokens, hcomparison⟩ := takes_comparison hnested _ _ _ hread
      refine ⟨used, htokens, .comparison hcomparison ?_⟩
      intro first hhead hspells
      cases used with
      | nil => cases hhead
      | cons other others =>
          cases hhead
          cases htokens
          exact hnot (spells_iff.mp hspells)

end Level

/-! ### All levels -/

theorem takes_tooDeep {stop : Nat} {spells : List Token → Expr → Prop} :
    Takes (tooDeep stop) spells := by
  intro tokens rest result hread
  cases hread

/-- What can be derived with some room is derived one level deeper with one more. -/
theorem Takes.deeper {room : Nat} {category : Category} {reader : Reader Expr}
    (htakes : Takes reader (Derives room category)) :
    Takes reader (Deeper (room + 1) category) := by
  intro tokens rest result hread
  obtain ⟨used, htokens, hderives⟩ := htakes tokens rest result hread
  exact ⟨used, htokens, room, rfl, hderives⟩

theorem takes_negation {stop : Nat} : ∀ room : Nat,
    Takes (negation stop room) (Derives room .negation) := by
  intro room
  induction room with
  | zero => exact takes_negated takes_tooDeep takes_tooDeep
  | succ room ih => exact takes_negated (takes_disjunction ih).deeper ih.deeper

/-- **What is read can be derived**, from all the tokens and within the levels that are allowed. -/
theorem derives_of_ofTokens {stop : Nat} {tokens : List Token} {expr : Expr}
    (hread : Expr.ofTokens stop tokens = .ok expr) :
    Derives (maxNesting - 1) .disjunction tokens expr := by
  obtain ⟨⟨result, rest⟩, hresult, hend⟩ := exists_of_bind_eq_ok hread
  obtain ⟨used, rfl, hderives⟩ := takes_disjunction (takes_negation _) _ _ _ hresult
  dsimp only at hend
  split at hend
  · cases hend
    rw [List.append_nil]
    exact hderives
  · cases hend

end Archetype.Condition
