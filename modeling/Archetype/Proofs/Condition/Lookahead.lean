import Archetype.Proofs.Condition.Places

/-!
# How far readers look

A reader goes from token to token and looks at no token behind the one that it stops at. What it
makes of tokens is therefore settled by those that it takes and the one behind them; and if it
fails, it fails with the same issue on all tokens that are the same up to the one that the issue is
at. How long the condition is matters for an issue at its end only. This is put together along the
steps of a reader, together with what is known of the tokens before an issue.

The loops of a level may run as often as there are tokens, so the readers do look at the number of
the tokens that follow. That makes no difference, because every turn takes a token.
-/

namespace Archetype.Condition

open Archetype.Text

/-- Tokens begin with the same token as others. -/
def SameStart (tokens others : List Token) : Prop :=
  ∃ token rest later, tokens = token :: rest ∧ others = token :: later

/-- What a reader makes of tokens, in conditions of any length, is settled by the tokens up to the
one that it stops at. `viable` is said of the tokens before an issue, unless the issue is that no
level is left. -/
inductive Settles {α : Type} (viable : List Token → Prop) (reader : Nat → Reader α) (stop : Nat)
    (tokens : List Token) : Prop
  | passes {used rest : List Token} {result : α} (htokens : tokens = used ++ rest)
      (hread : reader stop tokens = .ok (result, rest))
      (hagain : ∀ length others, SameStart rest others →
        reader length (used ++ others) = .ok (result, others))
  | fails {before after : List Token} {cause : Cause} (htokens : tokens = before ++ after)
      (hread : reader stop tokens = fail cause (offsetOf stop after))
      (hviable : cause ≠ .tooDeep → viable before)
      (hagain : ∀ length others, SameStart after others →
        reader length (before ++ others) = fail cause (offsetOf stop after))
  | numberTooLong {digits : Nat} (hread : reader stop tokens = .error (.numberTooLong digits))

/-! ### Steps of a reader -/

theorem not_sameStart_nil {others : List Token} : ¬ SameStart [] others := by
  rintro ⟨token, rest, later, hnil, -⟩
  cases hnil

theorem SameStart.append {tokens others : List Token} (hsame : SameStart tokens others)
    (front : List Token) : SameStart (front ++ tokens) (front ++ others) := by
  cases front with
  | nil => exact hsame
  | cons token rest => exact ⟨token, rest ++ tokens, rest ++ others, rfl, rfl⟩

theorem SameStart.offsetOf_eq {tokens others : List Token} (hsame : SameStart tokens others)
    (stop length : Nat) : offsetOf length others = offsetOf stop tokens := by
  obtain ⟨token, rest, later, rfl, rfl⟩ := hsame
  rfl

theorem SameStart.past?_eq_none {tokens others : List Token} {symbol : Symbol}
    (hsame : SameStart tokens others) (hpast : past? symbol tokens = none) :
    past? symbol others = none := by
  obtain ⟨token, rest, later, rfl, rfl⟩ := hsame
  rw [past?] at hpast ⊢
  split at hpast
  · cases hpast
  · next hother => exact if_neg hother

theorem SameStart.operator?_eq_none {op? : Symbol → Option BinaryOp} {tokens others : List Token}
    (hsame : SameStart tokens others) (hoperator : operator? op? tokens = none) :
    operator? op? others = none := by
  obtain ⟨token, rest, later, rfl, rfl⟩ := hsame
  rw [operator?, Option.map_eq_none_iff] at hoperator ⊢
  exact hoperator

section Steps

variable {α β : Type} {viable : List Token → Prop} {reader : Nat → Reader α} {stop : Nat}
  {tokens : List Token}

theorem settles_ok (result : α) :
    Settles viable (fun _ tokens => .ok (result, tokens)) stop tokens :=
  .passes (List.nil_append tokens).symm rfl fun _ _ _ => rfl

theorem settles_fail {cause : Cause} (hviable : cause ≠ .tooDeep → viable []) :
    Settles (α := α) viable (fun stop tokens => fail cause (offsetOf stop tokens)) stop tokens :=
  .fails (List.nil_append tokens).symm rfl hviable fun length _ hsame =>
    congrArg (fail cause) (hsame.offsetOf_eq stop length)

theorem Settles.imp {weaker : List Token → Prop} (hsettles : Settles viable reader stop tokens)
    (himp : ∀ before after, tokens = before ++ after → viable before → weaker before) :
    Settles weaker reader stop tokens := by
  cases hsettles with
  | passes htokens hread hagain => exact .passes htokens hread hagain
  | fails htokens hread hviable hagain =>
      exact .fails htokens hread (fun hcause => himp _ _ htokens (hviable hcause)) hagain
  | numberTooLong hread => exact .numberTooLong hread

/-- A reader may go on like another one because of the token in front, which it does not take. -/
theorem Settles.congr {other : Nat → Reader α} (hsettles : Settles viable other stop tokens)
    (hread : reader stop tokens = other stop tokens)
    (hagain : ∀ length others, SameStart tokens others →
      reader length others = other length others) :
    Settles viable reader stop tokens := by
  cases hsettles with
  | passes htokens hother hlater =>
      refine .passes htokens (hread.trans hother) ?_
      intro length others hsame
      rw [hagain length _ (htokens ▸ hsame.append _)]
      exact hlater length others hsame
  | fails htokens hother hviable hlater =>
      refine .fails htokens (hread.trans hother) hviable ?_
      intro length others hsame
      rw [hagain length _ (htokens ▸ hsame.append _)]
      exact hlater length others hsame
  | numberTooLong hother => exact .numberTooLong (hread.trans hother)

theorem Settles.of_eq {other : Nat → Reader α} (hsettles : Settles viable other stop tokens)
    (heq : ∀ length others, reader length others = other length others) :
    Settles viable reader stop tokens :=
  hsettles.congr (heq stop tokens) fun length others _ => heq length others

/-- A reader may take the token in front. -/
theorem Settles.cons {token : Token} {next : Nat → Reader α}
    (hsettles : Settles (fun before => viable (token :: before)) next stop tokens)
    (htakes : ∀ length rest, reader length (token :: rest) = next length rest) :
    Settles viable reader stop (token :: tokens) := by
  cases hsettles with
  | @passes used rest result htokens hnext hlater =>
      have hcons : token :: tokens = (token :: used) ++ rest := congrArg (token :: ·) htokens
      refine .passes hcons ((htakes stop tokens).trans hnext) ?_
      intro length others hsame
      exact (htakes length _).trans (hlater length others hsame)
  | @fails before after cause htokens hnext hviable hlater =>
      have hcons : token :: tokens = (token :: before) ++ after := congrArg (token :: ·) htokens
      refine .fails hcons ((htakes stop tokens).trans hnext) hviable ?_
      intro length others hsame
      exact (htakes length _).trans (hlater length others hsame)
  | numberTooLong hnext => exact .numberTooLong ((htakes stop tokens).trans hnext)

/-- **One reader after the other.** The second one reads on where the first one has stopped, so the
token that settles the first is the first one that the second looks at. -/
theorem Settles.bind {inner : List Token → Prop}
    {next : Nat → α × List Token → Except Failure (β × List Token)}
    (hsettles : Settles inner reader stop tokens)
    (hviable : ∀ before, inner before → viable before)
    (hnext : ∀ used rest result, tokens = used ++ rest → reader stop tokens = .ok (result, rest) →
      Settles (fun before => viable (used ++ before)) (fun stop rest => next stop (result, rest))
        stop rest) :
    Settles viable (fun stop tokens => reader stop tokens >>= next stop) stop tokens := by
  cases hsettles with
  | numberTooLong hread =>
      exact .numberTooLong (by rw [hread]; rfl)
  | @fails before after cause htokens hread hinner hagain =>
      refine .fails htokens (by rw [hread]; rfl) (fun hcause => hviable _ (hinner hcause)) ?_
      intro length others hsame
      rw [hagain length others hsame]
      rfl
  | @passes used rest result htokens hread hagain =>
      have hfirst : ∀ length more others, SameStart rest (more ++ others) →
          (reader length (used ++ more ++ others) >>= next length) =
            next length (result, more ++ others) := by
        intro length more others hsame
        rw [List.append_assoc, hagain length _ hsame]
        rfl
      cases hnext used rest result htokens hread with
      | numberTooLong hlater =>
          exact .numberTooLong (by rw [hread]; exact hlater)
      | @passes more last final hrest hlater hthen =>
          refine .passes (by rw [htokens, hrest, List.append_assoc])
            (by rw [hread]; exact hlater) ?_
          intro length others hsame
          rw [hfirst length more others (hrest ▸ hsame.append more)]
          exact hthen length others hsame
      | @fails more last cause hrest hlater hbefore hthen =>
          refine .fails (by rw [htokens, hrest, List.append_assoc])
            (by rw [hread]; exact hlater) hbefore ?_
          intro length others hsame
          rw [hfirst length more others (hrest ▸ hsame.append more)]
          exact hthen length others hsame

/-- A reader may take a symbol if it stands in front, and go on in another way otherwise. -/
theorem settles_past? {symbol : Symbol} {absent present : Nat → Reader α}
    (habsent : past? symbol tokens = none → Settles viable absent stop tokens)
    (hpresent : ∀ token rest, tokens = token :: rest → token.Spells symbol →
      Settles (fun before => viable (token :: before)) present stop rest) :
    Settles viable (fun stop tokens =>
      (past? symbol tokens).elim (absent stop tokens) (present stop)) stop tokens := by
  cases hpast : past? symbol tokens with
  | none =>
      refine (habsent hpast).congr (by rw [hpast]; rfl) ?_
      intro length others hsame
      rw [hsame.past?_eq_none hpast]
      rfl
  | some rest =>
      obtain ⟨token, rfl, hspells⟩ := past?_eq_some_iff.mp hpast
      refine (hpresent token rest rfl hspells).cons ?_
      intro length later
      rw [past?_cons hspells]
      rfl

/-- A symbol that is needed is taken, or its absence is the issue. -/
theorem settles_expect_bind {symbol : Symbol}
    {next : Nat → List Token → Except Failure (β × List Token)} (hviable : viable [])
    (hnext : ∀ token rest, tokens = token :: rest → token.Spells symbol →
      Settles (fun before => viable (token :: before)) next stop rest) :
    Settles viable (fun stop tokens => expect stop symbol tokens >>= next stop) stop tokens := by
  have habsent : Settles (α := β) viable (fun stop tokens =>
      fail (.expectedSymbol symbol (tokens.head?.map fun token => token.lexeme.shown))
        (offsetOf stop tokens)) stop tokens := by
    refine (settles_fail fun _ => hviable).congr rfl ?_
    rintro length _ ⟨token, rest, later, rfl, rfl⟩
    rfl
  refine (settles_past? (fun _ => habsent) hnext).of_eq ?_
  intro length others
  rw [expect]
  cases past? symbol others <;> rfl

/-- A reader may take an operator if one stands in front, and go on in another way otherwise. -/
theorem settles_operator? {op? : Symbol → Option BinaryOp} {absent : Nat → Reader α}
    {present : Nat → BinaryOp × Nat × List Token → Except Failure (α × List Token)}
    (habsent : Settles viable absent stop tokens)
    (hpresent : ∀ sign rest symbol op, tokens = sign :: rest → sign.Spells symbol →
      op? symbol = some op → Settles (fun before => viable (sign :: before))
        (fun stop rest => present stop (op, sign.offset, rest)) stop rest) :
    Settles viable (fun stop tokens =>
      (operator? op? tokens).elim (absent stop tokens) (present stop)) stop tokens := by
  cases hoperator : operator? op? tokens with
  | none =>
      refine habsent.congr (by rw [hoperator]; rfl) ?_
      intro length others hsame
      rw [hsame.operator?_eq_none hoperator]
      rfl
  | some found =>
      obtain ⟨op, offset, rest⟩ := found
      obtain ⟨sign, symbol, rfl, rfl, hsign, hop⟩ := operator?_eq_some_iff.mp hoperator
      refine (hpresent sign rest symbol op rfl hsign hop).cons ?_
      intro length later
      rw [operator?_eq_some_iff.mpr ⟨sign, symbol, rfl, rfl, hsign, hop⟩]
      rfl

end Steps

/-! ### Turns that are not needed -/

theorem Reader.Stays.length_le {α : Type} {stop : Nat} {reader : Reader α}
    (hstays : reader.Stays stop) {tokens rest : List Token} {result : α}
    (hread : reader tokens = .ok (result, rest)) : rest.length ≤ tokens.length := by
  have hends := hstays tokens
  rw [hread] at hends
  exact hends.length_le

section Chain

variable {stop : Nat} {op? : Symbol → Option BinaryOp} {operand : Reader Expr}
  (hoperand : operand.Stays stop)
include hoperand

theorem chainFrom_of_length_le : ∀ (turns fuel : Nat) (left : Expr) (tokens : List Token),
    tokens.length ≤ turns → tokens.length ≤ fuel →
      chainFrom op? operand turns left tokens = chainFrom op? operand fuel left tokens := by
  intro turns
  induction turns with
  | zero =>
      intro fuel left tokens hturns _
      obtain rfl := List.length_eq_zero_iff.mp (Nat.le_zero.mp hturns)
      rw [chainFrom_of_none rfl, chainFrom_of_none rfl]
  | succ turns ih =>
      intro fuel left tokens hturns hfuel
      cases hoperator : operator? op? tokens with
      | none => rw [chainFrom_of_none hoperator, chainFrom_of_none hoperator]
      | some found =>
          obtain ⟨op, offset, rest⟩ := found
          obtain ⟨sign, symbol, rfl, -⟩ := operator?_eq_some_iff.mp hoperator
          rw [List.length_cons] at hturns hfuel
          cases fuel with
          | zero => omega
          | succ fuel =>
              rw [chainFrom, chainFrom, hoperator]
              refine bind_congr_of_ok ?_
              rintro ⟨right, later⟩ hright
              have hlater := hoperand.length_le hright
              exact ih fuel _ later (by omega) (by omega)

/-- A loop that has a turn for each token goes on as one. -/
theorem chainFrom_length (left : Expr) (tokens : List Token) :
    chainFrom op? operand tokens.length left tokens =
      (operator? op? tokens).elim (.ok (left, tokens)) fun found =>
        operand found.2.2 >>= fun right => chainFrom op? operand right.2.length
          (.binary found.2.1 left found.1 right.1) right.2 := by
  cases hoperator : operator? op? tokens with
  | none => exact chainFrom_of_none hoperator
  | some found =>
      obtain ⟨op, offset, rest⟩ := found
      obtain ⟨sign, symbol, rfl, -⟩ := operator?_eq_some_iff.mp hoperator
      rw [List.length_cons, chainFrom, hoperator]
      refine bind_congr_of_ok ?_
      rintro ⟨right, later⟩ hright
      exact chainFrom_of_length_le hoperand _ _ _ _ (hoperand.length_le hright) le_rfl

end Chain

section Level

variable {stop : Nat} {nested : Reader Expr} (hnested : nested.Stays stop)
include hnested

theorem argumentsFrom_of_length_lt : ∀ (turns fuel : Nat) (tokens : List Token),
    tokens.length < turns → tokens.length < fuel →
      argumentsFrom stop nested turns tokens = argumentsFrom stop nested fuel tokens := by
  intro turns
  induction turns with
  | zero =>
      intro fuel tokens hturns _
      omega
  | succ turns ih =>
      intro fuel tokens hturns hfuel
      cases fuel with
      | zero => omega
      | succ fuel =>
          rw [argumentsFrom, argumentsFrom]
          refine bind_congr_of_ok ?_
          rintro ⟨first, rest⟩ hfirst
          have hrest := hnested.length_le hfirst
          dsimp only
          split
          · rfl
          · refine bind_congr_of_ok ?_
            intro later hexpect
            obtain ⟨comma, rfl, -⟩ := expect_eq_ok hexpect
            rw [List.length_cons] at hrest
            rw [ih fuel later (by omega) (by omega)]

theorem argumentsFrom_length (tokens : List Token) :
    argumentsFrom stop nested (tokens.length + 1) tokens = nested tokens >>= fun found =>
      (past? .closeParen found.2).elim
        (expect stop .comma found.2 >>= fun rest =>
          argumentsFrom stop nested (rest.length + 1) rest >>= fun others =>
            .ok (found.1 :: others.1, others.2))
        fun rest => .ok ([found.1], rest) := by
  rw [argumentsFrom]
  refine bind_congr_of_ok ?_
  rintro ⟨first, rest⟩ hfirst
  have hrest := hnested.length_le hfirst
  dsimp only
  cases past? .closeParen rest with
  | some later => rfl
  | none =>
      refine bind_congr_of_ok ?_
      intro later hexpect
      obtain ⟨comma, rfl, -⟩ := expect_eq_ok hexpect
      rw [List.length_cons] at hrest
      rw [argumentsFrom_of_length_lt hnested _ (later.length + 1) later (by omega) (by omega)]
      rfl

theorem suffixesFrom_of_length_le : ∀ (turns fuel : Nat) (target : Expr) (tokens : List Token),
    tokens.length ≤ turns → tokens.length ≤ fuel →
      suffixesFrom stop nested turns target tokens =
        suffixesFrom stop nested fuel target tokens := by
  intro turns
  induction turns with
  | zero =>
      intro fuel target tokens hturns _
      obtain rfl := List.length_eq_zero_iff.mp (Nat.le_zero.mp hturns)
      cases fuel <;> rfl
  | succ turns ih =>
      intro fuel target tokens hturns hfuel
      cases tokens with
      | nil => cases fuel <;> rfl
      | cons token rest =>
          rw [List.length_cons] at hturns hfuel
          cases fuel with
          | zero => omega
          | succ fuel =>
              rw [suffixesFrom, suffixesFrom]
              split
              · next later hpast =>
                obtain ⟨dot, hdot, -⟩ := past?_eq_some_iff.mp hpast
                cases hdot
                refine bind_congr_of_ok ?_
                rintro ⟨next, last⟩ hmember
                have hlast := (stays_member hnested target).length_le hmember
                exact ih fuel next last (by omega) (by omega)
              · split
                · next later hpast =>
                  obtain ⟨opening, hopening, -⟩ := past?_eq_some_iff.mp hpast
                  cases hopening
                  refine bind_congr_of_ok ?_
                  rintro ⟨next, last⟩ hentry
                  have hlast := (stays_entry hnested target).length_le hentry
                  exact ih fuel next last (by omega) (by omega)
                · rfl

theorem suffixesFrom_length (target : Expr) (tokens : List Token) :
    suffixesFrom stop nested tokens.length target tokens =
      (past? .dot tokens).elim
        ((past? .openBracket tokens).elim (.ok (target, tokens)) fun rest =>
          entry stop nested target rest >>= fun next =>
            suffixesFrom stop nested next.2.length next.1 next.2)
        fun rest => member stop nested target rest >>= fun next =>
          suffixesFrom stop nested next.2.length next.1 next.2 := by
  cases hdot : past? .dot tokens with
  | some rest =>
      obtain ⟨dot, rfl, -⟩ := past?_eq_some_iff.mp hdot
      rw [List.length_cons, suffixesFrom, hdot]
      refine bind_congr_of_ok ?_
      rintro ⟨next, later⟩ hmember
      exact suffixesFrom_of_length_le hnested _ _ next later
        ((stays_member hnested target).length_le hmember) le_rfl
  | none =>
      cases hbracket : past? .openBracket tokens with
      | none => exact suffixesFrom_of_none hdot hbracket
      | some rest =>
          obtain ⟨opening, rfl, -⟩ := past?_eq_some_iff.mp hbracket
          rw [List.length_cons, suffixesFrom, hdot, hbracket]
          refine bind_congr_of_ok ?_
          rintro ⟨next, later⟩ hentry
          exact suffixesFrom_of_length_le hnested _ _ next later
            ((stays_entry hnested target).length_le hentry) le_rfl

end Level

end Archetype.Condition
