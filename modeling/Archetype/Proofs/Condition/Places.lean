import Mathlib.Data.List.Infix
import Archetype.Proofs.Condition.Lexemes
import Archetype.Proofs.Condition.ParserCompleteness

/-!
# Where the issues of a text are

Every issue of a text that is no condition points into the text or right behind it. The tokenizer
points at a character that starts no lexeme. A reader points at one of the tokens it was given or,
when they have run out, at the end; it never looks at a token that an earlier reader has taken, so
whatever a later reader points at was already among the tokens of the first one.
-/

namespace Archetype.Condition

open Archetype.Text

/-! ### Readers -/

/-- An issue of tokens is at one of them or at their end; a number that is too long is one of
them. -/
def Failure.LiesIn (stop : Nat) (tokens : List Token) : Failure → Prop
  | .issue found => found.offset = stop ∨ ∃ token ∈ tokens, token.offset = found.offset
  | .numberTooLong _ => ∃ token ∈ tokens, ∃ digits,
      token.lexeme = .number digits ∧ maxNumeralDigits < digits.length

/-- What a reader makes of tokens: it leaves an end of them, or its failure lies in them. -/
def Ends {α : Type} (stop : Nat) (tokens : List Token) : Except Failure (α × List Token) → Prop
  | .ok (_, rest) => rest <:+ tokens
  | .error failure => failure.LiesIn stop tokens

def Reader.Stays {α : Type} (stop : Nat) (reader : Reader α) : Prop :=
  ∀ tokens, Ends stop tokens (reader tokens)

section Outcomes

variable {α β : Type} {stop : Nat} {tokens rest : List Token}

theorem Failure.LiesIn.mono {failure : Failure} (hlies : failure.LiesIn stop rest)
    (hrest : rest <:+ tokens) : failure.LiesIn stop tokens := by
  cases failure with
  | issue issue =>
      exact hlies.imp_right fun ⟨token, hmem, hoffset⟩ => ⟨token, hrest.subset hmem, hoffset⟩
  | numberTooLong digits =>
      obtain ⟨token, hmem, hnumber⟩ := hlies
      exact ⟨token, hrest.subset hmem, hnumber⟩

theorem Ends.mono {outcome : Except Failure (α × List Token)} (hends : Ends stop rest outcome)
    (hrest : rest <:+ tokens) : Ends stop tokens outcome := by
  cases outcome with
  | error failure => exact Failure.LiesIn.mono hends hrest
  | ok result => exact List.IsSuffix.trans hends hrest

theorem Ends.bind {outcome : Except Failure (α × List Token)}
    {next : α × List Token → Except Failure (β × List Token)} (hends : Ends stop tokens outcome)
    (hnext : ∀ result rest, Ends stop rest (next (result, rest))) :
    Ends stop tokens (outcome >>= next) := by
  cases outcome with
  | error failure => exact hends
  | ok result => exact (hnext result.1 result.2).mono hends

theorem ends_ok (result : α) (hrest : rest <:+ tokens) :
    Ends stop tokens (.ok (result, rest)) :=
  hrest

theorem ends_fail (cause : Cause) {offset : Nat}
    (hoffset : offset = stop ∨ ∃ token ∈ tokens, token.offset = offset) :
    Ends (α := α) stop tokens (fail cause offset) :=
  hoffset

theorem offsetOf_eq_or_mem (stop : Nat) (tokens : List Token) :
    offsetOf stop tokens = stop ∨ ∃ token ∈ tokens, token.offset = offsetOf stop tokens := by
  cases tokens with
  | nil => exact .inl rfl
  | cons token rest => exact .inr ⟨token, List.mem_cons_self, rfl⟩

theorem suffix_of_past? {symbol : Symbol} (hpast : past? symbol tokens = some rest) :
    rest <:+ tokens := by
  obtain ⟨token, rfl, -⟩ := past?_eq_some_iff.mp hpast
  exact List.suffix_cons token rest

theorem suffix_of_operator? {op? : Symbol → Option BinaryOp} {op : BinaryOp} {offset : Nat}
    (hoperator : operator? op? tokens = some (op, offset, rest)) : rest <:+ tokens := by
  obtain ⟨token, symbol, rfl, -⟩ := operator?_eq_some_iff.mp hoperator
  exact List.suffix_cons token rest

theorem ends_expect_bind {symbol : Symbol} {next : List Token → Except Failure (β × List Token)}
    (hnext : ∀ rest, Ends stop rest (next rest)) :
    Ends stop tokens (expect stop symbol tokens >>= next) := by
  unfold expect
  split
  · next rest hpast => exact (hnext rest).mono (suffix_of_past? hpast)
  · exact offsetOf_eq_or_mem stop tokens

end Outcomes

section Loops

variable {stop : Nat} {op? : Symbol → Option BinaryOp} {operand : Reader Expr}
  (hoperand : operand.Stays stop)
include hoperand

theorem ends_chainFrom : ∀ (fuel : Nat) (left : Expr) (tokens : List Token),
    Ends stop tokens (chainFrom op? operand fuel left tokens) := by
  intro fuel
  induction fuel with
  | zero => exact fun left tokens => ends_ok left List.suffix_rfl
  | succ fuel ih =>
      intro left tokens
      rw [chainFrom]
      split
      · exact ends_ok left List.suffix_rfl
      · next op offset rest hoperator =>
        exact ((hoperand rest).bind fun right later => ih _ later).mono
          (suffix_of_operator? hoperator)

theorem stays_chain : (chain op? operand).Stays stop := fun tokens =>
  (hoperand tokens).bind fun first rest => ends_chainFrom hoperand rest.length first rest

theorem stays_disjunction : (disjunction operand).Stays stop :=
  stays_chain (stays_chain hoperand)

end Loops

section Level

variable {stop : Nat} {nested : Reader Expr} (hnested : nested.Stays stop)

section Nested

include hnested

theorem ends_argumentsFrom : ∀ (fuel : Nat) (tokens : List Token),
    Ends stop tokens (argumentsFrom stop nested fuel tokens) := by
  intro fuel
  induction fuel with
  | zero => exact fun tokens => ends_fail _ (offsetOf_eq_or_mem stop tokens)
  | succ fuel ih =>
      intro tokens
      rw [argumentsFrom]
      refine (hnested tokens).bind fun first rest => ?_
      dsimp only
      split
      · next later hpast => exact ends_ok _ (suffix_of_past? hpast)
      · refine ends_expect_bind fun rest => ?_
        exact (ih rest).bind fun others later => ends_ok _ List.suffix_rfl

theorem stays_arguments : (arguments stop nested).Stays stop := by
  intro tokens
  unfold arguments
  split
  · next rest hpast => exact ends_ok _ (suffix_of_past? hpast)
  · exact ends_argumentsFrom hnested _ tokens

theorem stays_named (offset : Nat) (name : String) : (named stop nested offset name).Stays stop := by
  intro tokens
  unfold named
  split
  · exact ends_ok _ List.suffix_rfl
  · split
    · next rest hpast =>
      refine Ends.mono ?_ (suffix_of_past? hpast)
      exact (stays_arguments hnested rest).bind fun args later => ends_ok _ List.suffix_rfl
    · exact ends_ok _ List.suffix_rfl

end Nested

theorem ends_number {token : Token} {digits : List Char} {rest : List Token}
    (hnumber : token.lexeme = .number digits) :
    Ends stop (token :: rest) (do return (← number token.offset digits, rest)) := by
  unfold number
  split
  · next hlong => exact ⟨token, List.mem_cons_self, digits, hnumber, hlong⟩
  · exact ends_ok _ (List.suffix_cons token rest)

include hnested

theorem stays_primary : (primary stop nested).Stays stop := by
  intro tokens
  cases tokens with
  | nil => exact ends_fail _ (.inl rfl)
  | cons token rest =>
      rw [primary]
      split
      · next digits hnumber => exact ends_number hnumber
      · exact ends_ok _ (List.suffix_cons token rest)
      · next name _ => exact (stays_named hnested token.offset name rest).mono (List.suffix_cons _ _)
      · refine Ends.mono ?_ (List.suffix_cons token rest)
        exact (hnested rest).bind fun inner later =>
          ends_expect_bind fun last => ends_ok _ List.suffix_rfl
      · exact ends_fail _ (.inr ⟨token, List.mem_cons_self, rfl⟩)

theorem stays_member (target : Expr) : (member stop nested target).Stays stop := by
  intro tokens
  cases tokens with
  | nil => exact ends_fail _ (.inl rfl)
  | cons token rest =>
      rw [member]
      split
      · refine Ends.mono ?_ (List.suffix_cons token rest)
        split
        · next later hpast =>
          refine Ends.mono ?_ (suffix_of_past? hpast)
          exact (stays_arguments hnested later).bind fun args last => ends_ok _ List.suffix_rfl
        · exact ends_ok _ List.suffix_rfl
      · exact ends_fail _ (.inr ⟨token, List.mem_cons_self, rfl⟩)

theorem stays_entry (target : Expr) : (entry stop nested target).Stays stop := fun tokens =>
  (hnested tokens).bind fun _ _ => ends_expect_bind fun _ => ends_ok _ List.suffix_rfl

theorem ends_suffixesFrom : ∀ (fuel : Nat) (target : Expr) (tokens : List Token),
    Ends stop tokens (suffixesFrom stop nested fuel target tokens) := by
  intro fuel
  induction fuel with
  | zero => exact fun target tokens => ends_ok target List.suffix_rfl
  | succ fuel ih =>
      intro target tokens
      rw [suffixesFrom]
      split
      · next rest hpast =>
        refine Ends.mono ?_ (suffix_of_past? hpast)
        exact (stays_member hnested target rest).bind fun next later => ih next later
      · split
        · next rest hpast =>
          refine Ends.mono ?_ (suffix_of_past? hpast)
          exact (stays_entry hnested target rest).bind fun next later => ih next later
        · exact ends_ok target List.suffix_rfl

theorem stays_operand : (operand stop nested).Stays stop := fun tokens =>
  (stays_primary hnested tokens).bind fun first rest => ends_suffixesFrom hnested _ first rest

theorem stays_sum : (sum stop nested).Stays stop :=
  stays_chain (stays_operand hnested)

theorem stays_comparison : (comparison stop nested).Stays stop := by
  intro tokens
  refine (stays_sum hnested tokens).bind fun left rest => ?_
  dsimp only
  split
  · exact ends_ok _ List.suffix_rfl
  · next op offset later hoperator =>
    refine Ends.mono ?_ (suffix_of_operator? hoperator)
    exact (stays_sum hnested later).bind fun right last => ends_ok _ List.suffix_rfl

theorem stays_negated {deeper : Reader Expr} (hdeeper : deeper.Stays stop) :
    (negated stop nested deeper).Stays stop := by
  intro tokens
  cases tokens with
  | nil => exact stays_comparison hnested []
  | cons token rest =>
      rw [negated]
      split
      · refine Ends.mono ?_ (List.suffix_cons token rest)
        exact (hdeeper rest).bind fun inner later => ends_ok _ List.suffix_rfl
      · exact stays_comparison hnested (token :: rest)

end Level

theorem stays_tooDeep (stop : Nat) : (tooDeep stop).Stays stop := fun tokens =>
  ends_fail _ (offsetOf_eq_or_mem stop tokens)

theorem stays_negation (stop : Nat) : ∀ room, (negation stop room).Stays stop
  | 0 => stays_negated (stays_tooDeep stop) (stays_tooDeep stop)
  | room + 1 => stays_negated (stays_disjunction (stays_negation stop room)) (stays_negation stop room)

/-- **What cannot be read is told at a token or at the end.** -/
theorem liesIn_of_ofTokens {stop : Nat} {tokens : List Token} {failure : Failure}
    (hread : Expr.ofTokens stop tokens = .error failure) : failure.LiesIn stop tokens := by
  unfold Expr.ofTokens at hread
  have hends := stays_disjunction (stays_negation stop (maxNesting - 1)) tokens
  cases houtcome : disjunction (negation stop (maxNesting - 1)) tokens with
  | error other =>
      rw [houtcome] at hread hends
      cases hread
      exact hends
  | ok result =>
      obtain ⟨expr, rest⟩ := result
      rw [houtcome] at hread hends
      cases rest with
      | nil => cases hread
      | cons token later =>
          cases hread
          exact .inr ⟨token, hends.subset List.mem_cons_self, rfl⟩

/-! ### Tokens -/

theorem offset_of_scan : ∀ (chars : List Char) (offset skip : Nat),
    (∀ tokens, scan chars offset skip = .ok tokens →
      ∀ token ∈ tokens, token.offset < offset + chars.length) ∧
    ∀ issue, scan chars offset skip = .error issue → issue.offset < offset + chars.length := by
  intro chars
  induction chars with
  | nil => simp [scan]
  | cons c rest ih =>
      intro offset skip
      have hlater := ih (offset + 1)
      simp only [Nat.add_right_comm, List.length_cons, ← Nat.add_assoc] at hlater ⊢
      cases skip with
      | succ skip => exact hlater skip
      | zero =>
          rw [scan]
          split
          · exact hlater 0
          · split
            · constructor
              · intro tokens hscan
                cases hscan
              · intro issue hscan
                cases hscan
                change offset < offset + rest.length + 1
                omega
            · next lexeme more _ =>
              obtain ⟨htokens, hissue⟩ := hlater more
              constructor
              · intro tokens hscan
                obtain ⟨others, hothers, rfl⟩ := exists_of_map_eq_ok hscan
                simp only [List.forall_mem_cons]
                exact ⟨by omega, htokens others hothers⟩
              · intro issue hscan
                refine hissue issue ?_
                cases hothers : scan rest (offset + 1) more with
                | ok others => rw [hothers] at hscan; cases hscan
                | error other => rw [hothers] at hscan; cases hscan; rfl

def Lexeme.digits? : Lexeme → Option (List Char)
  | .number digits => some digits
  | _ => none

theorem Lexeme.digits?_eq_some {lexeme : Lexeme} {digits : List Char} :
    lexeme.digits? = some digits ↔ lexeme = .number digits := by
  cases lexeme <;> simp [Lexeme.digits?]

/-- The numbers of a condition have no more digits than can be read. -/
def ShortNumbers (text : String) : Prop :=
  ∀ tokens, tokenize text.toList = .ok tokens → Short tokens

instance (tokens : List Token) : Decidable (Short tokens) :=
  decidable_of_iff (∀ token ∈ tokens, ∀ digits ∈ token.lexeme.digits?,
    digits.length ≤ maxNumeralDigits) (by simp only [Short, Lexeme.digits?_eq_some, Option.mem_def])

instance (text : String) : Decidable (ShortNumbers text) :=
  match htokens : tokenize text.toList with
  | .error _ => isTrue fun _ hok => by rw [htokens] at hok; cases hok
  | .ok tokens => decidable_of_iff (Short tokens) (by simp [ShortNumbers, htokens])

/-- Short numbers never end the reading of an outline. -/
theorem parse_ne_numberTooLong {text : String} (hshort : ShortNumbers text) (digits : Nat) :
    Expr.parse text ≠ .error (.numberTooLong digits) := by
  intro hparse
  cases htokenize : tokenize text.toList with
  | error issue =>
      rw [parse_of_tokenize_error htokenize] at hparse
      cases hparse
  | ok tokens =>
      rw [parse_of_tokenize htokenize] at hparse
      obtain ⟨token, hmem, run, hnumber, hlong⟩ := liesIn_of_ofTokens hparse
      exact absurd (hshort tokens htokenize token hmem run hnumber) (by omega)

theorem exists_tokenize_digits {digits : List Char} (hdigits : ∀ c ∈ digits, c.isDigit = true)
    (hne : digits ≠ []) : ∃ token, tokenize digits = .ok [token] ∧
      token.lexeme = .number digits := by
  have hspelled : (Lexeme.number digits).Spelled digits :=
    .number hne fun c hc => isDigit_of_isDigit (hdigits c hc)
  exact ⟨_, scan_of_spelled hspelled 0, rfl⟩

/-- The number is come to before anything is read beside it. -/
theorem negation_of_number {stop room : Nat} {token : Token} {digits : List Char} {fault : Failure}
    (hlexeme : token.lexeme = .number digits) (hnumber : number token.offset digits = .error fault) :
    negation stop room [token] = .error fault := by
  have hsymbol : token.symbol? ≠ some .not := by
    rw [Token.symbol?, hlexeme]
    simp
  have hnegated : ∀ nested deeper, negated stop nested deeper [token] = .error fault := by
    intro nested deeper
    rw [negated, if_neg hsymbol, comparison, sum, chain, operand, primary, hlexeme]
    dsimp only
    rw [hnumber]
    rfl
  cases room <;> exact hnegated _ _

/-- **A number of too many digits is no condition, and no issue of one either.** -/
theorem parse_of_long_number {digits : List Char} (hdigits : ∀ c ∈ digits, c.isDigit = true)
    (hlong : maxNumeralDigits < digits.length) :
    Expr.parse (String.ofList digits) = .error (.numberTooLong digits.length) := by
  have hne : digits ≠ [] := List.ne_nil_of_length_pos (Nat.zero_lt_of_lt hlong)
  obtain ⟨token, htokens, hlexeme⟩ := exists_tokenize_digits hdigits hne
  have hnumber : number token.offset digits = .error (.numberTooLong digits.length) := if_pos hlong
  rw [parse_of_tokenize (by rw [String.toList_ofList]; exact htokens), Expr.ofTokens, disjunction,
    chain, chain, negation_of_number hlexeme hnumber]
  rfl

/-- **Every issue of a text that is no condition is in the text or right behind it.** -/
theorem offset_le_of_parse_error {text : String} {issue : Issue}
    (hparse : Expr.parse text = .error (.issue issue)) : issue.offset ≤ text.length := by
  obtain ⟨htokens, hissue⟩ := offset_of_scan text.toList 0 0
  rw [Nat.zero_add, String.length_toList] at htokens hissue
  cases htokenize : tokenize text.toList with
  | error other =>
      rw [parse_of_tokenize_error htokenize] at hparse
      cases hparse
      exact (hissue issue htokenize).le
  | ok tokens =>
      rw [parse_of_tokenize htokenize] at hparse
      rcases liesIn_of_ofTokens hparse with hstop | ⟨token, hmem, hoffset⟩
      · rw [hstop, String.length_toList]
      · rw [← hoffset]
        exact (htokens tokens htokenize token hmem).le

end Archetype.Condition
