import Mathlib.Data.List.Basic
import Archetype.Proofs.Condition.ParserLoops
import Archetype.Proofs.Condition.ParserSoundness

/-!
# What can be derived is read

Every rule of the grammar is followed by the reader of its category, one lemma for each kind of
rule. The induction on derivations puts them together. With what the readers were found to take,
the conditions that are read are exactly those that can be derived, and no tokens spell two.
-/

namespace Archetype.Condition

open Archetype.Text

/-! ### How a derivation starts -/

theorem not_spells_of_lexeme {token : Token} {symbol : Symbol}
    (hsign : ∀ name, (name, symbol) ∉ operatorWords) (hlexeme : token.lexeme ≠ .symbol symbol) :
    ¬ token.Spells symbol :=
  fun hspells => hlexeme (lexeme_of_spells hspells hsign)

theorem closeParen_not_word : ∀ name, (name, Symbol.closeParen) ∉ operatorWords := by
  simp [operatorWords]

theorem openParen_not_word : ∀ name, (name, Symbol.openParen) ∉ operatorWords := by
  simp [operatorWords]

/-- A derivation has a first token, and that is no closing parenthesis. -/
theorem exists_head_of_derives {room : Nat} {category : Category} {tokens : List Token}
    {expr : Expr} (hderives : Derives room category tokens expr) :
    ∃ token rest, tokens = token :: rest ∧ ¬ token.Spells .closeParen := by
  induction hderives with
  | conjunction _ ih | negation _ ih | comparison _ _ ih | sum _ ih | operand _ ih
  | primary _ ih => exact ih
  | or _ _ _ ih _ | and _ _ _ ih _ | compare _ _ _ _ ih _ | add _ _ _ _ ih _
  | property _ _ _ ih | method _ _ _ _ _ _ _ _ ih _ | index _ _ _ _ ih _ =>
      obtain ⟨token, rest, rfl, hfirst⟩ := ih
      exact ⟨token, _, rfl, hfirst⟩
  | not hsign _ _ =>
      refine ⟨_, _, rfl, ?_⟩
      intro hclosing
      cases eq_of_spells hsign hclosing
  | number hlexeme | text hlexeme | value hlexeme _ | named hlexeme _
  | call hlexeme _ _ _ _ _ _ _ =>
      refine ⟨_, _, rfl, not_spells_of_lexeme closeParen_not_word ?_⟩
      rw [hlexeme]
      intro hsame
      cases hsame
  | paren hopening _ _ _ =>
      refine ⟨_, _, rfl, ?_⟩
      intro hclosing
      cases eq_of_spells hopening hclosing

/-! ### Chains and suffixes -/

theorem chain_of_operand {op? : Symbol → Option BinaryOp} {operand : Reader Expr}
    {tokens rest : List Token} {first : Expr} (hfirst : operand tokens = .ok (first, rest)) :
    ∃ fuel, rest.length ≤ fuel ∧
      chain op? operand tokens = chainFrom op? operand fuel first rest := by
  refine ⟨rest.length, Nat.le_refl _, ?_⟩
  rw [chain, hfirst, ok_bind]

/-- One turn of a loop that groups to the left. -/
theorem chain_of_step {op? : Symbol → Option BinaryOp} {reader operand : Reader Expr}
    {before after rest : List Token} {left right : Expr} {sign : Token} {symbol : Symbol}
    {op : BinaryOp}
    (hleft : ∃ fuel, (sign :: (after ++ rest)).length ≤ fuel ∧
      reader (before ++ sign :: (after ++ rest)) =
        chainFrom op? operand fuel left (sign :: (after ++ rest)))
    (hsign : sign.Spells symbol) (hop : op? symbol = some op)
    (hright : operand (after ++ rest) = .ok (right, rest)) :
    ∃ fuel, rest.length ≤ fuel ∧ reader (before ++ sign :: after ++ rest) =
      chainFrom op? operand fuel (.binary sign.offset left op right) rest := by
  obtain ⟨fuel, hfuel, hread⟩ := hleft
  rw [List.length_cons, List.length_append] at hfuel
  obtain ⟨fuel, rfl⟩ : ∃ fewer, fuel = fewer + 1 := Nat.exists_eq_add_of_le' (by omega)
  refine ⟨fuel, by omega, ?_⟩
  have hoperator : operator? op? (sign :: (after ++ rest)) =
      some (op, sign.offset, after ++ rest) :=
    operator?_eq_some_iff.mpr ⟨sign, symbol, rfl, rfl, hsign, hop⟩
  rw [List.append_assoc, List.cons_append, hread, chainFrom, hoperator]
  dsimp only
  rw [hright, ok_bind]

/-- One turn of the loop of suffixes. -/
theorem suffixes_of_step {stop : Nat} {nested reader : Reader Expr}
    {before suffix rest : List Token} {target next : Expr}
    (htarget : ∃ fuel, (suffix ++ rest).length ≤ fuel ∧
      reader (before ++ (suffix ++ rest)) = suffixesFrom stop nested fuel target (suffix ++ rest))
    (hlength : 0 < suffix.length)
    (hstep : ∀ fuel, suffixesFrom stop nested (fuel + 1) target (suffix ++ rest) =
      suffixesFrom stop nested fuel next rest) :
    ∃ fuel, rest.length ≤ fuel ∧
      reader (before ++ suffix ++ rest) = suffixesFrom stop nested fuel next rest := by
  obtain ⟨fuel, hfuel, hread⟩ := htarget
  rw [List.length_append] at hfuel
  obtain ⟨fuel, rfl⟩ : ∃ fewer, fuel = fewer + 1 := Nat.exists_eq_add_of_le' (by omega)
  refine ⟨fuel, by omega, ?_⟩
  rw [List.append_assoc, hread]
  exact hstep fuel

theorem suffixesFrom_dot {stop fuel : Nat} {nested : Reader Expr} {target next : Expr} {dot : Token}
    {tokens rest : List Token} (hdot : dot.Spells .dot)
    (hmember : member stop nested target tokens = .ok (next, rest)) :
    suffixesFrom stop nested (fuel + 1) target (dot :: tokens) =
      suffixesFrom stop nested fuel next rest := by
  rw [suffixesFrom, past?_cons hdot]
  dsimp only
  rw [hmember, ok_bind]

theorem suffixesFrom_bracket {stop fuel : Nat} {nested : Reader Expr} {target next : Expr}
    {opening : Token} {tokens rest : List Token} (hopening : opening.Spells .openBracket)
    (hentry : entry stop nested target tokens = .ok (next, rest)) :
    suffixesFrom stop nested (fuel + 1) target (opening :: tokens) =
      suffixesFrom stop nested fuel next rest := by
  rw [suffixesFrom, past?_cons_of_ne hopening (by decide), past?_cons hopening]
  dsimp only
  rw [hentry, ok_bind]

/-! ### Arguments -/

theorem length_le_of_separated {segments : List (List Token)} {tokens : List Token}
    (hseparated : Separated segments tokens) : segments.length ≤ tokens.length + 1 := by
  induction hseparated with
  | none => exact Nat.zero_le _
  | one => exact Nat.succ_le_succ (Nat.zero_le _)
  | more _ _ ih =>
      simp only [List.length_cons, List.length_append] at ih ⊢
      omega

theorem exists_eq_append_of_separated {segment tokens : List Token} {others : List (List Token)}
    (hseparated : Separated (segment :: others) tokens) : ∃ later, tokens = segment ++ later := by
  cases hseparated with
  | one => exact ⟨[], (List.append_nil _).symm⟩
  | more _ _ => exact ⟨_, rfl⟩

theorem subset_of_separated {segments : List (List Token)} {tokens : List Token}
    (hseparated : Separated segments tokens) : ∀ segment ∈ segments, segment ⊆ tokens := by
  induction hseparated with
  | none =>
      intro segment hmem
      cases hmem
  | one =>
      intro segment hmem
      rw [List.mem_singleton.mp hmem]
      exact List.Subset.refl _
  | more _ _ ih =>
      intro segment hmem
      rcases List.mem_cons.mp hmem with rfl | hmem
      · exact List.subset_append_left _ _
      · exact List.Subset.trans (ih segment hmem)
          (List.Subset.trans (List.subset_cons_self _ _) (List.subset_append_right _ _))

theorem Short.of_separated {args : List (List Token × Expr)} {between : List Token}
    (hshort : Short between) (hseparated : Separated (args.map (·.1)) between) :
    ∀ arg ∈ args, Short arg.1 := by
  intro arg hmem
  have hsegment : arg.1 ∈ args.map (·.1) := List.mem_map_of_mem hmem
  exact hshort.subset (subset_of_separated hseparated arg.1 hsegment)

section Arguments

variable {stop : Nat} {nested : Reader Expr} {closing : Token} {rest : List Token}
  (hclosing : closing.Spells .closeParen)
include hclosing

theorem argumentsFrom_of_separated : ∀ (args : List (List Token × Expr)) (between : List Token)
    (fuel : Nat), args ≠ [] → args.length ≤ fuel →
      (∀ arg ∈ args, ∀ following, Loose 6 following →
        nested (arg.1 ++ following) = .ok (arg.2, following)) →
      Separated (args.map (·.1)) between →
      argumentsFrom stop nested fuel (between ++ closing :: rest) =
        .ok (args.map (·.2), rest) := by
  intro args
  induction args with
  | nil =>
      intro between fuel hne
      exact absurd rfl hne
  | cons first others ih =>
      intro between fuel _ hfuel hread hseparated
      rw [List.length_cons] at hfuel
      obtain ⟨fuel, rfl⟩ : ∃ fewer, fuel = fewer + 1 := Nat.exists_eq_add_of_le' (by omega)
      have hfirst := hread first List.mem_cons_self
      rw [argumentsFrom]
      cases others with
      | nil =>
          cases hseparated
          rw [hfirst _ (loose_cons hclosing (by decide)), ok_bind]
          dsimp only
          rw [past?_cons hclosing]
          rfl
      | cons next others =>
          cases hseparated with
          | @more _ _ tokens _ comma hcomma hrest =>
              have hothers := ih tokens fuel (List.cons_ne_nil _ _) (by omega)
                (fun arg hmem => hread arg (List.mem_cons_of_mem _ hmem)) hrest
              rw [List.append_assoc, List.cons_append, hfirst _ (loose_cons hcomma (by decide)),
                ok_bind]
              dsimp only
              rw [past?_cons_of_ne hcomma (by decide)]
              dsimp only
              rw [expect_cons hcomma, ok_bind, hothers, ok_bind]
              rfl

/-- Arguments are read up to their closing parenthesis. -/
theorem arguments_of_separated {args : List (List Token × Expr)} {between : List Token}
    (hread : ∀ arg ∈ args, ∀ following, Loose 6 following →
      nested (arg.1 ++ following) = .ok (arg.2, following))
    (hhead : ∀ arg ∈ args, ∃ token others, arg.1 = token :: others ∧ ¬ token.Spells .closeParen)
    (hseparated : Separated (args.map (·.1)) between) :
    arguments stop nested (between ++ [closing] ++ rest) = .ok (args.map (·.2), rest) := by
  rw [List.append_assoc, List.singleton_append, arguments]
  cases args with
  | nil =>
      cases hseparated
      rw [List.nil_append, past?_cons hclosing]
      rfl
  | cons first others =>
      obtain ⟨token, following, hfirst, hopen⟩ := hhead first List.mem_cons_self
      have hnone : past? .closeParen (between ++ closing :: rest) = none := by
        obtain ⟨later, rfl⟩ := exists_eq_append_of_separated hseparated
        change past? .closeParen (first.1 ++ later ++ closing :: rest) = none
        rw [hfirst, List.append_assoc, List.cons_append, past?]
        exact if_neg fun hsymbol => hopen (spells_iff.mpr hsymbol)
      have hlength := length_le_of_separated hseparated
      rw [List.length_map] at hlength
      rw [hnone]
      dsimp only
      refine argumentsFrom_of_separated hclosing _ _ _ (List.cons_ne_nil _ _) ?_ hread hseparated
      rw [List.length_append]
      omega

end Arguments

/-! ### The rules of the grammar -/

section Rules

variable {stop room : Nat}

/-- A reader without a loop comes to its end. -/
theorem Completes.of_read {category : Category} {tokens : List Token} {expr : Expr}
    (hend : ∀ fuel expr rest, loopOf stop room category fuel expr rest = .ok (expr, rest))
    (hread : ∀ rest, Loose category.loops rest →
      readerOf stop room category (tokens ++ rest) = .ok (expr, rest)) :
    Completes stop room category tokens expr := by
  intro rest hloose
  refine ⟨rest.length, Nat.le_refl _, ?_⟩
  rw [hread rest hloose, hend]

theorem completes_conjunction {tokens : List Token} {expr : Expr}
    (hexpr : Completes stop room .conjunction tokens expr) :
    Completes stop room .disjunction tokens expr :=
  fun _ hloose => chain_of_operand (hexpr.read hloose)

theorem completes_or {before after : List Token} {left right : Expr} {sign : Token}
    (hleft : Completes stop room .disjunction before left) (hsign : sign.Spells .or)
    (hright : Completes stop room .conjunction after right) :
    Completes stop room .disjunction (before ++ sign :: after)
      (.binary sign.offset left .or right) := by
  intro rest hloose
  exact chain_of_step (hleft _ (loose_cons hsign (by decide))) hsign rfl (hright.read hloose)

theorem completes_negation {tokens : List Token} {expr : Expr}
    (hexpr : Completes stop room .negation tokens expr) :
    Completes stop room .conjunction tokens expr :=
  fun _ hloose => chain_of_operand (hexpr.read hloose)

theorem completes_and {before after : List Token} {left right : Expr} {sign : Token}
    (hleft : Completes stop room .conjunction before left) (hsign : sign.Spells .and)
    (hright : Completes stop room .negation after right) :
    Completes stop room .conjunction (before ++ sign :: after)
      (.binary sign.offset left .and right) := by
  intro rest hloose
  exact chain_of_step (hleft _ (loose_cons hsign (by decide))) hsign rfl (hright.read hloose)

theorem completes_not {tokens : List Token} {expr : Expr} {sign : Token} (hsign : sign.Spells .not)
    (hexpr : Completes stop room .negation tokens expr) :
    Completes stop (room + 1) .negation (sign :: tokens) (.not sign.offset expr) := by
  refine .of_read (fun _ _ _ => rfl) ?_
  intro rest hloose
  have hread : negation stop room (tokens ++ rest) = .ok (expr, rest) := hexpr.read hloose
  rw [readerOf, negation_eq, List.cons_append, negated, if_pos (spells_iff.mp hsign),
    negatedOperand, hread, ok_bind]
  rfl

theorem completes_comparison {tokens : List Token} {expr : Expr}
    (hexpr : Completes stop room .comparison tokens expr)
    (hhead : ∃ token others, tokens = token :: others ∧ ¬ token.Spells .not) :
    Completes stop room .negation tokens expr := by
  refine .of_read (fun _ _ _ => rfl) ?_
  intro rest hloose
  have hread : comparison stop (whole stop room) (tokens ++ rest) = .ok (expr, rest) :=
    hexpr.read hloose
  obtain ⟨token, others, rfl, hnot⟩ := hhead
  rw [readerOf, negation_eq, List.cons_append, negated,
    if_neg fun hsymbol => hnot (spells_iff.mpr hsymbol)]
  exact hread

theorem completes_sum {tokens : List Token} {expr : Expr}
    (hexpr : Completes stop room .sum tokens expr) :
    Completes stop room .comparison tokens expr := by
  refine .of_read (fun _ _ _ => rfl) ?_
  intro rest hloose
  have hread : sum stop (whole stop room) (tokens ++ rest) = .ok (expr, rest) :=
    hexpr.read (hloose.mono (by decide))
  have hnone : operator? comparisonOp? rest = none := by
    refine operator?_eq_none hloose ?_
    intro symbol op hop
    obtain ⟨hcomparison, rfl⟩ := comparisonOp?_eq_some_iff.mp hop
    rw [looseness_comparison hcomparison]
    decide
  rw [readerOf, comparison, hread, ok_bind]
  dsimp only
  rw [hnone]
  rfl

theorem completes_compare {before after : List Token} {left right : Expr} {sign : Token}
    {op : BinaryOp} (hleft : Completes stop room .sum before left)
    (hop : op ∈ [BinaryOp.eq, .ne, .lt, .le, .gt, .ge]) (hsign : sign.Spells op.symbol)
    (hright : Completes stop room .sum after right) :
    Completes stop room .comparison (before ++ sign :: after)
      (.binary sign.offset left op right) := by
  refine .of_read (fun _ _ _ => rfl) ?_
  intro rest hloose
  have hfirst : sum stop (whole stop room) (before ++ sign :: (after ++ rest)) =
      .ok (left, sign :: (after ++ rest)) :=
    hleft.read (loose_cons hsign (Nat.le_of_eq (looseness_comparison hop).symm))
  have hsecond : sum stop (whole stop room) (after ++ rest) = .ok (right, rest) :=
    hright.read (hloose.mono (by decide))
  have hoperator : operator? comparisonOp? (sign :: (after ++ rest)) =
      some (op, sign.offset, after ++ rest) :=
    operator?_eq_some_iff.mpr
      ⟨sign, op.symbol, rfl, rfl, hsign, comparisonOp?_eq_some_iff.mpr ⟨hop, rfl⟩⟩
  rw [readerOf, List.append_assoc, List.cons_append, comparison, hfirst, ok_bind]
  dsimp only
  rw [hoperator]
  dsimp only
  rw [hsecond, ok_bind]
  rfl

theorem completes_operand {tokens : List Token} {expr : Expr}
    (hexpr : Completes stop room .operand tokens expr) : Completes stop room .sum tokens expr :=
  fun _ hloose => chain_of_operand (hexpr.read hloose)

theorem completes_add {before after : List Token} {left right : Expr} {sign : Token}
    {op : BinaryOp} (hleft : Completes stop room .sum before left)
    (hop : op ∈ [BinaryOp.add, .sub]) (hsign : sign.Spells op.symbol)
    (hright : Completes stop room .operand after right) :
    Completes stop room .sum (before ++ sign :: after) (.binary sign.offset left op right) := by
  intro rest hloose
  have hleads : Loose 2 (sign :: (after ++ rest)) :=
    loose_cons hsign (Nat.le_of_eq (looseness_additive hop).symm)
  exact chain_of_step (hleft _ hleads) hsign (additiveOp?_eq_some_iff.mpr ⟨hop, rfl⟩)
    (hright.read hloose)

theorem completes_primary {tokens : List Token} {expr : Expr}
    (hexpr : Completes stop room .primary tokens expr) :
    Completes stop room .operand tokens expr := by
  intro rest hloose
  have hread : primary stop (whole stop room) (tokens ++ rest) = .ok (expr, rest) :=
    hexpr.read hloose
  refine ⟨rest.length, Nat.le_refl _, ?_⟩
  rw [readerOf, operand, hread, ok_bind]
  rfl

theorem completes_property {tokens : List Token} {target : Expr} {dot word : Token} {name : String}
    (htarget : Completes stop room .operand tokens target) (hdot : dot.Spells .dot)
    (hword : word.lexeme = .word name) :
    Completes stop room .operand (tokens ++ [dot, word]) (.property word.offset target name) := by
  intro rest hloose
  have hmember : member stop (whole stop room) target (word :: rest) =
      .ok (.property word.offset target name, rest) := by
    rw [member, hword]
    dsimp only
    rw [past?_eq_none hloose (by decide)]
  exact suffixes_of_step (htarget _ (loose_cons hdot (by decide))) Nat.zero_lt_two
    fun _ => suffixesFrom_dot hdot hmember

theorem completes_method {tokens inside : List Token} {target : Expr} {dot word opening : Token}
    {name : String} {args : List Expr} (htarget : Completes stop room .operand tokens target)
    (hdot : dot.Spells .dot) (hword : word.lexeme = .word name)
    (hopening : opening.Spells .openParen)
    (hargs : ∀ rest, arguments stop (whole stop room) (inside ++ rest) = .ok (args, rest)) :
    Completes stop room .operand (tokens ++ dot :: word :: opening :: inside)
      (.method word.offset target name args) := by
  intro rest hloose
  have hmember : member stop (whole stop room) target (word :: opening :: (inside ++ rest)) =
      .ok (.method word.offset target name args, rest) := by
    rw [member, hword]
    dsimp only
    rw [past?_cons hopening]
    dsimp only
    rw [hargs, ok_bind]
    rfl
  exact suffixes_of_step (htarget _ (loose_cons hdot (by decide))) (Nat.zero_lt_succ _)
    fun _ => suffixesFrom_dot hdot hmember

theorem completes_index {tokens between : List Token} {target key : Expr} {opening closing : Token}
    (htarget : Completes stop (room + 1) .operand tokens target)
    (hopening : opening.Spells .openBracket)
    (hkey : Completes stop room .disjunction between key)
    (hclosing : closing.Spells .closeBracket) :
    Completes stop (room + 1) .operand (tokens ++ opening :: (between ++ [closing]))
      (.index key.offset target key) := by
  intro rest hloose
  have hentry : entry stop (whole stop (room + 1)) target (between ++ [closing] ++ rest) =
      .ok (.index key.offset target key, rest) := by
    rw [List.append_assoc, List.singleton_append, entry,
      hkey.read_whole (loose_cons hclosing (by decide)), ok_bind]
    dsimp only
    rw [expect_cons hclosing, ok_bind]
    rfl
  exact suffixes_of_step (htarget _ (loose_cons hopening (by decide))) (Nat.zero_lt_succ _)
    fun _ => suffixesFrom_bracket hopening hentry

theorem completes_number {token : Token} {digits : List Char}
    (hnumber : token.lexeme = .number digits) (hshort : Short [token]) :
    Completes stop room .primary [token]
      (.literal token.offset (.number (numeralValue digits))) := by
  refine .of_read (fun _ _ _ => rfl) ?_
  intro rest _
  have hlength := hshort token (List.mem_singleton_self token) digits hnumber
  rw [readerOf, List.singleton_append, primary, hnumber]
  dsimp only
  rw [number, if_neg (Nat.not_lt_of_le hlength), ok_bind]
  rfl

theorem completes_text {token : Token} {value : String} (htext : token.lexeme = .text value) :
    Completes stop room .primary [token] (.literal token.offset (.text value)) := by
  refine .of_read (fun _ _ _ => rfl) ?_
  intro rest _
  rw [readerOf, List.singleton_append, primary, htext]

theorem completes_value {token : Token} {name : String} {literal : Literal}
    (hword : token.lexeme = .word name) (hvalue : (name.toLower, literal) ∈ valueWords) :
    Completes stop room .primary [token] (.literal token.offset literal) := by
  refine .of_read (fun _ _ _ => rfl) ?_
  intro rest _
  rw [readerOf, List.singleton_append, primary, hword]
  dsimp only
  rw [named, reserved?_eq_some_iff.mpr hvalue]

theorem completes_named {token : Token} {name : String} (hword : token.lexeme = .word name)
    (hfree : ∀ literal, (name.toLower, literal) ∉ valueWords) :
    Completes stop room .primary [token] (.attribute token.offset name) := by
  refine .of_read (fun _ _ _ => rfl) ?_
  intro rest hloose
  rw [readerOf, List.singleton_append, primary, hword]
  dsimp only
  rw [named, reserved?_eq_none_iff.mpr hfree]
  dsimp only
  rw [past?_eq_none hloose (by decide)]

theorem completes_call {inside : List Token} {token opening : Token} {name : String}
    {args : List Expr} (hword : token.lexeme = .word name)
    (hfree : ∀ literal, (name.toLower, literal) ∉ valueWords)
    (hopening : opening.Spells .openParen)
    (hargs : ∀ rest, arguments stop (whole stop room) (inside ++ rest) = .ok (args, rest)) :
    Completes stop room .primary (token :: opening :: inside) (.call token.offset name args) := by
  refine .of_read (fun _ _ _ => rfl) ?_
  intro rest _
  rw [readerOf, List.cons_append, primary, hword]
  dsimp only
  rw [named, reserved?_eq_none_iff.mpr hfree]
  dsimp only
  rw [List.cons_append, past?_cons hopening]
  dsimp only
  rw [hargs, ok_bind]
  rfl

theorem completes_paren {between : List Token} {expr : Expr} {opening closing : Token}
    (hopening : opening.Spells .openParen) (hexpr : Completes stop room .disjunction between expr)
    (hclosing : closing.Spells .closeParen) :
    Completes stop (room + 1) .primary (opening :: (between ++ [closing])) expr := by
  refine .of_read (fun _ _ _ => rfl) ?_
  intro rest _
  have hread := hexpr.read_whole (loose_cons hclosing (by decide) : Loose 6 (closing :: rest))
  rw [readerOf, List.cons_append, primary, lexeme_of_spells hopening openParen_not_word]
  dsimp only
  rw [List.append_assoc, List.singleton_append, hread, ok_bind]
  dsimp only
  rw [expect_cons hclosing, ok_bind]
  rfl

/-- The arguments of a derivation are read. -/
theorem arguments_of_derives {inner : Nat} {between : List Token} {closing : Token}
    {args : List (List Token × Expr)}
    (hargs : ∀ arg ∈ args, Derives inner .disjunction arg.1 arg.2)
    (hcompletes : ∀ arg ∈ args, Completes stop inner .disjunction arg.1 arg.2)
    (hinner : args = [] ∨ room = inner + 1) (hbetween : Separated (args.map (·.1)) between)
    (hclosing : closing.Spells .closeParen) (rest : List Token) :
    arguments stop (whole stop room) (between ++ [closing] ++ rest) =
      .ok (args.map (·.2), rest) := by
  refine arguments_of_separated hclosing ?_ ?_ hbetween
  · intro arg hmem following hloose
    rcases hinner with rfl | rfl
    · cases hmem
    · exact (hcompletes arg hmem).read_whole hloose
  · intro arg hmem
    exact exists_head_of_derives (hargs arg hmem)

end Rules

/-- **What can be derived is read**, as long as its numbers can be. -/
theorem completes_of_derives {stop room : Nat} {category : Category} {tokens : List Token}
    {expr : Expr} (hderives : Derives room category tokens expr) :
    Short tokens → Completes stop room category tokens expr := by
  induction hderives with
  | conjunction _ ih => exact fun hshort => completes_conjunction (ih hshort)
  | negation _ ih => exact fun hshort => completes_negation (ih hshort)
  | sum _ ih => exact fun hshort => completes_sum (ih hshort)
  | operand _ ih => exact fun hshort => completes_operand (ih hshort)
  | primary _ ih => exact fun hshort => completes_primary (ih hshort)
  | or _ hsign _ ihleft ihright =>
      exact fun hshort => completes_or (ihleft hshort.left) hsign (ihright hshort.right.tail)
  | and _ hsign _ ihleft ihright =>
      exact fun hshort => completes_and (ihleft hshort.left) hsign (ihright hshort.right.tail)
  | not hsign _ ih => exact fun hshort => completes_not hsign (ih hshort.tail)
  | comparison hexpr hstart ih =>
      intro hshort
      obtain ⟨token, others, htokens, -⟩ := exists_head_of_derives hexpr
      refine completes_comparison (ih hshort) ⟨token, others, htokens, hstart token ?_⟩
      rw [htokens]
      rfl
  | compare _ hop hsign _ ihleft ihright =>
      exact fun hshort =>
        completes_compare (ihleft hshort.left) hop hsign (ihright hshort.right.tail)
  | add _ hop hsign _ ihleft ihright =>
      exact fun hshort => completes_add (ihleft hshort.left) hop hsign (ihright hshort.right.tail)
  | property _ hdot hword ih =>
      exact fun hshort => completes_property (ih hshort.left) hdot hword
  | method _ hdot hword hopening hargs hinner hbetween hclosing ih ihargs =>
      intro hshort
      have hinside := hshort.right.tail.tail.tail.left.of_separated hbetween
      exact completes_method (ih hshort.left) hdot hword hopening
        (arguments_of_derives hargs (fun arg hmem => ihargs arg hmem (hinside arg hmem)) hinner
          hbetween hclosing)
  | index _ hopening _ hclosing ih ihkey =>
      intro hshort
      exact completes_index (ih hshort.left) hopening (ihkey hshort.right.tail.left) hclosing
  | number hnumber => exact completes_number hnumber
  | text htext => exact fun _ => completes_text htext
  | value hword hvalue => exact fun _ => completes_value hword hvalue
  | named hword hfree => exact fun _ => completes_named hword hfree
  | call hword hfree hopening hargs hinner hbetween hclosing ihargs =>
      intro hshort
      have hinside := hshort.tail.tail.left.of_separated hbetween
      exact completes_call hword hfree hopening
        (arguments_of_derives hargs (fun arg hmem => ihargs arg hmem (hinside arg hmem)) hinner
          hbetween hclosing)
  | paren hopening _ hclosing ih =>
      exact fun hshort => completes_paren hopening (ih hshort.tail.left) hclosing

/-! ### The parser and the grammar -/

theorem ofTokens_of_derives {stop : Nat} {tokens : List Token} {expr : Expr}
    (hshort : Short tokens) (hderives : Derives (maxNesting - 1) .disjunction tokens expr) :
    Expr.ofTokens stop tokens = .ok expr := by
  have hread : disjunction (negation stop (maxNesting - 1)) (tokens ++ []) = .ok (expr, []) :=
    (completes_of_derives hderives hshort).read loose_nil
  rw [List.append_nil] at hread
  rw [Expr.ofTokens, hread, ok_bind]
  rfl

theorem parse_of_tokenize {text : String} {tokens : List Token}
    (htokens : tokenize text.toList = .ok tokens) :
    Expr.parse text = Expr.ofTokens text.toList.length tokens := by
  unfold Expr.parse
  dsimp only
  rw [htokens]

theorem parse_of_tokenize_error {text : String} {issue : Issue}
    (hissue : tokenize text.toList = .error issue) :
    Expr.parse text = .error (.issue issue) := by
  unfold Expr.parse
  dsimp only
  rw [hissue]

/-- **A text is read as a condition exactly if its tokens spell it**, nested at most `maxNesting`
levels, and its tokens spell at most one. -/
theorem parse_eq_ok_iff_derives {text : String} {tokens : List Token}
    (htokens : tokenize text.toList = .ok tokens) (hshort : Short tokens) :
    (∀ expr, Expr.parse text = .ok expr ↔ Derives (maxNesting - 1) .disjunction tokens expr) ∧
    ∀ expr other, Derives (maxNesting - 1) .disjunction tokens expr →
      Derives (maxNesting - 1) .disjunction tokens other → expr = other := by
  constructor
  · intro expr
    rw [parse_of_tokenize htokens]
    exact ⟨derives_of_ofTokens, ofTokens_of_derives hshort⟩
  · intro expr other hexpr hother
    have hread : Expr.ofTokens 0 tokens = .ok expr := ofTokens_of_derives hshort hexpr
    rw [ofTokens_of_derives hshort hother] at hread
    exact (Except.ok.inj hread).symm

theorem parse_of_derives_negated_comparison :
    ∃ tokens, tokenize "Not a < 10".toList = .ok tokens ∧ Short tokens ∧
      Expr.parse "Not a < 10" =
        .ok (.not 0 (.binary 6 (.attribute 4 "a") .lt (.literal 8 (.number 10)))) := by
  have htokens : tokenize "Not a < 10".toList =
      .ok [⟨.word "Not", 0⟩, ⟨.word "a", 4⟩, ⟨.symbol .lt, 6⟩, ⟨.number ['1', '0'], 8⟩] := by
    decide +kernel
  have hshort : Short
      [⟨.word "Not", 0⟩, ⟨.word "a", 4⟩, ⟨.symbol .lt, 6⟩, ⟨.number ['1', '0'], 8⟩] := by
    intro token hmem digits hdigits
    simp only [List.mem_cons, List.not_mem_nil, or_false] at hmem
    rcases hmem with rfl | rfl | rfl | rfl <;> cases hdigits
    decide
  refine ⟨_, htokens, hshort, ((parse_eq_ok_iff_derives htokens hshort).1 _).mpr ?_⟩
  have hleft : Derives 48 .sum [⟨.word "a", 4⟩] (.attribute 4 "a") :=
    .operand (.primary (.named rfl (reserved?_eq_none_iff.mp (by decide +kernel))))
  have hright : Derives 48 .sum [⟨.number ['1', '0'], 8⟩] (.literal 8 (.number 10)) := by
    have hten : numeralValue ['1', '0'] = 10 := by decide +kernel
    rw [← hten]
    exact .operand (.primary (.number rfl))
  have hcomparison : Derives 48 .negation
      [⟨.word "a", 4⟩, ⟨.symbol .lt, 6⟩, ⟨.number ['1', '0'], 8⟩]
      (.binary 6 (.attribute 4 "a") .lt (.literal 8 (.number 10))) := by
    refine .comparison (.compare hleft (by decide) (.sign rfl) hright) ?_
    intro token hhead hspells
    cases hhead
    have hsymbol : keyword? "a" = some .not := spells_iff.mp hspells
    have hnone : keyword? "a" = none := by decide +kernel
    rw [hnone] at hsymbol
    cases hsymbol
  exact .conjunction (.negation (.not (.word rfl (by decide +kernel)) hcomparison))

end Archetype.Condition
