import Archetype.Proofs.Condition.Lookahead

/-!
# Completing what is being read

Wherever a reader fails, the tokens that it has taken can be continued. What is left open at that
place is closed by a name, if a part is missing, and by the parentheses and brackets that surround
it. None of this nests deeper than the tokens before the place, so there is always room for it, and
only an issue of the levels themselves may be at a token that would fit. As a reader also looks no
further than its next token, its issues are at the first token that fits nowhere.
-/

namespace Archetype.Condition

open Archetype.Text

/-! ### What tokens are continued with -/

/-- What tokens are continued with. -/
def fillers : List Lexeme :=
  [.word "x", .symbol .closeParen, .symbol .closeBracket]

def Lexeme.token (lexeme : Lexeme) : Token :=
  ⟨lexeme, 0⟩

/-- Tokens spell something when they are continued. -/
def Completable {α : Type} (spells : List Token → α → Prop) (before : List Token) : Prop :=
  ∃ more result, (∀ token ∈ more, token.lexeme ∈ fillers) ∧ spells (before ++ more) result

theorem closeParen_spells : (Lexeme.symbol .closeParen).token.Spells .closeParen :=
  .sign rfl

theorem closeBracket_spells : (Lexeme.symbol .closeBracket).token.Spells .closeBracket :=
  .sign rfl

theorem derives_name (room : Nat) :
    Derives room .primary [(Lexeme.word "x").token] (.attribute 0 "x") :=
  .named rfl (reserved?_eq_none_iff.mp (by decide +kernel))

section Completable

variable {α β : Type} {part : List Token → α → Prop} {whole : List Token → β → Prop}
  {inner outer : List Token}

theorem completable_of_spells {result : β} (hspells : whole outer result) :
    Completable whole outer :=
  ⟨[], result, List.forall_mem_nil _, by rwa [List.append_nil]⟩

theorem completable_of_filler {lexeme : Lexeme} (hlexeme : lexeme ∈ fillers) {result : β}
    (hspells : whole (outer ++ [lexeme.token]) result) : Completable whole outer := by
  refine ⟨[lexeme.token], result, ?_, hspells⟩
  intro token htoken
  rwa [List.mem_singleton.mp htoken]

/-- What continues a part continues what the part stands in. -/
theorem Completable.imp (hpart : Completable part inner)
    (himp : ∀ more result, part (inner ++ more) result →
      ∃ other, whole (outer ++ more) other) : Completable whole outer := by
  obtain ⟨more, result, hmore, hspells⟩ := hpart
  obtain ⟨other, hother⟩ := himp more result hspells
  exact ⟨more, other, hmore, hother⟩

/-- What continues a part continues what the part stands in, if it is closed behind it. -/
theorem Completable.close (hpart : Completable part inner) {lexeme : Lexeme}
    (hlexeme : lexeme ∈ fillers)
    (hclose : ∀ more result, part (inner ++ more) result →
      ∃ other, whole (outer ++ (more ++ [lexeme.token])) other) : Completable whole outer := by
  obtain ⟨more, result, hmore, hspells⟩ := hpart
  obtain ⟨other, hother⟩ := hclose more result hspells
  refine ⟨more ++ [lexeme.token], other, ?_, hother⟩
  rw [List.forall_mem_append]
  refine ⟨hmore, ?_⟩
  intro token htoken
  rwa [List.mem_singleton.mp htoken]

end Completable

theorem Takes.spells {α : Type} {reader : Reader α} {spells : List Token → α → Prop}
    (htakes : Takes reader spells) {used rest : List Token} {result : α}
    (hread : reader (used ++ rest) = .ok (result, rest)) : spells used result := by
  obtain ⟨other, hsame, hspells⟩ := htakes _ _ _ hread
  rwa [List.append_cancel_right hsame]

/-! ### Chains -/

section Chain

variable {op? : Symbol → Option BinaryOp} {operand : Nat → Reader Expr}
  {part whole : List Token → Expr → Prop} (htakes : ∀ stop, Takes (operand stop) part)
  (hstays : ∀ stop, (operand stop).Stays stop)
  (hoperand : ∀ stop tokens, Settles (Completable part) operand stop tokens)
  (hstep : ∀ {before after : List Token} {left right : Expr} {sign : Token} {symbol : Symbol}
    {op : BinaryOp}, whole before left → sign.Spells symbol → op? symbol = some op →
      part after right → whole (before ++ sign :: after) (.binary sign.offset left op right))
include htakes hstays hoperand hstep

theorem settles_chainFrom (stop : Nat) (tokens : List Token) : ∀ {before : List Token}
    {left : Expr}, whole before left → Settles (fun used => Completable whole (before ++ used))
      (fun stop tokens => chainFrom op? (operand stop) tokens.length left tokens) stop tokens := by
  induction hlength : tokens.length using Nat.strong_induction_on generalizing tokens with
  | _ length ih =>
  -- Each turn takes an operator, and `before` grows by what the turn has read.
  intro before left hleft
  refine Settles.of_eq ?_ fun length others => chainFrom_length (hstays length) left others
  refine settles_operator? (settles_ok left) ?_
  rintro sign rest symbol op rfl hsign hop
  dsimp only
  refine (hoperand stop rest).bind ?_ ?_
  · intro used hused
    refine hused.imp fun more right hright => ⟨.binary sign.offset left op right, ?_⟩
    rw [List.append_assoc]
    exact hstep hleft hsign hop hright
  · rintro used later right rfl hright
    have hwhole := hstep hleft hsign hop ((htakes stop).spells hright)
    refine (ih later.length ?_ later rfl hwhole).imp ?_
    · rw [← hlength, List.length_cons, List.length_append]
      omega
    · intro more _ _ hmore
      rwa [List.append_assoc] at hmore

theorem settles_chain (hone : ∀ {tokens : List Token} {expr : Expr}, part tokens expr →
    whole tokens expr) (stop : Nat) (tokens : List Token) :
    Settles (Completable whole) (fun stop => chain op? (operand stop)) stop tokens := by
  refine (hoperand stop tokens).bind ?_ ?_
  · intro before hbefore
    exact hbefore.imp fun more expr hexpr => ⟨expr, hone hexpr⟩
  · rintro used rest first rfl hfirst
    exact settles_chainFrom htakes hstays hoperand hstep stop rest
      (hone ((htakes stop).spells hfirst))

end Chain

theorem settles_disjunction {room : Nat} {operand : Nat → Reader Expr}
    (htakes : ∀ stop, Takes (operand stop) (Derives room .negation))
    (hstays : ∀ stop, (operand stop).Stays stop)
    (hoperand : ∀ stop tokens, Settles (Completable (Derives room .negation)) operand stop tokens)
    (stop : Nat) (tokens : List Token) :
    Settles (Completable (Derives room .disjunction)) (fun stop => disjunction (operand stop)) stop
      tokens :=
  settles_chain (fun stop => takes_chain (htakes stop) derives_of_andOp? .negation)
    (fun stop => stays_chain (hstays stop))
    (settles_chain htakes hstays hoperand derives_of_andOp? .negation) derives_of_orOp?
    .conjunction stop tokens

/-! ### One level -/

theorem not_spells_not_of_filler {token : Token} (hfiller : token.lexeme ∈ fillers) :
    ¬ token.Spells .not := by
  rw [spells_iff, Token.symbol?]
  simp only [fillers, List.mem_cons, List.not_mem_nil, or_false] at hfiller
  rcases hfiller with hlexeme | hlexeme | hlexeme <;> rw [hlexeme] <;> decide +kernel

/-- A negation can be continued like a comparison unless it starts with the operator. -/
theorem completable_negation {room : Nat} {before after : List Token}
    (hstart : ∀ token, (before ++ after).head? = some token → ¬ token.Spells .not)
    (hbefore : Completable (Derives room .comparison) before) :
    Completable (Derives room .negation) before := by
  obtain ⟨more, expr, hmore, hexpr⟩ := hbefore
  refine ⟨more, expr, hmore, .comparison hexpr ?_⟩
  intro token hhead
  cases before with
  -- Nothing is read yet, so the comparison starts with what it is continued with.
  | nil => exact not_spells_not_of_filler (hmore token (List.mem_of_mem_head? hhead))
  | cons first rest => exact hstart token hhead

section Level

variable {room : Nat} {nested : Nat → Reader Expr}
  (htakes : ∀ stop, Takes (nested stop) (Deeper room .disjunction))
  (hstays : ∀ stop, (nested stop).Stays stop)
  (hnested : ∀ stop tokens, Settles (Completable (Deeper room .disjunction)) nested stop tokens)
include htakes hstays hnested

theorem settles_argumentsFrom (stop : Nat) (tokens : List Token) :
    Settles (Completable (SomeArguments room))
      (fun stop tokens => argumentsFrom stop (nested stop) (tokens.length + 1) tokens) stop
      tokens := by
  induction hlength : tokens.length using Nat.strong_induction_on generalizing tokens with
  | _ length ih =>
  refine Settles.of_eq ?_ fun length others => argumentsFrom_length (hstays length) others
  refine (hnested stop tokens).bind ?_ ?_
  · intro before hbefore
    refine hbefore.close (by decide : .symbol .closeParen ∈ fillers) ?_
    intro more expr hexpr
    rw [← List.append_assoc]
    exact ⟨[expr], .one hexpr closeParen_spells⟩
  · rintro used rest first rfl hfirst
    have hsegment := (htakes stop).spells hfirst
    -- A comma is asked for, but where it is missing a parenthesis would do as well.
    refine settles_past? ?_ fun _ _ _ _ => settles_ok [first]
    intro _
    dsimp only
    refine settles_expect_bind ?_ ?_
    · rw [List.append_nil]
      exact completable_of_filler (by decide) (.one hsegment closeParen_spells)
    · rintro comma later rfl hcomma
      refine (ih later.length ?_ later rfl).bind ?_ ?_
      · rw [← hlength, List.length_append, List.length_cons]
        omega
      · intro before hbefore
        refine hbefore.imp fun more exprs hexprs => ⟨first :: exprs, ?_⟩
        rw [List.append_assoc]
        exact .more hsegment hcomma hexprs
      · intro _ _ others _ _
        exact settles_ok (first :: others)

theorem settles_arguments (stop : Nat) (tokens : List Token) :
    Settles (Completable (Arguments room)) (fun stop => arguments stop (nested stop)) stop
      tokens := by
  have hchoice : Settles (Completable (Arguments room)) (fun stop tokens =>
      (past? .closeParen tokens).elim
        (argumentsFrom stop (nested stop) (tokens.length + 1) tokens) fun rest => .ok ([], rest))
      stop tokens := by
    refine settles_past? ?_ fun _ _ _ _ => settles_ok []
    intro _
    refine (settles_argumentsFrom htakes hstays hnested stop tokens).imp ?_
    intro before _ _ hbefore
    exact hbefore.imp fun more exprs hexprs => ⟨exprs, hexprs.arguments⟩
  refine hchoice.of_eq ?_
  intro length others
  rw [arguments]
  cases past? .closeParen others <;> rfl

/-- A name may have arguments behind it. -/
theorem settles_call {whole : List Token → Expr → Prop} {front : List Token} (plain : Expr)
    (called : List Expr → Expr)
    (hcalled : ∀ {opening : Token} {between : List Token} {args : List Expr},
      opening.Spells .openParen → Arguments room between args →
        whole (front ++ opening :: between) (called args)) (stop : Nat) (tokens : List Token) :
    Settles (fun before => Completable whole (front ++ before)) (fun stop tokens =>
      (past? .openParen tokens).elim (.ok (plain, tokens)) fun rest =>
        arguments stop (nested stop) rest >>= fun found => .ok (called found.1, found.2))
      stop tokens := by
  refine settles_past? (fun _ => settles_ok plain) ?_
  rintro opening rest rfl hopening
  refine (settles_arguments htakes hstays hnested stop rest).bind ?_ ?_
  · intro before hbefore
    refine hbefore.imp fun more args hargs => ⟨called args, ?_⟩
    rw [List.append_assoc]
    exact hcalled hopening hargs
  · intro _ _ args _ _
    exact settles_ok (called args)

theorem settles_named {token : Token} {name : String} (hword : token.lexeme = .word name)
    (stop : Nat) (tokens : List Token) :
    Settles (fun before => Completable (Derives room .primary) (token :: before))
      (fun stop => named stop (nested stop) token.offset name) stop tokens := by
  cases hreserved : reserved? name with
  | some value =>
      refine (settles_ok (.literal token.offset value)).of_eq ?_
      intro length others
      rw [named, hreserved]
  | none =>
      have hfree := reserved?_eq_none_iff.mp hreserved
      have hcalled : ∀ {opening : Token} {between : List Token} {args : List Expr},
          opening.Spells .openParen → Arguments room between args →
            Derives room .primary ([token] ++ opening :: between) (.call token.offset name args) :=
        fun hopening hargs => hargs.call hword hfree hopening
      have hcall := settles_call htakes hstays hnested (.attribute token.offset name)
        (.call token.offset name) hcalled stop tokens
      refine hcall.of_eq ?_
      intro length others
      rw [named, hreserved]
      cases past? .openParen others <;> rfl

omit hstays in
theorem settles_paren {opening : Token} (hopening : opening.Spells .openParen) (stop : Nat)
    (tokens : List Token) :
    Settles (fun before => Completable (Derives room .primary) (opening :: before))
      (fun stop tokens => nested stop tokens >>= fun found =>
        expect stop .closeParen found.2 >>= fun rest => .ok (found.1, rest)) stop tokens := by
  refine (hnested stop tokens).bind ?_ ?_
  · intro before hbefore
    refine hbefore.close (by decide : .symbol .closeParen ∈ fillers) ?_
    rintro more expr ⟨inner, rfl, hexpr⟩
    rw [List.cons_append, ← List.append_assoc]
    exact ⟨expr, .paren hopening hexpr closeParen_spells⟩
  · rintro used rest inner rfl hinner
    obtain ⟨below, rfl, hexpr⟩ := (htakes stop).spells hinner
    refine settles_expect_bind ?_ fun _ _ _ _ => settles_ok inner
    rw [List.append_nil]
    exact completable_of_filler (by decide) (.paren hopening hexpr closeParen_spells)

theorem settles_primary (stop : Nat) (tokens : List Token) :
    Settles (Completable (Derives room .primary)) (fun stop => primary stop (nested stop)) stop
      tokens := by
  have hname : Completable (Derives room .primary) [] :=
    completable_of_filler (by decide) (derives_name room)
  cases tokens with
  | nil => exact (settles_fail fun _ => hname).congr rfl fun _ _ hsame =>
      absurd hsame not_sameStart_nil
  | cons token rest =>
      cases hlexeme : token.lexeme with
      | number digits =>
          have hread : ∀ length later, primary length (nested length) (token :: later) =
              number token.offset digits >>= fun expr => .ok (expr, later) := by
            intro length later
            rw [primary, hlexeme]
            rfl
          by_cases hlong : maxNumeralDigits < digits.length
          -- A number that is too long is no issue, so nothing is asked of what stands before it.
          · rw [number, if_pos hlong] at hread
            exact .numberTooLong (hread stop rest)
          · rw [number, if_neg hlong] at hread
            exact (settles_ok _).cons hread
      | text value =>
          refine (settles_ok (.literal token.offset (.text value))).cons ?_
          intro stop rest
          rw [primary, hlexeme]
      | word name =>
          refine (settles_named htakes hstays hnested hlexeme stop rest).cons ?_
          intro stop rest
          rw [primary, hlexeme]
      | symbol sign =>
          by_cases hopening : sign = .openParen
          · subst hopening
            refine (settles_paren htakes hnested (.sign hlexeme) stop rest).cons ?_
            intro stop rest
            rw [primary, hlexeme]
            rfl
          · have hunexpected : ∀ length later, primary length (nested length) (token :: later) =
                fail (.unexpectedToken sign.text) token.offset := by
              intro length later
              rw [primary, hlexeme]
              cases sign with
              | openParen => exact absurd rfl hopening
              | _ => rfl
            refine (settles_fail fun _ => hname).congr (hunexpected stop rest) ?_
            rintro length others ⟨_, _, later, ⟨⟩, rfl⟩
            exact hunexpected length later

theorem settles_member {before : List Token} {target : Expr} {dot : Token}
    (htarget : Derives room .operand before target) (hdot : dot.Spells .dot) (stop : Nat)
    (tokens : List Token) :
    Settles (fun used => Completable (Derives room .operand) (before ++ dot :: used))
      (fun stop => member stop (nested stop) target) stop tokens := by
  have hname : Completable (Derives room .operand) (before ++ [dot]) := by
    have hproperty : Derives room .operand (before ++ [dot] ++ [(Lexeme.word "x").token])
        (.property 0 target "x") := by
      rw [List.append_assoc]
      exact .property htarget hdot rfl
    exact completable_of_filler (by decide) hproperty
  cases tokens with
  | nil => exact (settles_fail fun _ => hname).congr rfl fun _ _ hsame =>
      absurd hsame not_sameStart_nil
  | cons word rest =>
      by_cases hword : ∃ name, word.lexeme = .word name
      · obtain ⟨name, hword⟩ := hword
        have hcalled : ∀ {opening : Token} {between : List Token} {args : List Expr},
            opening.Spells .openParen → Arguments room between args →
              Derives room .operand (before ++ [dot, word] ++ opening :: between)
                (.method word.offset target name args) := by
          intro opening between args hopening hargs
          rw [List.append_assoc]
          exact hargs.method htarget hdot hword hopening
        have hcall := (settles_call htakes hstays hnested (.property word.offset target name)
          (.method word.offset target name) hcalled stop rest).imp fun used _ _ hused =>
            show Completable (Derives room .operand) (before ++ dot :: word :: used) by
              rwa [List.append_assoc] at hused
        refine hcall.cons ?_
        intro stop rest
        rw [member, hword]
        cases past? .openParen rest <;> rfl
      · have hmissing : ∀ length later, member length (nested length) target (word :: later) =
            fail .expectedMemberName word.offset := by
          intro length later
          rw [member]
          split
          · next name hname => exact absurd ⟨name, hname⟩ hword
          · rfl
        refine (settles_fail fun _ => hname).congr (hmissing stop rest) ?_
        rintro length others ⟨_, _, later, ⟨⟩, rfl⟩
        exact hmissing length later

omit hstays in
theorem settles_entry {before : List Token} {target : Expr} {opening : Token}
    (htarget : Derives room .operand before target) (hopening : opening.Spells .openBracket)
    (stop : Nat) (tokens : List Token) :
    Settles (fun used => Completable (Derives room .operand) (before ++ opening :: used))
      (fun stop => entry stop (nested stop) target) stop tokens := by
  refine (hnested stop tokens).bind ?_ ?_
  · intro used hused
    refine hused.close (by decide : .symbol .closeBracket ∈ fillers) ?_
    rintro more key ⟨inner, rfl, hkey⟩
    rw [List.append_assoc, List.cons_append, ← List.append_assoc used]
    exact ⟨_, .index htarget hopening hkey closeBracket_spells⟩
  · rintro used rest key rfl hread
    obtain ⟨inner, rfl, hkey⟩ := (htakes stop).spells hread
    refine settles_expect_bind ?_ fun _ _ _ _ => settles_ok (Expr.index key.offset target key)
    rw [List.append_nil]
    have hindex : Derives (inner + 1) .operand
        (before ++ opening :: used ++ [(Lexeme.symbol .closeBracket).token])
        (.index key.offset target key) := by
      rw [List.append_assoc]
      exact .index htarget hopening hkey closeBracket_spells
    exact completable_of_filler (by decide) hindex

theorem settles_suffixesFrom (stop : Nat) (tokens : List Token) : ∀ {before : List Token}
    {target : Expr}, Derives room .operand before target →
      Settles (fun used => Completable (Derives room .operand) (before ++ used))
        (fun stop tokens => suffixesFrom stop (nested stop) tokens.length target tokens) stop
        tokens := by
  induction hlength : tokens.length using Nat.strong_induction_on generalizing tokens with
  | _ length ih =>
  intro before target htarget
  have hon : ∀ {first : Token} {used later : List Token} {next : Expr},
      tokens = first :: (used ++ later) → Derives room .operand (before ++ first :: used) next →
        Settles
          (fun more => Completable (Derives room .operand) (before ++ first :: (used ++ more)))
          (fun stop tokens => suffixesFrom stop (nested stop) tokens.length next tokens) stop
          later := by
    rintro first used later next rfl hnext
    refine (ih later.length ?_ later rfl hnext).imp ?_
    · rw [← hlength, List.length_cons, List.length_append]
      omega
    · intro more _ _ hmore
      rwa [List.append_assoc] at hmore
  refine Settles.of_eq ?_ fun length others => suffixesFrom_length (hstays length) target others
  refine settles_past? (fun _ => settles_past? (fun _ => settles_ok target) ?_) ?_
  · rintro opening rest rfl hopening
    refine (settles_entry htakes hnested htarget hopening stop rest).bind (fun _ => id) ?_
    rintro used later next rfl hread
    obtain ⟨other, hsame, hnext⟩ := takes_entry (htakes stop) htarget hopening hread
    cases List.append_cancel_right hsame
    exact hon rfl hnext
  · rintro dot rest rfl hdot
    refine (settles_member htakes hstays hnested htarget hdot stop rest).bind (fun _ => id) ?_
    rintro used later next rfl hread
    obtain ⟨other, hsame, hnext⟩ := takes_member (htakes stop) htarget hdot hread
    cases List.append_cancel_right hsame
    exact hon rfl hnext

theorem settles_operand (stop : Nat) (tokens : List Token) :
    Settles (Completable (Derives room .operand)) (fun stop => operand stop (nested stop)) stop
      tokens := by
  refine (settles_primary htakes hstays hnested stop tokens).bind ?_ ?_
  · intro before hbefore
    exact hbefore.imp fun more expr hexpr => ⟨expr, .primary hexpr⟩
  · rintro used rest first rfl hfirst
    exact settles_suffixesFrom htakes hstays hnested stop rest
      (.primary ((takes_primary (htakes stop)).spells hfirst))

theorem settles_sum (stop : Nat) (tokens : List Token) :
    Settles (Completable (Derives room .sum)) (fun stop => sum stop (nested stop)) stop tokens :=
  settles_chain (fun stop => takes_operand (htakes stop)) (fun stop => stays_operand (hstays stop))
    (settles_operand htakes hstays hnested) derives_of_additiveOp? .operand stop tokens

theorem settles_comparison (stop : Nat) (tokens : List Token) :
    Settles (Completable (Derives room .comparison)) (fun stop => comparison stop (nested stop))
      stop tokens := by
  refine (settles_sum htakes hstays hnested stop tokens).bind ?_ ?_
  · intro before hbefore
    exact hbefore.imp fun more expr hexpr => ⟨expr, .sum hexpr⟩
  · rintro used rest left rfl hread
    have hleft := (takes_sum (htakes stop)).spells hread
    have hrest : Settles (fun before => Completable (Derives room .comparison) (used ++ before))
        (fun stop rest => (operator? comparisonOp? rest).elim (.ok (left, rest)) fun found =>
          sum stop (nested stop) found.2.2 >>= fun right =>
            .ok (.binary found.2.1 left found.1 right.1, right.2)) stop rest := by
      refine settles_operator? (settles_ok left) ?_
      rintro sign later symbol op rfl hsign hop
      dsimp only
      refine (settles_sum htakes hstays hnested stop later).bind ?_ ?_
      · intro before hbefore
        refine hbefore.imp fun more right hright => ⟨.binary sign.offset left op right, ?_⟩
        rw [List.append_assoc]
        exact derives_of_comparisonOp? hleft hsign hop hright
      · intro _ _ right _ _
        exact settles_ok (Expr.binary sign.offset left op right)
    refine hrest.of_eq ?_
    intro length others
    dsimp only
    cases operator? comparisonOp? others <;> rfl

theorem settles_negated {deeper : Nat → Reader Expr}
    (hdeeper : ∀ stop tokens, Settles (Completable (Deeper room .negation)) deeper stop tokens)
    (stop : Nat) (tokens : List Token) :
    Settles (Completable (Derives room .negation))
      (fun stop => negated stop (nested stop) (deeper stop)) stop tokens := by
  have hcomparison : (∀ token, tokens.head? = some token → ¬ token.Spells .not) →
      Settles (Completable (Derives room .negation))
        (fun stop => comparison stop (nested stop)) stop tokens := by
    intro hstart
    refine (settles_comparison htakes hstays hnested stop tokens).imp ?_
    rintro before after rfl hbefore
    exact completable_negation hstart hbefore
  cases tokens with
  | nil => exact (hcomparison nofun).congr rfl fun _ _ hsame => absurd hsame not_sameStart_nil
  | cons token rest =>
      by_cases hnot : token.symbol? = some .not
      · have hrest : Settles (fun before => Completable (Derives room .negation) (token :: before))
            (fun stop rest => deeper stop rest >>= fun found =>
              .ok (Expr.not token.offset found.1, found.2)) stop rest := by
          refine (hdeeper stop rest).bind ?_ ?_
          · intro before hbefore
            refine hbefore.imp ?_
            rintro more expr ⟨inner, rfl, hexpr⟩
            exact ⟨_, .not (spells_iff.mpr hnot) hexpr⟩
          · intro _ _ inner _ _
            exact settles_ok (Expr.not token.offset inner)
        refine hrest.cons ?_
        intro stop rest
        rw [negated, if_pos hnot]
        rfl
      · refine (hcomparison ?_).congr (if_neg hnot) ?_
        · rintro _ ⟨⟩ hspells
          exact hnot (spells_iff.mp hspells)
        · rintro length _ ⟨_, _, later, ⟨⟩, rfl⟩
          exact if_neg hnot

end Level

end Archetype.Condition
