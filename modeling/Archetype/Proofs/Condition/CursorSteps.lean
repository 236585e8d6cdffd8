import Archetype.Proofs.Condition.Cursor
import Archetype.Proofs.Condition.Lookahead

/-!
# Steps of a cursor

A call in front of the tokens that are left is put beside a reader of these tokens, which knows no
cursor and is told its level. The call reads the same, stops at the same place and fails with the
same failure; or else its fuel has run out. Calls are composed of steps over marks, of calls one
after the other or one level deeper, and of loops, and each of these has one rule here.
-/

namespace Archetype.Condition.Cursor

/-- The cursor in front of those tokens that are left. -/
def before (tokens rest : List Token) (depth : Nat) : Cursor :=
  ⟨tokens.length - rest.length, depth⟩

/-- What comes of a call in front of the tokens that are left, beside the outcome of a reader for
them. With a result, at least that many tokens are taken and all levels are left that were entered;
without one, the cursor is somewhere on its way to the end. Only if there is not enough fuel, the
call may remain unfinished. -/
inductive Reads {α : Type} (tokens : List Token) (enough : Prop) (least : Nat) (rest : List Token)
    (depth : Nat) (call : Call α) : Except Failure (α × List Token) → Prop
  | result {value : α} {later : List Token} (hlater : later <:+ rest)
      (hleast : later.length + least ≤ rest.length)
      (hrun : call.run.run (before tokens rest depth) = (.ok value, before tokens later depth)) :
      Reads tokens enough least rest depth call (.ok (value, later))
  | failure {failure : Failure} {cursor : Cursor}
      (hfrom : tokens.length - rest.length ≤ cursor.position)
      (hto : cursor.position ≤ tokens.length)
      (hrun : call.run.run (before tokens rest depth) = (.error (.failure failure), cursor)) :
      Reads tokens enough least rest depth call (.error failure)
  | unfinished {outcome : Except Failure (α × List Token)} {cursor : Cursor}
      (hfrom : tokens.length - rest.length ≤ cursor.position)
      (hto : cursor.position ≤ tokens.length) (hshort : ¬ enough)
      (hrun : call.run.run (before tokens rest depth) = (.error .unfinished, cursor)) :
      Reads tokens enough least rest depth call outcome

section Rules

variable {α β : Type} {stop : Nat} {tokens rest : List Token} {depth least : Nat} {enough : Prop}

theorem Reads.mono {call : Call α} {outcome : Except Failure (α × List Token)} {more : Nat}
    {stronger : Prop} (hreads : Reads tokens enough more rest depth call outcome)
    (hleast : least ≤ more) (henough : stronger → enough) :
    Reads tokens stronger least rest depth call outcome := by
  cases hreads with
  | result hlater htaken hrun => exact .result hlater (by omega) hrun
  | failure hfrom hto hrun => exact .failure hfrom hto hrun
  | unfinished hfrom hto hshort hrun => exact .unfinished hfrom hto (hshort ∘ henough) hrun

theorem reads_pure (value : α) :
    Reads tokens enough 0 rest depth (pure value) (.ok (value, rest)) :=
  .result List.suffix_rfl le_rfl rfl

theorem reads_throw (failure : Failure) :
    @Reads α tokens enough least rest depth (throw (.failure failure)) (.error failure) :=
  .failure le_rfl (Nat.sub_le _ _) rfl

theorem reads_unfinished {outcome : Except Failure (α × List Token)} (hshort : ¬ enough) :
    Reads tokens enough least rest depth (throw .unfinished) outcome :=
  .unfinished le_rfl (Nat.sub_le _ _) hshort rfl

/-- A call may have taken tokens already. -/
theorem Reads.after {call other : Call α} {outcome : Except Failure (α × List Token)}
    {later : List Token} {more : Nat} (hreads : Reads tokens enough more later depth other outcome)
    (hlater : later <:+ rest) (hleast : later.length + least ≤ rest.length + more)
    (hrun : call.run.run (before tokens rest depth) = other.run.run (before tokens later depth)) :
    Reads tokens enough least rest depth call outcome := by
  have hlength := hlater.length_le
  cases hreads with
  | result hlast htaken hother =>
      exact .result (hlast.trans hlater) (by omega) (hrun.trans hother)
  | failure hfrom hto hother => exact .failure (by omega) hto (hrun.trans hother)
  | unfinished hfrom hto hshort hother =>
      exact .unfinished (by omega) hto hshort (hrun.trans hother)

theorem run_bind_of_ok {call : Call α} {value : α} {start cursor : Cursor} (next : α → Call β)
    (hrun : call.run.run start = (.ok value, cursor)) :
    (call >>= next).run.run start = (next value).run.run cursor := by
  rw [ExceptT.run_bind, StateT.run_bind, hrun]
  rfl

theorem run_bind_of_error {call : Call α} {halt : Halt} {start cursor : Cursor}
    (next : α → Call β) (hrun : call.run.run start = (.error halt, cursor)) :
    (call >>= next).run.run start = (.error halt, cursor) := by
  rw [ExceptT.run_bind, StateT.run_bind, hrun]
  rfl

theorem exists_of_run_bind {call : Call α} {next : α → Call β} {value : β} {start cursor : Cursor}
    (hrun : (call >>= next).run.run start = (.ok value, cursor)) :
    ∃ first middle, call.run.run start = (.ok first, middle) ∧
      (next first).run.run middle = (.ok value, cursor) := by
  cases hfirst : call.run.run start with
  | mk outcome middle =>
      cases outcome with
      | ok first => exact ⟨first, middle, rfl, run_bind_of_ok next hfirst ▸ hrun⟩
      | error halt =>
          rw [run_bind_of_error next hfirst] at hrun
          cases hrun

/-- **One call after the other.** The second one starts where the first one has stopped, and at the
level at which the first one has started. -/
theorem Reads.bind {call : Call α} {next : α → Call β}
    {outcome : Except Failure (α × List Token)}
    {following : α × List Token → Except Failure (β × List Token)}
    (hreads : Reads tokens enough least rest depth call outcome)
    (hnext : ∀ value later, later <:+ rest → later.length + least ≤ rest.length →
      Reads tokens enough 0 later depth (next value) (following (value, later))) :
    Reads tokens enough least rest depth (call >>= next) (outcome >>= following) := by
  cases hreads with
  | result hlater htaken hrun =>
      exact (hnext _ _ hlater htaken).after hlater htaken (run_bind_of_ok next hrun)
  | failure hfrom hto hrun => exact .failure hfrom hto (run_bind_of_error next hrun)
  | unfinished hfrom hto hshort hrun =>
      exact .unfinished hfrom hto hshort (run_bind_of_error next hrun)

/-! ### Marks -/

/-- The mark in front: the first token that is left, or the end. -/
def front (stop : Nat) : List Token → Mark
  | [] => .stop stop
  | token :: _ => .token token

theorem offset_front (stop : Nat) (rest : List Token) :
    (front stop rest).offset = offsetOf stop rest := by
  cases rest <;> rfl

theorem shown_front (stop : Nat) (rest : List Token) :
    (front stop rest).shown = rest.head?.map fun token => token.lexeme.shown := by
  cases rest <;> rfl

theorem getElem?_ended (hrest : rest <:+ tokens) :
    (ended stop tokens)[tokens.length - rest.length]? = some (front stop rest) := by
  obtain ⟨used, rfl⟩ := hrest
  cases rest <;> simp [ended, front]

/-- **There is a mark at the place of the cursor.** -/
theorem run_peek (hrest : rest <:+ tokens) :
    (peek (ended stop tokens)).run.run (before tokens rest depth) =
      (.ok (front stop rest), before tokens rest depth) := by
  have hplace : (get : Call Cursor).run.run (before tokens rest depth) =
      (.ok (before tokens rest depth), before tokens rest depth) := rfl
  rw [peek, run_bind_of_ok _ hplace, before]
  dsimp only
  rw [getElem?_ended hrest]
  rfl

theorem before_cons {token : Token} {later : List Token} (hrest : token :: later <:+ tokens) :
    { before tokens (token :: later) depth with
      position := (before tokens (token :: later) depth).position + 1 } =
        before tokens later depth := by
  have hlength := hrest.length_le
  rw [List.length_cons] at hlength
  simp only [before, List.length_cons, Cursor.mk.injEq, and_true]
  omega

/-- The end is not stepped over. -/
theorem run_advance (hrest : rest <:+ tokens) :
    (advance (ended stop tokens)).run.run (before tokens rest depth) =
      (.ok (front stop rest), before tokens rest.tail depth) := by
  rw [advance, run_bind_of_ok _ (run_peek hrest)]
  cases rest with
  | nil => rfl
  | cons token later => exact congrArg (Prod.mk _) (before_cons hrest)

theorem run_operator {accept : Symbol → Option β} (hrest : rest <:+ tokens) :
    (operator (ended stop tokens) accept).run.run (before tokens rest depth) =
      match operator? accept rest with
      | none => (.ok none, before tokens rest depth)
      | some (found, offset, later) => (.ok (some (found, offset)), before tokens later depth) := by
  rw [operator, run_bind_of_ok _ (run_peek hrest)]
  cases rest with
  | nil => rfl
  | cons token later =>
      dsimp only [front, operator?]
      cases token.symbol?.bind accept with
      | none => rfl
      | some found =>
          dsimp only [Option.map_some]
          rw [run_bind_of_ok _ (run_advance hrest)]
          rfl

theorem operator?_only (symbol : Symbol) (rest : List Token) :
    operator? (only symbol) rest =
      (past? symbol rest).map fun later => ((), offsetOf 0 rest, later) := by
  cases rest with
  | nil => rfl
  | cons token later =>
      rw [operator?, past?]
      cases token.symbol? with
      | none => rfl
      | some other => by_cases hsame : other = symbol <;> simp [hsame, only, offsetOf]

theorem run_passes {symbol : Symbol} (hrest : rest <:+ tokens) :
    (passes (ended stop tokens) symbol).run.run (before tokens rest depth) =
      match past? symbol rest with
      | none => (.ok false, before tokens rest depth)
      | some later => (.ok true, before tokens later depth) := by
  have hoperator : (operator (ended stop tokens) (only symbol)).run.run
      (before tokens rest depth) = _ := run_operator hrest
  rw [operator?_only] at hoperator
  cases hpast : past? symbol rest with
  | none =>
      rw [hpast] at hoperator
      exact run_bind_of_ok _ hoperator
  | some later =>
      rw [hpast] at hoperator
      exact run_bind_of_ok _ hoperator

section Steps

variable {outcome : Except Failure (α × List Token)}

/-- What a call goes on with behind the token that it has taken. -/
theorem Reads.of_taken {call other : Call α} {token : Token} {later : List Token}
    (hrest : rest = token :: later)
    (hreads : Reads tokens enough (least - 1) later depth other outcome)
    (hrun : call.run.run (before tokens rest depth) = other.run.run (before tokens later depth)) :
    Reads tokens enough least rest depth call outcome := by
  subst hrest
  exact hreads.after (List.suffix_cons token later) (by rw [List.length_cons]; omega) hrun

variable (hrest : rest <:+ tokens)
include hrest

theorem reads_operator_bind {accept : Symbol → Option β} {next : Option (β × Nat) → Call α}
    (hnone : operator? accept rest = none →
      Reads tokens enough least rest depth (next none) outcome)
    (hsome : ∀ token found later, rest = token :: later →
      operator? accept rest = some (found, token.offset, later) →
      Reads tokens enough (least - 1) later depth (next (some (found, token.offset))) outcome) :
    Reads tokens enough least rest depth (operator (ended stop tokens) accept >>= next)
      outcome := by
  have hoperator : (operator (ended stop tokens) accept).run.run (before tokens rest depth) = _ :=
    run_operator hrest
  cases hfound : operator? accept rest with
  | none =>
      rw [hfound] at hoperator
      exact (hnone hfound).after List.suffix_rfl (by omega) (run_bind_of_ok next hoperator)
  | some found =>
      rw [hfound] at hoperator
      cases rest with
      | nil => cases hfound
      | cons token later =>
          obtain ⟨op, -, rfl⟩ := Option.map_eq_some_iff.mp hfound
          exact (hsome token op later rfl hfound).of_taken rfl (run_bind_of_ok next hoperator)

theorem reads_passes_bind {symbol : Symbol} {next : Bool → Call α}
    (hnone : past? symbol rest = none → Reads tokens enough least rest depth (next false) outcome)
    (hsome : ∀ token later, rest = token :: later → past? symbol rest = some later →
      Reads tokens enough (least - 1) later depth (next true) outcome) :
    Reads tokens enough least rest depth (passes (ended stop tokens) symbol >>= next)
      outcome := by
  have hpasses : (passes (ended stop tokens) symbol).run.run (before tokens rest depth) = _ :=
    run_passes hrest
  cases hpast : past? symbol rest with
  | none =>
      rw [hpast] at hpasses
      exact (hnone hpast).after List.suffix_rfl (by omega) (run_bind_of_ok next hpasses)
  | some later =>
      rw [hpast] at hpasses
      obtain ⟨token, htoken, -⟩ := past?_eq_some_iff.mp hpast
      exact (hsome token later htoken hpast).of_taken htoken (run_bind_of_ok next hpasses)

/-- A symbol that is needed is taken, or its absence is the failure. -/
theorem reads_need_bind {symbol : Symbol} {next : Unit → Call α}
    {following : List Token → Except Failure (α × List Token)}
    (hnext : ∀ token later, rest = token :: later → past? symbol rest = some later →
      Reads tokens enough (least - 1) later depth (next ()) (following later)) :
    Reads tokens enough least rest depth (need (ended stop tokens) symbol >>= next)
      (expect stop symbol rest >>= following) := by
  rw [need, bind_assoc]
  refine reads_passes_bind hrest ?_ ?_
  · intro hnone
    rw [expect, hnone, if_neg Bool.false_ne_true, bind_assoc]
    refine (reads_throw _).after List.suffix_rfl le_rfl ?_
    rw [run_bind_of_ok _ (run_peek hrest), shown_front, offset_front]
    rfl
  · intro token later htoken hpast
    rw [expect, hpast]
    exact hnext token later htoken hpast

theorem reads_peek_bind {next : Mark → Call α}
    (hnext : Reads tokens enough least rest depth (next (front stop rest)) outcome) :
    Reads tokens enough least rest depth (peek (ended stop tokens) >>= next) outcome :=
  hnext.after List.suffix_rfl le_rfl (run_bind_of_ok next (run_peek hrest))

theorem reads_advance_bind {next : Mark → Call α}
    (hnil : rest = [] → Reads tokens enough least rest depth (next (.stop stop)) outcome)
    (hcons : ∀ token later, rest = token :: later →
      Reads tokens enough (least - 1) later depth (next (.token token)) outcome) :
    Reads tokens enough least rest depth (advance (ended stop tokens) >>= next) outcome := by
  have hadvance : (advance (ended stop tokens)).run.run (before tokens rest depth) = _ :=
    run_advance hrest
  cases rest with
  | nil => exact (hnil rfl).after List.suffix_rfl (by omega) (run_bind_of_ok next hadvance)
  | cons token later => exact (hcons token later rfl).of_taken rfl (run_bind_of_ok next hadvance)

/-- A call one level deeper leaves that level if it has a result, and is refused if there is no
level left. -/
theorem reads_within {call : Call α} {inner : Reader α}
    (hinner : depth < maxNesting →
      Reads tokens enough least rest (depth + 1) call (inner rest)) :
    Reads tokens enough least rest depth (within (ended stop tokens) call)
      (if depth < maxNesting then inner rest else fail .tooDeep (offsetOf stop rest)) := by
  have hrun : (within (ended stop tokens) call).run.run (before tokens rest depth) =
      (if depth + 1 > maxNesting then
        peek (ended stop tokens) >>= fun mark => failAt .tooDeep mark.offset
      else do
        let result ← call
        modifyThe Cursor fun cursor => { cursor with depth := cursor.depth - 1 }
        return result).run.run (before tokens rest (depth + 1)) := by
    rfl
  split
  · next hdepth =>
    rw [if_neg (by omega)] at hrun
    generalize houtcome : inner rest = outcome at hinner
    cases hinner hdepth with
    | result hlater hleast hcall =>
        refine .result hlater hleast (hrun.trans ?_)
        rw [run_bind_of_ok _ hcall]
        rfl
    | failure hfrom hto hcall => exact .failure hfrom hto (hrun.trans (run_bind_of_error _ hcall))
    | unfinished hfrom hto hshort hcall =>
        exact .unfinished hfrom hto hshort (hrun.trans (run_bind_of_error _ hcall))
  · next hdepth =>
    rw [if_pos (by omega), run_bind_of_ok _ (run_peek hrest), offset_front] at hrun
    exact .failure le_rfl (Nat.sub_le _ _) hrun

end Steps

/-! ### Loops -/

section Loops

variable {size : Nat}

/-- A chain ends because every turn takes an operator and an operand. -/
theorem reads_chained {op? : Symbol → Option BinaryOp} {call : Call Expr} {reader : Reader Expr}
    (hstays : reader.Stays stop)
    (hcall : ∀ later, later <:+ tokens → later.length < size →
      Reads tokens enough 1 later depth call (reader later)) :
    ∀ (turns : Nat) (left : Expr) (rest : List Token), rest <:+ tokens → rest.length ≤ size →
      (enough → rest.length < turns) →
      Reads tokens enough 0 rest depth (chained (ended stop tokens) op? call turns left)
        (chainFrom op? reader rest.length left rest) := by
  intro turns
  induction turns with
  | zero =>
      intro left rest _ _ hturns
      exact reads_unfinished fun henough => absurd (hturns henough) (Nat.not_lt_zero _)
  | succ turns ih =>
      intro left rest hrest hsize hturns
      rw [chained, chainFrom_length hstays]
      refine reads_operator_bind hrest ?_ ?_
      · intro hnone
        rw [hnone]
        exact reads_pure left
      · intro token op later htoken hsome
        rw [hsome]
        subst htoken
        rw [List.length_cons] at hsize hturns
        have hlater := (List.suffix_cons token later).trans hrest
        refine ((hcall later hlater (by omega)).mono (Nat.zero_le _) id).bind
          fun right last hlast htaken => ?_
        exact ih _ last (hlast.trans hlater) (by omega) fun henough => by
          have := hturns henough
          omega

theorem reads_chain {op? : Symbol → Option BinaryOp} {call : Call Expr} {reader : Reader Expr}
    {turns : Nat} (hstays : reader.Stays stop) (hrest : rest <:+ tokens)
    (hcall : ∀ later, later <:+ tokens → later.length ≤ rest.length →
      Reads tokens enough 1 later depth call (reader later))
    (hturns : enough → rest.length ≤ turns) :
    Reads tokens enough 1 rest depth
      (do chained (ended stop tokens) op? call turns (← call)) (chain op? reader rest) := by
  change Reads tokens enough 1 rest depth _ (reader rest >>= fun found =>
    chainFrom op? reader found.2.length found.1 found.2)
  refine (hcall rest hrest le_rfl).bind fun first later hlater htaken => ?_
  refine reads_chained hstays (fun last hlast hshorter => hcall last hlast (Nat.le_of_lt hshorter))
    turns first later (hlater.trans hrest) (by omega) fun henough => ?_
  have := hturns henough
  omega

end Loops

end Rules

end Archetype.Condition.Cursor
