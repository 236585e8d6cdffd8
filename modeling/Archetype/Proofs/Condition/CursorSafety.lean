import Archetype.Proofs.Condition.CursorSteps
import Archetype.Proofs.Condition.ParserSoundness

/-!
# Cursors stay among their tokens

A call that starts at some of the tokens does what the reader of its category does of the tokens
from there on. On the way the cursor only moves forward and never behind the end, so there always is
a mark at its place. A call with a result has taken a token and has left all levels that it entered,
so the calls that follow it start at the level at which it has started.

Calls end because each takes a token before it can come back to itself. The fuel for a call counts,
for every token that is left, all kinds of calls once, and then the kinds of calls that can follow
without a token in between.
-/

namespace Archetype.Condition.Cursor

/-! ### Calls -/

/-- How many kinds of calls there are that can follow a call without a token in between, and it. -/
def rank : Category → Nat
  | .primary => 1
  | .operand => 2
  | .sum => 3
  | .comparison => 4
  | .negation => 5
  | .conjunction => 6
  | .disjunction => 7

/-- The reader of a call that starts at a level. -/
def readerAt (stop depth : Nat) : Category → Reader Expr
  | .disjunction => whole stop (maxNesting - depth)
  | category => readerOf stop (maxNesting - depth) category

/-- Calls do what the readers of their level do, and end with so much fuel. -/
structure Serve (stop : Nat) (tokens : List Token) (fuel : Nat) (calls : Calls) : Prop where
  expr : ∀ category rest depth, rest <:+ tokens →
    Reads tokens (9 * rest.length + rank category ≤ fuel) 1 rest depth (calls.expr category)
      (readerAt stop depth category rest)
  arguments : ∀ rest depth, rest <:+ tokens →
    Reads tokens (9 * rest.length + 8 ≤ fuel) 1 rest depth calls.arguments
      (arguments stop (whole stop (maxNesting - depth)) rest)

theorem stays_whole (stop : Nat) : ∀ room, (whole stop room).Stays stop
  | 0 => stays_tooDeep stop
  | room + 1 => stays_disjunction (stays_negation stop room)

theorem takes_whole (stop : Nat) : ∀ room, Takes (whole stop room) (Deeper room .disjunction)
  | 0 => takes_tooDeep
  | room + 1 => (takes_disjunction (takes_negation room)).deeper

/-- The last token that is taken for arguments is the parenthesis behind them. -/
theorem exists_closing_of_arguments {stop room : Nat} {rest later : List Token} {args : List Expr}
    (hread : arguments stop (whole stop room) rest = .ok (args, later)) :
    ∃ used closing, rest = used ++ closing :: later ∧ closing.Spells .closeParen := by
  obtain ⟨used, rfl, harguments⟩ := takes_arguments (takes_whole stop room) _ _ _ hread
  cases harguments with
  | mk hargs hinner hbetween hclosing =>
      exact ⟨_, _, List.append_assoc _ _ _, hclosing⟩

/-! A level is left as long as fewer are entered than a condition may nest. -/

theorem whole_eq (stop depth : Nat) (tokens : List Token) :
    whole stop (maxNesting - depth) tokens =
      if depth < maxNesting then disjunction (negation stop (maxNesting - (depth + 1))) tokens
      else fail .tooDeep (offsetOf stop tokens) := by
  split
  · next hdepth =>
    rw [show maxNesting - depth = maxNesting - (depth + 1) + 1 by omega]
    rfl
  · next hdepth =>
    rw [Nat.sub_eq_zero_of_le (Nat.le_of_not_lt hdepth)]
    rfl

theorem negatedOperand_eq (stop depth : Nat) (tokens : List Token) :
    negatedOperand stop (maxNesting - depth) tokens =
      if depth < maxNesting then negation stop (maxNesting - (depth + 1)) tokens
      else fail .tooDeep (offsetOf stop tokens) := by
  split
  · next hdepth =>
    rw [show maxNesting - depth = maxNesting - (depth + 1) + 1 by omega]
    rfl
  · next hdepth =>
    rw [Nat.sub_eq_zero_of_le (Nat.le_of_not_lt hdepth)]
    rfl

section Bodies

variable {stop fuel depth : Nat} {tokens rest : List Token} {enough : Prop} {calls : Calls}
  (hcalls : Serve stop tokens fuel calls) (hrest : rest <:+ tokens)
include hcalls hrest

/-- A name with arguments or without any. -/
theorem reads_called {applied : List Expr → Expr} {plain : Expr}
    {outcome : Except Failure (Expr × List Token)}
    (hplain : past? .openParen rest = none → outcome = .ok (plain, rest))
    (happlied : ∀ args, past? .openParen rest = some args →
      outcome = arguments stop (whole stop (maxNesting - depth)) args >>= fun found =>
        .ok (applied found.1, found.2))
    (henough : enough → 9 * rest.length ≤ fuel) :
    Reads tokens enough 0 rest depth
      (do if ← passes (ended stop tokens) .openParen then
            return applied (← calls.arguments)
          else
            return plain)
      outcome := by
  refine reads_passes_bind hrest ?_ ?_
  · intro hnone
    rw [hplain hnone]
    exact reads_pure plain
  · rintro opening args rfl hpast
    rw [happlied args hpast]
    have hargs := (List.suffix_cons opening args).trans hrest
    refine ((hcalls.arguments args depth hargs).mono (Nat.zero_le _) fun hfuel => ?_).bind
      fun values last hlast htaken => reads_pure _
    have := henough hfuel
    rw [List.length_cons] at this
    omega

theorem reads_memberOf (target : Expr) (henough : enough → 9 * rest.length ≤ fuel) :
    Reads tokens enough 1 rest depth (memberOf (ended stop tokens) calls target)
      (member stop (whole stop (maxNesting - depth)) target rest) := by
  refine reads_advance_bind hrest ?_ ?_
  · rintro rfl
    exact reads_throw _
  · rintro token later rfl
    have hlater := (List.suffix_cons token later).trans hrest
    rw [member]
    dsimp only
    cases token.lexeme with
    | word name =>
        refine reads_called hcalls hlater (fun hnone => ?_) (fun args hpast => ?_) fun hfuel => ?_
        · rw [hnone]
        · rw [hpast]
          rfl
        · have := henough hfuel
          rw [List.length_cons] at this
          omega
    | number | text | symbol => exact reads_throw _

theorem reads_entryOf (target : Expr) (henough : enough → 9 * rest.length + 7 ≤ fuel) :
    Reads tokens enough 1 rest depth (entryOf (ended stop tokens) calls target)
      (entry stop (whole stop (maxNesting - depth)) target rest) := by
  refine ((hcalls.expr .disjunction rest depth hrest).mono le_rfl henough).bind
    fun key later hlater htaken => ?_
  refine reads_need_bind (hlater.trans hrest) fun closing last hclosing hpast => ?_
  exact reads_pure _

theorem reads_wordAt (offset : Nat) (name : String) (henough : enough → 9 * rest.length ≤ fuel) :
    Reads tokens enough 0 rest depth (wordAt (ended stop tokens) calls offset name)
      (named stop (whole stop (maxNesting - depth)) offset name rest) := by
  unfold wordAt named
  cases reserved? name with
  | some value => exact reads_pure _
  | none =>
      refine reads_called hcalls hrest (fun hnone => ?_) (fun args hpast => ?_) henough
      · rw [hnone]
      · rw [hpast]
        rfl

omit hrest in
theorem reads_suffixed : ∀ (turns : Nat) (target : Expr) (rest : List Token), rest <:+ tokens →
    (enough → 9 * rest.length ≤ fuel ∧ rest.length < turns) →
    Reads tokens enough 0 rest depth (suffixed (ended stop tokens) calls turns target)
      (suffixesFrom stop (whole stop (maxNesting - depth)) rest.length target rest) := by
  intro turns
  induction turns with
  | zero =>
      intro target rest _ hturns
      exact reads_unfinished fun henough => absurd (hturns henough).2 (Nat.not_lt_zero _)
  | succ turns ih =>
      intro target rest hrest hturns
      rw [suffixed, suffixesFrom_length (stays_whole stop _)]
      refine reads_passes_bind hrest ?_ ?_
      · intro hdot
        rw [hdot]
        refine reads_passes_bind hrest ?_ ?_
        · intro hbracket
          rw [hbracket]
          exact reads_pure target
        · rintro opening later rfl hbracket
          rw [hbracket]
          rw [List.length_cons] at hturns
          have hlater := (List.suffix_cons opening later).trans hrest
          refine ((reads_entryOf hcalls hlater target fun henough => ?_).mono (Nat.zero_le _)
            id).bind fun next last hlast htaken => ?_
          · have := hturns henough
            omega
          · refine ih next last (hlast.trans hlater) fun henough => ?_
            have := hturns henough
            omega
      · rintro dot later rfl hdot
        rw [hdot]
        rw [List.length_cons] at hturns
        have hlater := (List.suffix_cons dot later).trans hrest
        refine ((reads_memberOf hcalls hlater target fun henough => ?_).mono (Nat.zero_le _)
          id).bind fun next last hlast htaken => ?_
        · have := hturns henough
          omega
        · refine ih next last (hlast.trans hlater) fun henough => ?_
          have := hturns henough
          omega

omit hrest in
/-- The arguments that are there already stand before those that are read. -/
theorem reads_listed : ∀ (turns : Nat) (args : List Expr) (rest : List Token), rest <:+ tokens →
    (enough → 9 * rest.length + 7 ≤ fuel ∧ rest.length < turns) →
    Reads tokens enough 1 rest depth (listed (ended stop tokens) calls turns args)
      (argumentsFrom stop (whole stop (maxNesting - depth)) (rest.length + 1) rest >>= fun found =>
        .ok (args ++ found.1, found.2)) := by
  intro turns
  induction turns with
  | zero =>
      intro args rest _ hturns
      exact reads_unfinished fun henough => absurd (hturns henough).2 (Nat.not_lt_zero _)
  | succ turns ih =>
      intro args rest hrest hturns
      rw [listed, argumentsFrom_length (stays_whole stop _), bind_assoc]
      refine ((hcalls.expr .disjunction rest depth hrest).mono le_rfl fun henough =>
        (hturns henough).1).bind fun first later hlater htaken => ?_
      refine reads_passes_bind (hlater.trans hrest) ?_ ?_
      · intro hclosing
        rw [hclosing, if_neg Bool.false_ne_true]
        dsimp only [Option.elim_none]
        rw [bind_assoc]
        refine reads_need_bind (hlater.trans hrest) fun comma others hcomma hpast => ?_
        have hothers : others <:+ tokens :=
          (hcomma ▸ List.suffix_cons comma others).trans (hlater.trans hrest)
        rw [bind_assoc]
        have hmore := (ih (args ++ [first]) others hothers fun henough => by
          have := hturns henough
          have hlength := congrArg List.length hcomma
          rw [List.length_cons] at hlength
          omega).mono (Nat.zero_le _) id
        simpa only [ok_bind, List.append_assoc, List.singleton_append] using hmore
      · intro token last _ hclosing
        rw [hclosing]
        exact reads_pure _

theorem reads_argumentsBody (henough : enough → 9 * rest.length + 7 ≤ fuel) :
    Reads tokens enough 1 rest depth (argumentsBody (ended stop tokens) calls fuel)
      (arguments stop (whole stop (maxNesting - depth)) rest) := by
  unfold argumentsBody arguments
  refine reads_passes_bind hrest ?_ ?_
  · intro hclosing
    rw [hclosing, if_neg Bool.false_ne_true]
    have hsame : (argumentsFrom stop (whole stop (maxNesting - depth)) (rest.length + 1) rest >>=
        fun found => .ok ([] ++ found.1, found.2)) =
          argumentsFrom stop (whole stop (maxNesting - depth)) (rest.length + 1) rest :=
      bind_pure _
    refine hsame ▸ reads_listed hcalls fuel [] rest hrest fun hfuel => ?_
    have := henough hfuel
    omega
  · intro token later _ hclosing
    rw [hclosing]
    exact reads_pure _

theorem reads_primaryBody (henough : enough → 9 * rest.length ≤ fuel) :
    Reads tokens enough 1 rest depth (body (ended stop tokens) calls fuel .primary)
      (primary stop (whole stop (maxNesting - depth)) rest) := by
  refine reads_advance_bind hrest ?_ ?_
  · rintro rfl
    exact reads_throw _
  · rintro token later rfl
    have hlater := (List.suffix_cons token later).trans hrest
    rw [List.length_cons] at henough
    rw [primary]
    dsimp only
    cases token.lexeme with
    | number digits =>
        dsimp only
        cases number token.offset digits with
        | ok expr => exact reads_pure expr
        | error failure => exact reads_throw failure
    | text value => exact reads_pure _
    | word name =>
        exact reads_wordAt hcalls hlater token.offset name fun hfuel => by
          have := henough hfuel
          omega
    | symbol symbol =>
        cases symbol with
        | openParen =>
            refine ((hcalls.expr .disjunction later depth hlater).mono (Nat.zero_le _)
              fun hfuel => ?_).bind fun inner last hlast htaken => ?_
            · have := henough hfuel
              simp only [rank]
              omega
            · exact reads_need_bind (hlast.trans hlater) fun _ _ _ _ => reads_pure _
        | _ => exact reads_throw _

theorem reads_negationBody (henough : enough → 9 * rest.length + 4 ≤ fuel) :
    Reads tokens enough 1 rest depth (body (ended stop tokens) calls fuel .negation)
      (negation stop (maxNesting - depth) rest) := by
  rw [negation_eq]
  refine reads_operator_bind hrest ?_ ?_
  · intro hnone
    rw [operator?_only, Option.map_eq_none_iff] at hnone
    have hcomparison : negated stop (whole stop (maxNesting - depth))
        (negatedOperand stop (maxNesting - depth)) rest =
          readerAt stop depth .comparison rest := by
      cases rest with
      | nil => rfl
      | cons token later =>
          rw [past?] at hnone
          rw [negated, if_neg]
          · rfl
          · intro hnot
            rw [if_pos hnot] at hnone
            cases hnone
    rw [hcomparison]
    exact (hcalls.expr .comparison rest depth hrest).mono le_rfl henough
  · rintro token _ later rfl hsome
    have hlater := (List.suffix_cons token later).trans hrest
    have hnot : token.symbol? = some .not := by
      rw [operator?_only, past?] at hsome
      by_contra hother
      rw [if_neg hother] at hsome
      cases hsome
    rw [negated, if_pos hnot, negatedOperand_eq]
    refine ((reads_within hlater fun _ => ?_).mono (Nat.zero_le 1) id).bind
      fun inner last hlast htaken => reads_pure _
    refine (hcalls.expr .negation later (depth + 1) hlater).mono le_rfl fun hfuel => ?_
    have := henough hfuel
    rw [List.length_cons] at this
    simp only [rank]
    omega

theorem reads_comparisonBody (henough : enough → 9 * rest.length + 3 ≤ fuel) :
    Reads tokens enough 1 rest depth (body (ended stop tokens) calls fuel .comparison)
      (comparison stop (whole stop (maxNesting - depth)) rest) := by
  have hsum : ∀ later, later <:+ tokens → later.length ≤ rest.length →
      Reads tokens enough 1 later depth (calls.expr .sum)
        (sum stop (whole stop (maxNesting - depth)) later) := by
    intro later hlater hlength
    refine (hcalls.expr .sum later depth hlater).mono le_rfl fun hfuel => ?_
    have := henough hfuel
    simp only [rank]
    omega
  refine (hsum rest hrest le_rfl).bind fun left later hlater htaken => ?_
  dsimp only
  refine reads_operator_bind (hlater.trans hrest) ?_ ?_
  · intro hnone
    rw [hnone]
    exact reads_pure left
  · rintro token op last rfl hsome
    rw [hsome]
    have hlast := (List.suffix_cons token last).trans (hlater.trans hrest)
    rw [List.length_cons] at htaken
    exact ((hsum last hlast (by omega)).mono (Nat.zero_le _) id).bind
      fun right final hfinal htaken => reads_pure _

theorem reads_operandBody (henough : enough → 9 * rest.length + 1 ≤ fuel) :
    Reads tokens enough 1 rest depth (body (ended stop tokens) calls fuel .operand)
      (operand stop (whole stop (maxNesting - depth)) rest) := by
  refine ((hcalls.expr .primary rest depth hrest).mono le_rfl henough).bind
    fun first later hlater htaken => ?_
  refine reads_suffixed hcalls fuel first later (hlater.trans hrest) fun hfuel => ?_
  have := henough hfuel
  omega

/-- The call of a category has the fuel for the category that binds next more tightly. -/
theorem reads_chainBody {op? : Symbol → Option BinaryOp} (category : Category)
    (hstays : (readerAt stop depth category).Stays stop)
    (henough : enough → 9 * rest.length + rank category ≤ fuel) :
    Reads tokens enough 1 rest depth
      (do chained (ended stop tokens) op? (calls.expr category) fuel (← calls.expr category))
      (chain op? (readerAt stop depth category) rest) := by
  refine reads_chain hstays hrest (fun later hlater hlength => ?_) fun hfuel => ?_
  · refine (hcalls.expr category later depth hlater).mono le_rfl fun hfuel => ?_
    have := henough hfuel
    omega
  · have := henough hfuel
    omega

/-- **Each call does what the reader of its category does**, if the calls that it makes do so. -/
theorem reads_body (category : Category) :
    Reads tokens (9 * rest.length + rank category ≤ fuel + 1) 1 rest depth
      (body (ended stop tokens) calls fuel category) (readerAt stop depth category rest) := by
  cases category with
  | primary => exact reads_primaryBody hcalls hrest fun henough => Nat.le_of_succ_le_succ henough
  | operand => exact reads_operandBody hcalls hrest fun henough => Nat.le_of_succ_le_succ henough
  | sum =>
      exact reads_chainBody hcalls hrest .operand (stays_operand (stays_whole stop _))
        fun henough => Nat.le_of_succ_le_succ henough
  | comparison =>
      exact reads_comparisonBody hcalls hrest fun henough => Nat.le_of_succ_le_succ henough
  | negation => exact reads_negationBody hcalls hrest fun henough => Nat.le_of_succ_le_succ henough
  | conjunction =>
      exact reads_chainBody hcalls hrest .negation (stays_negation stop _)
        fun henough => Nat.le_of_succ_le_succ henough
  | disjunction =>
      rw [readerAt, whole_eq]
      refine reads_within hrest fun _ => ?_
      exact reads_chainBody hcalls hrest .conjunction
        (stays_chain (stays_negation stop _)) fun henough => Nat.le_of_succ_le_succ henough

end Bodies

/-- **Calls do what the readers of their level do.** The induction is on the fuel, of which each
call leaves one less to the calls that it makes. -/
theorem serve_run (stop : Nat) (tokens : List Token) (fuel : Nat) :
    Serve stop tokens fuel (run (ended stop tokens) fuel) := by
  induction fuel with
  | zero =>
      constructor
      · intro category rest depth _
        refine reads_unfinished ?_
        cases category <;> simp [rank]
      · intro rest depth _
        exact reads_unfinished (by omega)
  | succ fuel ih =>
      constructor
      · exact fun category rest depth hrest => reads_body ih hrest category
      · intro rest depth hrest
        exact reads_argumentsBody ih hrest fun henough => Nat.le_of_succ_le_succ henough

/-! ### What is kept from anywhere -/

/-- How a call goes that starts at a cursor: it moves forward only, not behind the end, and finds a
mark wherever it is; with a result it has taken a token and left all levels that it entered. -/
structure Keeps {α : Type} (tokens : List Token) (start : Cursor)
    (result : Except Halt α × Cursor) : Prop where
  forward : start.position ≤ result.2.position
  inside : result.2.position ≤ tokens.length
  marked : result.1 ≠ .error .noMark
  taken : ∀ value, result.1 = .ok value → start.position < result.2.position
  left : ∀ value, result.1 = .ok value → result.2.depth = start.depth

/-- A call ends as a reader of the tokens in front of it: where the reader stops, or with the
failure of the reader. -/
def EndsAs {α : Type} (tokens : List Token) (result : Except Halt α × Cursor)
    (outcome : Except Failure (α × List Token)) : Prop :=
  (∃ value, result.1 = .ok value ∧ outcome = .ok (value, tokens.drop result.2.position)) ∨
    ∃ failure, result.1 = .error (.failure failure) ∧ outcome = .error failure

section Anywhere

variable {α : Type} {stop fuel : Nat} {tokens : List Token}

theorem before_drop {start : Cursor} (hstart : start.position ≤ tokens.length) :
    before tokens (tokens.drop start.position) start.depth = start := by
  obtain ⟨position, depth⟩ := start
  simp only [before, List.length_drop, Cursor.mk.injEq, and_true]
  exact Nat.sub_sub_self hstart

section Outcomes

variable {start : Cursor} (hstart : start.position ≤ tokens.length) {enough : Prop} {call : Call α}
  {outcome : Except Failure (α × List Token)}
  (hreads : Reads tokens enough 1 (tokens.drop start.position) start.depth call outcome)
include hstart hreads

/-- A result is that of the reader, whatever the fuel was. -/
theorem outcome_of_run_eq_ok {value : α} {later : Cursor}
    (hrun : call.run.run start = (.ok value, later)) :
    outcome = .ok (value, tokens.drop later.position) := by
  cases hreads with
  | @result found rest hrest hleast hcall =>
      rw [before_drop hstart] at hcall
      cases hrun.symm.trans hcall
      have hsuffix := List.suffix_iff_eq_drop.mp (hrest.trans (List.drop_suffix _ _))
      exact congrArg (fun rest => Except.ok (value, rest)) hsuffix
  | failure _ _ hcall | unfinished _ _ _ hcall =>
      rw [before_drop hstart] at hcall
      cases hrun.symm.trans hcall

theorem keeps_of_reads :
    Keeps tokens start (call.run.run start) ∧
      (enough → EndsAs tokens (call.run.run start) outcome) := by
  have hlength : (tokens.drop start.position).length = tokens.length - start.position :=
    List.length_drop
  have hresult : ∀ {value later}, call.run.run start = (.ok value, later) →
      outcome = .ok (value, tokens.drop later.position) :=
    outcome_of_run_eq_ok hstart hreads
  cases hreads with
  | @result value later hlater hleast hrun =>
      rw [before_drop hstart] at hrun
      have houtcome := hresult hrun
      rw [hrun]
      have hposition : start.position < tokens.length - later.length := by omega
      exact ⟨⟨Nat.le_of_lt hposition, Nat.sub_le _ _, nofun, fun _ _ => hposition,
        fun _ _ => rfl⟩, fun _ => .inl ⟨value, rfl, houtcome⟩⟩
  | @failure failure cursor hfrom hto hrun =>
      rw [before_drop hstart] at hrun
      rw [hrun]
      have hforward : start.position ≤ cursor.position := by omega
      exact ⟨⟨hforward, hto, nofun, nofun, nofun⟩, fun _ => .inr ⟨_, rfl, rfl⟩⟩
  | @unfinished outcome cursor hfrom hto hshort hrun =>
      rw [before_drop hstart] at hrun
      rw [hrun]
      have hforward : start.position ≤ cursor.position := by omega
      exact ⟨⟨hforward, hto, nofun, nofun, nofun⟩, fun henough => absurd henough hshort⟩

end Outcomes

theorem keeps_expr (category : Category) {start : Cursor} (hstart : start.position ≤ tokens.length) :
    Keeps tokens start (((run (ended stop tokens) fuel).expr category).run.run start) ∧
      (9 * (tokens.length - start.position) + rank category ≤ fuel →
        EndsAs tokens (((run (ended stop tokens) fuel).expr category).run.run start)
          (readerAt stop start.depth category (tokens.drop start.position))) := by
  have hreads := (serve_run stop tokens fuel).expr category _ start.depth
    (List.drop_suffix start.position tokens)
  rw [List.length_drop] at hreads
  exact keeps_of_reads hstart hreads

theorem keeps_arguments {start : Cursor} (hstart : start.position ≤ tokens.length) :
    Keeps tokens start ((run (ended stop tokens) fuel).arguments.run.run start) ∧
      (9 * (tokens.length - start.position) + 8 ≤ fuel →
        EndsAs tokens ((run (ended stop tokens) fuel).arguments.run.run start)
          (arguments stop (whole stop (maxNesting - start.depth))
            (tokens.drop start.position))) := by
  have hreads := (serve_run stop tokens fuel).arguments _ start.depth
    (List.drop_suffix start.position tokens)
  rw [List.length_drop] at hreads
  exact keeps_of_reads hstart hreads

theorem exists_closing_of_run {start later : Cursor} (hstart : start.position ≤ tokens.length)
    {args : List Expr}
    (hrun : (run (ended stop tokens) fuel).arguments.run.run start = (.ok args, later)) :
    ∃ used closing, tokens.drop start.position = used ++ closing :: tokens.drop later.position ∧
      closing.Spells .closeParen := by
  have hreads := (serve_run stop tokens fuel).arguments _ start.depth
    (List.drop_suffix start.position tokens)
  exact exists_closing_of_arguments (outcome_of_run_eq_ok hstart hreads hrun)

/-- However many calls are made one after the other, all of them start at one level. -/
theorem keeps_mapM {values : List Expr} {later : Cursor} : ∀ {categories : List Category}
    {start : Cursor}, start.position ≤ tokens.length →
      (categories.mapM (run (ended stop tokens) fuel).expr).run.run start = (.ok values, later) →
        later.depth = start.depth ∧ start.position + categories.length ≤ later.position := by
  intro categories
  induction categories generalizing values with
  | nil =>
      rintro start _ ⟨⟩
      exact ⟨rfl, le_rfl⟩
  | cons category rest ih =>
      intro start hstart hrun
      rw [List.mapM_cons] at hrun
      obtain ⟨value, middle, hfirst, hrun⟩ := exists_of_run_bind hrun
      obtain ⟨others, last, hothers, hrun⟩ := exists_of_run_bind hrun
      cases hrun
      have hkeeps : Keeps tokens start
          (((run (ended stop tokens) fuel).expr category).run.run start) :=
        (keeps_expr category hstart).1
      rw [hfirst] at hkeeps
      have htaken : start.position < middle.position := hkeeps.taken value rfl
      have hinside : middle.position ≤ tokens.length := hkeeps.inside
      obtain ⟨hdepth, hlength⟩ := ih hinside hothers
      refine ⟨hdepth.trans (hkeeps.left value rfl), ?_⟩
      rw [List.length_cons]
      omega

/-- A whole parse starts in front of all tokens, with no level entered. -/
theorem reads_parse (stop : Nat) (tokens : List Token) (fuel : Nat) :
    Reads tokens (9 * tokens.length + 7 ≤ fuel) 1 tokens 0 (parse (ended stop tokens) fuel)
      (Expr.ofTokens stop tokens >>= fun expr => .ok (expr, [])) := by
  have hcall := (serve_run stop tokens fuel).expr .disjunction tokens 0 List.suffix_rfl
  rw [Expr.ofTokens, bind_assoc]
  refine hcall.bind fun expr rest hrest htaken => ?_
  refine reads_peek_bind hrest ?_
  cases rest with
  | nil => exact reads_pure expr
  | cons token later => exact reads_throw _

theorem keeps_parse (stop : Nat) (tokens : List Token) (fuel : Nat) :
    Keeps tokens ⟨0, 0⟩ ((parse (ended stop tokens) fuel).run.run ⟨0, 0⟩) ∧
      (9 * tokens.length + 7 ≤ fuel →
        ((parse (ended stop tokens) fuel).run.run ⟨0, 0⟩).1 =
          (Expr.ofTokens stop tokens).mapError .failure) := by
  have hstart : (⟨0, 0⟩ : Cursor).position ≤ tokens.length := Nat.zero_le _
  obtain ⟨hkeeps, hends⟩ := keeps_of_reads hstart (reads_parse stop tokens fuel)
  refine ⟨hkeeps, fun henough => ?_⟩
  rcases hends henough with ⟨expr, hresult, houtcome⟩ | ⟨failure, hresult, houtcome⟩
  · obtain ⟨found, hfound, hsame⟩ := exists_of_bind_eq_ok houtcome
    obtain ⟨rfl, -⟩ := Prod.mk.inj (Except.ok.inj hsame)
    rw [hresult, hfound]
    rfl
  · rw [hresult]
    cases hread : Expr.ofTokens stop tokens with
    | ok expr =>
        rw [hread] at houtcome
        cases houtcome
    | error other =>
        rw [hread] at houtcome
        cases houtcome
        rfl

end Anywhere

/-- **Cursors are safe, and calls end.** In front of any mark of a list that ends in its only end,
at any level and with any fuel, each call moves its cursor forward, at most to the end, and always
finds a mark there. With a result it has taken at least one token, up to the closing parenthesis for
arguments, and has left the levels that it entered, so of calls one after the other all start at one
level. With fuel for nine calls for each token that is left and eight more, each call ends as the
reader of its category and level does: this reader is told how many levels are entered around it,
and gives all operands and arguments the same. So a parse ends with the condition that the tokens
spell or with the failure to read one. -/
theorem keeps_and_endsAs (stop : Nat) (tokens : List Token) :
    (∀ fuel category, ∀ start : Cursor, start.position ≤ tokens.length →
      Keeps tokens start (((run (ended stop tokens) fuel).expr category).run.run start) ∧
      (9 * (tokens.length - start.position) + 8 ≤ fuel →
        EndsAs tokens (((run (ended stop tokens) fuel).expr category).run.run start)
          (readerAt stop start.depth category (tokens.drop start.position)))) ∧
    (∀ fuel, ∀ start : Cursor, start.position ≤ tokens.length →
      Keeps tokens start ((run (ended stop tokens) fuel).arguments.run.run start) ∧
      (∀ args later, (run (ended stop tokens) fuel).arguments.run.run start = (.ok args, later) →
        ∃ used closing, tokens.drop start.position =
          used ++ closing :: tokens.drop later.position ∧ closing.Spells .closeParen) ∧
      (9 * (tokens.length - start.position) + 8 ≤ fuel →
        EndsAs tokens ((run (ended stop tokens) fuel).arguments.run.run start)
          (arguments stop (whole stop (maxNesting - start.depth))
            (tokens.drop start.position)))) ∧
    (∀ (fuel : Nat) (categories : List Category) (values : List Expr) (start later : Cursor),
      start.position ≤ tokens.length →
      (categories.mapM (run (ended stop tokens) fuel).expr).run.run start = (.ok values, later) →
        later.depth = start.depth ∧ start.position + categories.length ≤ later.position) ∧
    ∀ fuel,
      Keeps tokens ⟨0, 0⟩ ((parse (ended stop tokens) fuel).run.run ⟨0, 0⟩) ∧
      (9 * tokens.length + 8 ≤ fuel →
        ((parse (ended stop tokens) fuel).run.run ⟨0, 0⟩).1 =
          (Expr.ofTokens stop tokens).mapError .failure) := by
  refine ⟨?_, ?_, ?_, ?_⟩
  · intro fuel category start hstart
    obtain ⟨hkeeps, hends⟩ := keeps_expr category hstart
    refine ⟨hkeeps, fun henough => hends (Nat.le_trans (Nat.add_le_add_left ?_ _) henough)⟩
    cases category <;> decide
  · intro fuel start hstart
    obtain ⟨hkeeps, hends⟩ := keeps_arguments hstart
    exact ⟨hkeeps, fun args later hrun => exists_closing_of_run hstart hrun, hends⟩
  · exact fun fuel categories values start later hstart hrun => keeps_mapM hstart hrun
  · intro fuel
    obtain ⟨hkeeps, hends⟩ := keeps_parse stop tokens fuel
    exact ⟨hkeeps, fun henough => hends (Nat.le_of_succ_le henough)⟩

/-- Two arguments that each use the last level there is. -/
theorem keeps_and_endsAs_of_deep_arguments :
    ∃ tokens, tokenize "f(!a, !b)".toList = .ok tokens ∧ 2 ≤ tokens.length ∧
      9 * (tokens.length - 2) + 8 ≤ 100 ∧
      Keeps tokens ⟨2, 48⟩ ((run (ended 9 tokens) 100).arguments.run.run ⟨2, 48⟩) ∧
      EndsAs tokens ((run (ended 9 tokens) 100).arguments.run.run ⟨2, 48⟩)
        (arguments 9 (whole 9 2) (tokens.drop 2)) ∧
      ((run (ended 9 tokens) 100).arguments.run.run ⟨2, 48⟩).2 = ⟨8, 48⟩ := by
  let tokens : List Token := [⟨.word "f", 0⟩, ⟨.symbol .openParen, 1⟩, ⟨.symbol .not, 2⟩,
    ⟨.word "a", 3⟩, ⟨.symbol .comma, 4⟩, ⟨.symbol .not, 6⟩, ⟨.word "b", 7⟩,
    ⟨.symbol .closeParen, 8⟩]
  have hstart : (⟨2, 48⟩ : Cursor).position ≤ tokens.length := by decide
  have henough : 9 * (tokens.length - 2) + 8 ≤ 100 := by decide
  obtain ⟨hkeeps, -, hends⟩ := (keeps_and_endsAs 9 tokens).2.1 100 ⟨2, 48⟩ hstart
  exact ⟨tokens, by decide +kernel, hstart, henough, hkeeps, hends henough, by decide +kernel⟩

end Archetype.Condition.Cursor
