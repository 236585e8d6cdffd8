import Mathlib.Data.List.Induction
import Archetype.Condition.Compiler
import Archetype.Proofs.Condition.Evaluation

/-!
# Compilers that are used again

A compiler counts the levels that it enters, and an issue leaves them entered. Each of its steps is
nevertheless the check that takes the level of a node from the levels above it: from a count, a step
finds what the check finds at that level, and a step that has a result leaves the count as it was.
So all that a compiler could carry over to the next condition is the count that an issue has left,
and this is where the count starts anew.
-/

namespace Archetype.Condition.Compiler

/-- A step from `level` levels does what a check does that is told the level: both have one outcome
and enter the same level at the deepest, and a step that has a result leaves no level entered. -/
def Step.Follows {α : Type} (step : Step α) (level : Nat) (check : Check α) : Prop :=
  ∀ deepest,
    (∃ result after, check.run.run deepest = (.ok result, after) ∧
      step.run.run ⟨level, deepest⟩ = (.ok result, ⟨level, after⟩)) ∨
    ∃ issue after left, check.run.run deepest = (.error issue, after) ∧
      step.run.run ⟨level, deepest⟩ = (.error issue, ⟨left, after⟩)

section Steps

variable {α β : Type} {level : Nat}

theorem follows_ofCheck (check : Check α) : (Step.ofCheck check).Follows level check := by
  intro deepest
  cases hcheck : check.run.run deepest with
  | mk outcome after =>
      have hstep : (Step.ofCheck check).run.run ⟨level, deepest⟩ = (outcome, ⟨level, after⟩) := by
        rw [Step.ofCheck, ExceptT.run_mk, StateT.run, hcheck]
      cases outcome with
      | ok result => exact .inl ⟨result, after, rfl, hstep⟩
      | error issue => exact .inr ⟨issue, after, level, rfl, hstep⟩

theorem follows_pure (result : α) : (pure result : Step α).Follows level (pure result) :=
  fun deepest => .inl ⟨result, deepest, rfl, rfl⟩

theorem Step.Follows.bind {step : Step α} {check : Check α} {next : α → Step β}
    {other : α → Check β} (hstep : step.Follows level check)
    (hnext : ∀ result, (next result).Follows level (other result)) :
    (step >>= next).Follows level (check >>= other) := by
  intro deepest
  rw [ExceptT.run_bind, ExceptT.run_bind, StateT.run_bind, StateT.run_bind]
  rcases hstep deepest with ⟨result, after, hcheck, hrun⟩ | ⟨issue, after, left, hcheck, hrun⟩
  · rw [hcheck, hrun]
    exact hnext result after
  · rw [hcheck, hrun]
    exact .inr ⟨issue, after, left, rfl, rfl⟩

/-- A node stands one level below the levels entered. -/
theorem follows_within {step : Step α} {check : Check α} (offset : Nat)
    (hstep : step.Follows (level + 1) check) :
    (within offset step).Follows level (enter (level + 1) offset >>= fun _ => check) := by
  intro deepest
  -- The level is entered before the check of it, and left behind the step.
  have hrun : (within offset step).run.run ⟨level, deepest⟩ =
      ((Step.ofCheck (enter (level + 1) offset) >>= fun _ => step) >>= fun result => do
        modifyThe Compiler fun compiler => { compiler with level := compiler.level - 1 }
        return result : Step α).run.run ⟨level + 1, deepest⟩ := by
    rw [bind_assoc]
    rfl
  have hinside := (follows_ofCheck (enter (level + 1) offset)).bind fun _ => hstep
  rcases hinside deepest with ⟨result, after, hcheck, hok⟩ | ⟨issue, after, left, hcheck, herror⟩
  · refine .inl ⟨result, after, hcheck, ?_⟩
    rw [hrun, ExceptT.run_bind, StateT.run_bind, hok]
    rfl
  · refine .inr ⟨issue, after, left, hcheck, ?_⟩
    rw [hrun, ExceptT.run_bind, StateT.run_bind, herror]
    rfl

end Steps

section Conditions

variable {references : References}

theorem follows_meanings {args : List Expr}
    (hargs : ∀ arg ∈ args, ∀ level,
      (meaning references arg).Follows level (check references (level + 1) arg)) (level : Nat) :
    (meanings references args).Follows level (checkAll references (level + 1) args) := by
  induction args with
  | nil =>
      rw [meanings, checkAll]
      exact follows_pure []
  | cons arg rest ih =>
      obtain ⟨harg, hrest⟩ := List.forall_mem_cons.mp hargs
      rw [meanings, checkAll]
      exact (harg level).bind fun first => (ih hrest).bind fun others => follows_pure _

/-- **Counting levels comes to the same as knowing them.** -/
theorem follows_meaning (expr : Expr) : ∀ level,
    (meaning references expr).Follows level (check references (level + 1) expr) := by
  induction expr using Expr.induction with
  | literal offset value =>
      intro level
      rw [meaning, check]
      exact follows_within offset (follows_pure _)
  | named offset name =>
      intro level
      rw [meaning, check]
      refine follows_within offset ?_
      cases Meaning.attribute? name with
      | none => exact follows_ofCheck _
      | some found => exact follows_pure found
  | property offset target name ih =>
      intro level
      rw [meaning, check]
      refine follows_within offset ((ih (level + 1)).bind fun inner => ?_)
      refine (follows_ofCheck (bagOf offset name inner)).bind fun bag => ?_
      cases Meaning.property? bag name with
      | none => exact follows_ofCheck _
      | some found => exact follows_pure found
  | method offset target name args ih ihargs =>
      intro level
      rw [meaning, check]
      refine follows_within offset ((ih (level + 1)).bind fun inner => ?_)
      refine (follows_ofCheck (bagOf offset name inner)).bind fun bag => ?_
      have hanswer := (follows_meanings ihargs (level + 1)).bind fun found =>
        follows_ofCheck (located offset (Meaning.method bag name found))
      cases args with
      | cons arg rest => exact hanswer
      | nil =>
          cases Meaning.property? bag name with
          | none => exact hanswer
          | some found => exact follows_pure found
  | index offset target key ih ihkey =>
      intro level
      rw [meaning, check]
      refine follows_within offset ((ih (level + 1)).bind fun inner => ?_)
      cases inner.bag? with
      | none => exact follows_ofCheck _
      | some bag => exact (ihkey (level + 1)).bind fun item => follows_ofCheck _
  | call offset name args =>
      intro level
      rw [meaning, check]
      exact follows_within offset (follows_ofCheck _)
  | not offset operand ih =>
      intro level
      rw [meaning, check]
      exact follows_within offset ((ih (level + 1)).bind fun inner => follows_ofCheck _)
  | binary offset left op right ihleft ihright =>
      intro level
      rw [meaning, check]
      refine follows_within offset ((ihleft (level + 1)).bind fun a => ?_)
      refine (ihright (level + 1)).bind fun b => ?_
      cases Meaning.binary? op a b with
      | none => exact follows_ofCheck _
      | some found => exact follows_pure found

/-- The count starts anew wherever it stood. -/
theorem exists_run_predicate (references : References) (compiler : Compiler) (expr : Expr) :
    ∃ left, (predicate references expr).run.run compiler =
      ((expr.compile references).1, ⟨left, (expr.compile references).2⟩) := by
  -- What follows the new start of the count.
  obtain ⟨step, hstep, hpredicate⟩ : ∃ step : Step Predicate,
      step.Follows 0 (checkWhole references expr) ∧
        predicate references expr = (set ({} : Compiler) >>= fun _ => step) := by
    refine ⟨_, (follows_meaning expr 0).bind fun found => ?_, rfl⟩
    obtain ⟨kind, value⟩ := found
    cases kind with
    | bool => exact follows_pure value
    | int | text | bag | null => exact follows_ofCheck _
  have hrun : (predicate references expr).run.run compiler = step.run.run ⟨0, 0⟩ := by
    rw [hpredicate]
    rfl
  rw [hrun, Expr.compile]
  rcases hstep 0 with ⟨holds, after, hcheck, hok⟩ | ⟨issue, after, left, hcheck, herror⟩
  · rw [hcheck]
    exact ⟨0, hok⟩
  · rw [hcheck]
    exact ⟨left, herror⟩

end Conditions

/-! ### Texts in turn -/

section Texts

variable (references : References)

/-- A new compiler after texts that it has compiled in turn. -/
def afterAll (texts : List String) : Compiler :=
  texts.foldl (fun compiler text => (compiler.compile references text).2) {}

/-- The deepest level entered of the last text that could be read. -/
def lastDepth (texts : List String) : Nat :=
  (texts.filter fun text => (Expr.parse text).isOk).getLast?.elim 0 fun text =>
    (Compiler.compile {} references text).2.deepest

variable {references}

theorem compile_of_parse_error (compiler : Compiler) {text : String} {failure : Failure}
    (hparse : Expr.parse text = .error failure) :
    compiler.compile references text = (.error failure, compiler) := by
  rw [compile, hparse]

theorem exists_compile_of_parse (references : References) (compiler : Compiler) {text : String}
    {expr : Expr} (hparse : Expr.parse text = .ok expr) :
    ∃ left, compiler.compile references text =
      ((expr.compile references).1.mapError .issue, ⟨left, (expr.compile references).2⟩) := by
  obtain ⟨left, hrun⟩ := exists_run_predicate references compiler expr
  refine ⟨left, ?_⟩
  rw [compile, hparse]
  dsimp only
  rw [hrun]

/-- What a compiler makes of a text is what the check makes of the condition. -/
theorem fst_compile (compiler : Compiler) (text : String) :
    (compiler.compile references text).1 =
      Expr.parse text >>= fun expr => (expr.compile references).1.mapError .issue := by
  cases hparse : Expr.parse text with
  | error failure =>
      rw [compile_of_parse_error compiler hparse]
      rfl
  | ok expr =>
      obtain ⟨left, hcompile⟩ := exists_compile_of_parse references compiler hparse
      rw [hcompile]
      rfl

theorem deepest_compile_eq (compiler : Compiler) (text : String) :
    (compiler.compile references text).2.deepest =
      if (Expr.parse text).isOk then (Compiler.compile {} references text).2.deepest
      else compiler.deepest := by
  cases hparse : Expr.parse text with
  | error failure =>
      rw [compile_of_parse_error _ hparse]
      rfl
  | ok expr =>
      obtain ⟨left, hcompile⟩ := exists_compile_of_parse references compiler hparse
      obtain ⟨right, hnew⟩ := exists_compile_of_parse references {} hparse
      rw [hcompile, hnew]
      rfl

theorem afterAll_concat (texts : List String) (text : String) :
    afterAll references (texts ++ [text]) =
      ((afterAll references texts).compile references text).2 := by
  rw [afterAll, List.foldl_append]
  rfl

theorem deepest_afterAll (texts : List String) :
    (afterAll references texts).deepest = lastDepth references texts := by
  induction texts using List.reverseRecOn with
  | nil => rfl
  | append_singleton texts text ih =>
      rw [afterAll_concat, deepest_compile_eq, lastDepth, List.filter_append]
      cases hread : (Expr.parse text).isOk with
      | true => simp [hread]
      | false => simpa [hread, lastDepth] using ih

end Texts

/-- **A compiler that is used again carries nothing over.** Whatever it has compiled before, and
wherever that has failed, it has for a text the predicate or the failure that a new one has, which
is what the check of the text finds. The deepest level that it tells is the one that a new one
tells, or, if the text cannot be read, that of the last text that could be. -/
theorem compile_afterAll (references : References) (texts : List String) (text : String) :
    ((afterAll references texts).compile references text).1 =
        (Compiler.compile {} references text).1 ∧
      (Compiler.compile {} references text).1 =
        (Expr.parse text >>= fun expr => (expr.compile references).1.mapError .issue) ∧
      ((afterAll references texts).compile references text).2.deepest =
        (if (Expr.parse text).isOk then (Compiler.compile {} references text).2.deepest
          else (afterAll references texts).deepest) ∧
      (afterAll references texts).deepest = lastDepth references texts :=
  ⟨by rw [fst_compile, fst_compile], fst_compile {} text, deepest_compile_eq _ text,
    deepest_afterAll texts⟩

/-- The second text leaves two levels entered, and the third one is no condition. -/
example :
    afterAll none ["!(1 + 2 + colors)", "cards.Count(1 + 2) == 0", "1 +"] = ⟨2, 4⟩ := by
  decide +kernel

end Archetype.Condition.Compiler
