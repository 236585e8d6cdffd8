import Archetype.Condition.Compiler
import Mathlib.Data.List.Forall2

/-!
# What a check that succeeds has found

A check goes through the levels of a condition and may stop anywhere. These lemmas say once, for
every form of condition, what a successful check of it consists of; the levels that were entered on
the way are left out.
-/

namespace Archetype.Condition

/-- A check that succeeds with this result, whatever was the deepest level before and after. -/
def Check.Gives {α : Type} (check : Check α) (result : α) : Prop :=
  ∃ before after, check.run.run before = (.ok result, after)

section Steps

variable {α β : Type}

theorem gives_pure {value result : α} : (pure value : Check α).Gives result ↔ value = result := by
  constructor
  · rintro ⟨before, after, hrun⟩
    exact Except.ok.inj (congrArg Prod.fst hrun)
  · rintro rfl
    exact ⟨0, 0, rfl⟩

theorem gives_bind {check : Check α} {next : α → Check β} {result : β}
    (hgives : (check >>= next).Gives result) :
    ∃ middle, check.Gives middle ∧ (next middle).Gives result := by
  obtain ⟨before, after, hrun⟩ := hgives
  rw [ExceptT.run_bind, StateT.run_bind] at hrun
  cases hfirst : check.run.run before with
  | mk outcome between =>
      cases outcome with
      | error issue =>
          rw [hfirst] at hrun
          cases congrArg Prod.fst hrun
      | ok middle =>
          rw [hfirst] at hrun
          exact ⟨middle, ⟨before, between, hfirst⟩, between, after, hrun⟩

theorem not_gives_raise {offset : Nat} {cause : Cause} {result : α} :
    ¬ (raise offset cause : Check α).Gives result := by
  rintro ⟨before, after, hrun⟩
  cases congrArg Prod.fst hrun

theorem gives_located {offset : Nat} {outcome : Except Cause α} {result : α}
    (hgives : (located offset outcome).Gives result) : outcome = .ok result := by
  cases outcome with
  | error cause => exact absurd hgives not_gives_raise
  | ok value => rw [gives_pure.mp hgives]

/-- Entering a level gives nothing that later steps use. -/
theorem gives_enter_bind {level offset : Nat} {check : Check α} {result : α}
    (hgives : (enter level offset >>= fun _ => check).Gives result) : check.Gives result := by
  obtain ⟨_, _, hcheck⟩ := gives_bind hgives
  exact hcheck

end Steps

variable {references : References} {level offset : Nat} {name : String} {meaning : Meaning}

theorem gives_literal {value : Literal}
    (hgives : (check references level (.literal offset value)).Gives meaning) :
    meaning = .ofLiteral value := by
  rw [check] at hgives
  exact (gives_pure.mp (gives_enter_bind hgives)).symm

theorem gives_attribute (hgives : (check references level (.attribute offset name)).Gives meaning) :
    Meaning.attribute? name = some meaning := by
  rw [check] at hgives
  have hmatch := gives_enter_bind hgives
  cases hpart : Meaning.attribute? name with
  | none =>
      rw [hpart] at hmatch
      exact absurd hmatch not_gives_raise
  | some part =>
      rw [hpart] at hmatch
      rw [gives_pure.mp hmatch]

theorem gives_bagOf {target : Meaning} {bag : Record → Bag}
    (hgives : (bagOf offset name target).Gives bag) : target.bag? = some bag := by
  unfold bagOf at hgives
  cases hbag : target.bag? with
  | none =>
      rw [hbag] at hgives
      exact absurd hgives not_gives_raise
  | some found =>
      rw [hbag] at hgives
      rw [gives_pure.mp hgives]

theorem gives_property {target : Expr}
    (hgives : (check references level (.property offset target name)).Gives meaning) :
    ∃ inner bag, (check references (level + 1) target).Gives inner ∧ inner.bag? = some bag ∧
      Meaning.property? bag name = some meaning := by
  rw [check] at hgives
  obtain ⟨inner, hinner, hrest⟩ := gives_bind (gives_enter_bind hgives)
  obtain ⟨bag, hbag, hmatch⟩ := gives_bind hrest
  refine ⟨inner, bag, hinner, gives_bagOf hbag, ?_⟩
  cases hproperty : Meaning.property? bag name with
  | none =>
      rw [hproperty] at hmatch
      exact absurd hmatch not_gives_raise
  | some found =>
      rw [hproperty] at hmatch
      rw [gives_pure.mp hmatch]

/-- Arguments are checked one by one, all at the same level. -/
theorem gives_checkAll {args : List Expr} {meanings : List Meaning}
    (hgives : (checkAll references level args).Gives meanings) :
    List.Forall₂ (fun arg found => (check references level arg).Gives found) args meanings := by
  induction args generalizing meanings with
  | nil =>
      rw [checkAll] at hgives
      rw [← gives_pure.mp hgives]
      exact .nil
  | cons arg rest ih =>
      rw [checkAll] at hgives
      obtain ⟨first, hfirst, hothers⟩ := gives_bind hgives
      obtain ⟨others, hrest, hpure⟩ := gives_bind hothers
      rw [← gives_pure.mp hpure]
      exact .cons hfirst (ih hrest)

theorem exists_gives_of_mem {args : List Expr} {found : List Meaning}
    (hgives : List.Forall₂ (fun arg meaning => (check references level arg).Gives meaning)
      args found) :
    ∀ arg ∈ args, ∃ meaning, (check references level arg).Gives meaning := by
  induction hgives with
  | nil =>
      intro arg hmem
      cases hmem
  | cons hfirst _ ih =>
      intro arg hmem
      rcases List.mem_cons.mp hmem with rfl | hmem
      · exact ⟨_, hfirst⟩
      · exact ih arg hmem

/-- A method without arguments may be a property; otherwise all its arguments are checked. -/
theorem gives_method {target : Expr} {args : List Expr}
    (hgives : (check references level (.method offset target name args)).Gives meaning) :
    ∃ inner bag, (check references (level + 1) target).Gives inner ∧ inner.bag? = some bag ∧
      (args = [] ∧ Meaning.property? bag name = some meaning ∨
        ∃ found, (checkAll references (level + 1) args).Gives found ∧
          (args = [] → Meaning.property? bag name = none) ∧
          Meaning.method bag name found = .ok meaning) := by
  rw [check] at hgives
  obtain ⟨inner, hinner, hrest⟩ := gives_bind (gives_enter_bind hgives)
  obtain ⟨bag, hbag, hmatch⟩ := gives_bind hrest
  refine ⟨inner, bag, hinner, gives_bagOf hbag, ?_⟩
  split at hmatch
  · next hproperty =>
    rw [gives_pure.mp hmatch] at hproperty
    exact Or.inl ⟨rfl, hproperty⟩
  · next hother =>
    obtain ⟨found, hfound, hlocated⟩ := gives_bind hmatch
    refine Or.inr ⟨found, hfound, ?_, gives_located hlocated⟩
    intro hargs
    cases hproperty : Meaning.property? bag name with
    | none => rfl
    | some part => exact absurd hproperty (hother part hargs)

theorem gives_index {target key : Expr}
    (hgives : (check references level (.index offset target key)).Gives meaning) :
    ∃ inner item, (check references (level + 1) target).Gives inner ∧
      (check references (level + 1) key).Gives item ∧ Meaning.index inner item = .ok meaning := by
  rw [check] at hgives
  obtain ⟨inner, hinner, hmatch⟩ := gives_bind (gives_enter_bind hgives)
  split at hmatch
  · exact absurd hmatch not_gives_raise
  · obtain ⟨item, hitem, hlocated⟩ := gives_bind hmatch
    exact ⟨inner, item, hinner, hitem, gives_located hlocated⟩

theorem ruleName?_eq_some {args : List Expr} {rule : String} {place : Nat}
    (hrule : ruleName? args = some (rule, place)) : args = [.literal place (.text rule)] := by
  unfold ruleName? at hrule
  split at hrule
  · cases hrule
    rfl
  · cases hrule

/-- A call that is accepted refers to a rule that can be found. -/
theorem gives_call {args : List Expr}
    (hgives : (check references level (.call offset name args)).Gives meaning) :
    ∃ resolve rule place holds, references = some resolve ∧ canonical name = "matches" ∧
      ruleName? args = some (rule, place) ∧ resolve rule = .ok holds ∧
      meaning = ⟨.bool, holds⟩ := by
  rw [check] at hgives
  have hreference := gives_enter_bind hgives
  unfold reference at hreference
  split at hreference
  · exact absurd hreference not_gives_raise
  · next hname =>
    split at hreference
    · exact absurd hreference not_gives_raise
    · next rule place hrule =>
      split at hreference
      · exact absurd hreference not_gives_raise
      · next resolve =>
        obtain ⟨holds, hholds, hpure⟩ := gives_bind hreference
        exact ⟨resolve, rule, place, holds, rfl, by simpa using hname, hrule,
          gives_located hholds, (gives_pure.mp hpure).symm⟩

theorem gives_not {operand : Expr}
    (hgives : (check references level (.not offset operand)).Gives meaning) :
    ∃ inner, (check references (level + 1) operand).Gives inner ∧ inner.not = .ok meaning := by
  rw [check] at hgives
  obtain ⟨inner, hinner, hlocated⟩ := gives_bind (gives_enter_bind hgives)
  exact ⟨inner, hinner, gives_located hlocated⟩

theorem gives_binary {left right : Expr} {op : BinaryOp}
    (hgives : (check references level (.binary offset left op right)).Gives meaning) :
    ∃ a b, (check references (level + 1) left).Gives a ∧
      (check references (level + 1) right).Gives b ∧ Meaning.binary? op a b = some meaning := by
  rw [check] at hgives
  obtain ⟨a, ha, hrest⟩ := gives_bind (gives_enter_bind hgives)
  obtain ⟨b, hb, hmatch⟩ := gives_bind hrest
  refine ⟨a, b, ha, hb, ?_⟩
  split at hmatch
  · next found hfound => rw [hfound, gives_pure.mp hmatch]
  · exact absurd hmatch not_gives_raise

/-- A whole condition that is accepted is a truth value. -/
theorem gives_whole {expr : Expr} {holds : Predicate}
    (hgives : (checkWhole references expr).Gives holds) :
    (check references 1 expr).Gives ⟨.bool, holds⟩ := by
  unfold checkWhole at hgives
  obtain ⟨meaning, hmeaning, hmatch⟩ := gives_bind hgives
  split at hmatch
  · next found => rwa [gives_pure.mp hmatch] at hmeaning
  · exact absurd hmatch not_gives_raise

theorem gives_of_compile {expr : Expr} {holds : Predicate} {deepest : Nat}
    (hcompile : expr.compile references = (.ok holds, deepest)) :
    (check references 1 expr).Gives ⟨.bool, holds⟩ :=
  gives_whole ⟨0, deepest, hcompile⟩

end Archetype.Condition
