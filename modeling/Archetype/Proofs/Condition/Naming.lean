import Archetype.Proofs.Condition.Checking
import Archetype.Proofs.Condition.Evaluation
import Archetype.Proofs.Outcome

/-!
# Names and places of a condition

A check that succeeds has looked at names only in their canonical form, and at places not at all:
the offsets and the names as they are written are for messages. So two conditions that differ in
nothing else pass it alike, with the same meaning and the same levels entered.
-/

namespace Archetype.Condition

mutual

/-- A condition that tells neither where it stood nor how its names were written. -/
def Expr.plain : Expr → Expr
  | .literal _ value => .literal 0 value
  | .attribute _ name => .attribute 0 (canonical name)
  | .property _ target name => .property 0 target.plain (canonical name)
  | .method _ target name args => .method 0 target.plain (canonical name) (plainAll args)
  | .index _ target key => .index 0 target.plain key.plain
  | .call _ name args => .call 0 (canonical name) (plainAll args)
  | .not _ operand => .not 0 operand.plain
  | .binary _ left op right => .binary 0 left.plain op right.plain

def plainAll : List Expr → List Expr
  | [] => []
  | arg :: rest => arg.plain :: plainAll rest

end

theorem plainAll_eq_map (args : List Expr) : plainAll args = args.map Expr.plain := by
  induction args with
  | nil => rfl
  | cons arg rest ih => rw [plainAll, ih, List.map_cons]

/-! ### Checks in place of others -/

/-- Where a check succeeds another one does too, with the same result and the same level. -/
def Check.KeptBy {α : Type} (check other : Check α) : Prop :=
  ∀ before result after, check.run.run before = (.ok result, after) →
    other.run.run before = (.ok result, after)

section Steps

variable {α β : Type}

theorem Check.KeptBy.refl (check : Check α) : check.KeptBy check :=
  fun _ _ _ hrun => hrun

theorem keptBy_raise (offset : Nat) (cause : Cause) (other : Check α) :
    (raise offset cause : Check α).KeptBy other := by
  intro before result after hrun
  cases congrArg Prod.fst hrun

theorem Check.KeptBy.bind {check other : Check α} {next later : α → Check β}
    (hcheck : check.KeptBy other) (hnext : ∀ result, (next result).KeptBy (later result)) :
    (check >>= next).KeptBy (other >>= later) := by
  intro before result after hrun
  rw [ExceptT.run_bind, StateT.run_bind] at hrun ⊢
  cases hfirst : check.run.run before with
  | mk outcome between =>
      rw [hfirst] at hrun
      cases outcome with
      | error issue => cases congrArg Prod.fst hrun
      | ok middle =>
          rw [hcheck before middle between hfirst]
          exact hnext middle between result after hrun

theorem keptBy_located {outcome other : Except Cause α} (offset place : Nat)
    (hother : ∀ value, outcome = .ok value → other = .ok value) :
    (located offset outcome).KeptBy (located place other) := by
  cases outcome with
  | error cause => exact keptBy_raise offset cause _
  | ok value =>
      rw [hother value rfl]
      exact .refl _

theorem keptBy_enter (level offset place : Nat) :
    (enter level offset).KeptBy (enter level place) := by
  unfold enter
  split
  · exact keptBy_raise offset .tooDeep _
  · exact .refl _

end Steps

/-! ### Names -/

theorem bind_of_eq_ok {ε α β : Type} {first other : Except ε α} {next : α → Except ε β} {result : β}
    (hother : ∀ value, first = .ok value → other = .ok value)
    (hok : (first >>= next) = .ok result) : (other >>= next) = .ok result := by
  obtain ⟨middle, hfirst, hnext⟩ := exists_of_bind_eq_ok hok
  rw [hother middle hfirst]
  exact hnext

section Names

variable {name other : String} (hname : canonical other = canonical name)

theorem textItems_of_eq_ok (other : String) {args : List Meaning}
    {items : List (Record → Option Text)} : ∀ {position : Nat},
      Meaning.textItems name position args = .ok items →
        Meaning.textItems other position args = .ok items := by
  induction args generalizing items with
  | nil => exact fun hitems => hitems
  | cons arg rest ih =>
      intro position hitems
      obtain ⟨kind, value⟩ := arg
      cases kind with
      | text =>
          obtain ⟨others, hothers, rfl⟩ := exists_of_map_eq_ok hitems
          rw [Meaning.textItems, ih hothers]
          rfl
      | _ => cases hitems

theorem items_of_eq_ok (other : String) {args : List Meaning} {items : List (Record → Option Text)}
    (hitems : Meaning.items name args = .ok items) : Meaning.items other args = .ok items := by
  unfold Meaning.items at *
  split at hitems
  · cases hitems
  · next hargs =>
    rw [if_neg hargs]
    exact textItems_of_eq_ok other hitems

theorem item_of_eq_ok (other : String) {args : List Meaning} {item : Record → Option Text}
    (hitem : Meaning.item name args = .ok item) : Meaning.item other args = .ok item := by
  unfold Meaning.item at *
  split at hitem
  · exact hitem
  · cases hitem
  · cases hitem

include hname

theorem attribute?_congr : Meaning.attribute? other = Meaning.attribute? name := by
  unfold Meaning.attribute?
  rw [hname]

theorem property?_congr (bag : Record → Bag) :
    Meaning.property? bag other = Meaning.property? bag name := by
  unfold Meaning.property?
  rw [hname]

/-- A method that has an answer has it under every name of the same canonical form. -/
theorem method_of_eq_ok {bag : Record → Bag} {args : List Meaning} {meaning : Meaning}
    (hmeaning : Meaning.method bag name args = .ok meaning) :
    Meaning.method bag other args = .ok meaning := by
  unfold Meaning.method at *
  rw [hname]
  split at hmeaning
  case h_1 | h_2 | h_3 => exact bind_of_eq_ok (fun _ => items_of_eq_ok other) hmeaning
  case h_4 | h_5 => exact bind_of_eq_ok (fun _ => item_of_eq_ok other) hmeaning
  case h_6 => cases hmeaning

end Names

theorem keptBy_bagOf (name other : String) (target : Meaning) (offset place : Nat) :
    (bagOf offset name target).KeptBy (bagOf place other target) := by
  unfold bagOf
  split
  · exact .refl _
  · exact keptBy_raise offset _ _

/-- A call that names a rule still does. -/
theorem ruleName?_of_plain {args others : List Expr} (hplain : plainAll others = plainAll args)
    {rule : String} {offset : Nat} (hrule : ruleName? args = some (rule, offset)) :
    ∃ place, ruleName? others = some (rule, place) := by
  rw [ruleName?_eq_some hrule, plainAll_eq_map] at hplain
  obtain ⟨arg, rfl, hliteral⟩ := List.map_eq_singleton_iff.mp hplain
  cases arg with
  | literal place value =>
      obtain ⟨-, rfl⟩ := Expr.literal.inj hliteral
      exact ⟨place, rfl⟩
  | _ => cases hliteral

theorem keptBy_reference (references : References) {name other : String}
    (hname : canonical other = canonical name) {args others : List Expr}
    (hplain : plainAll others = plainAll args) (offset place : Nat) :
    (reference references offset name args).KeptBy (reference references place other others) := by
  unfold reference
  rw [hname]
  split
  · exact keptBy_raise offset _ _
  · cases hrule : ruleName? args with
    | none => exact keptBy_raise offset _ _
    | some found =>
        obtain ⟨spot, hother⟩ := ruleName?_of_plain hplain hrule
        rw [hother]
        cases references with
        | none => exact keptBy_raise _ _ _
        | some resolve =>
            exact (keptBy_located _ _ fun _ hholds => hholds).bind fun _ => .refl _

/-! ### Conditions -/

theorem keptBy_checkAll {references : References} {args : List Expr}
    (hargs : ∀ arg ∈ args, ∀ other : Expr, other.plain = arg.plain → ∀ level,
      (check references level arg).KeptBy (check references level other)) (level : Nat) :
    ∀ {others : List Expr}, plainAll others = plainAll args →
      (checkAll references level args).KeptBy (checkAll references level others) := by
  induction args with
  | nil =>
      intro others hplain
      cases others with
      | nil => exact .refl _
      | cons => cases hplain
  | cons arg rest ih =>
      intro others hplain
      cases others with
      | nil => cases hplain
      | cons other later =>
          obtain ⟨hfirst, hrest⟩ := List.cons.inj hplain
          obtain ⟨harg, hlater⟩ := List.forall_mem_cons.mp hargs
          rw [checkAll, checkAll]
          exact (harg other hfirst level).bind fun _ => (ih hlater hrest).bind fun _ => .refl _

/-- **A condition that passes the check passes it under other names of the same canonical form**,
wherever its parts stand. -/
theorem keptBy_check (references : References) (expr : Expr) : ∀ other : Expr,
    other.plain = expr.plain → ∀ level,
      (check references level expr).KeptBy (check references level other) := by
  induction expr using Expr.induction with
  | literal offset value =>
      intro other hplain level
      cases other with
      | literal place another =>
          obtain ⟨-, rfl⟩ := Expr.literal.inj hplain
          rw [check, check]
          exact (keptBy_enter level offset place).bind fun _ => .refl _
      | _ => cases hplain
  | named offset name =>
      intro other hplain level
      cases other with
      | «attribute» place another =>
          obtain ⟨-, hname⟩ := Expr.attribute.inj hplain
          rw [check, check, attribute?_congr hname]
          refine (keptBy_enter level offset place).bind fun _ => ?_
          split
          · exact .refl _
          · exact keptBy_raise offset _ _
      | _ => cases hplain
  | property offset target name htarget =>
      intro other hplain level
      cases other with
      | property place bag another =>
          obtain ⟨-, hbag, hname⟩ := Expr.property.inj hplain
          rw [check, check]
          refine (keptBy_enter level offset place).bind fun _ => ?_
          refine (htarget bag hbag (level + 1)).bind fun inner => ?_
          refine (keptBy_bagOf name another inner offset place).bind fun found => ?_
          rw [property?_congr hname]
          split
          · exact .refl _
          · exact keptBy_raise offset _ _
      | _ => cases hplain
  | method offset target name args htarget hargs =>
      intro other hplain level
      cases other with
      | method place bag another others =>
          obtain ⟨-, hbag, hname, hothers⟩ := Expr.method.inj hplain
          rw [check, check]
          refine (keptBy_enter level offset place).bind fun _ => ?_
          refine (htarget bag hbag (level + 1)).bind fun inner => ?_
          refine (keptBy_bagOf name another inner offset place).bind fun found => ?_
          rw [property?_congr hname]
          have hrest : (checkAll references (level + 1) args >>= fun answers =>
              located offset (Meaning.method found name answers)).KeptBy
              (checkAll references (level + 1) others >>= fun answers =>
                located place (Meaning.method found another answers)) :=
            (keptBy_checkAll hargs (level + 1) hothers).bind fun _ =>
              keptBy_located offset place fun _ => method_of_eq_ok hname
          cases args with
          | nil =>
              cases others with
              | nil =>
                  cases Meaning.property? found name with
                  | none => exact hrest
                  | some number => exact .refl _
              | cons => cases hothers
          | cons arg args =>
              cases others with
              | nil => cases hothers
              | cons first others => exact hrest
      | _ => cases hplain
  | index offset target key htarget hkey =>
      intro other hplain level
      cases other with
      | index place bag item =>
          obtain ⟨-, hbag, hitem⟩ := Expr.index.inj hplain
          rw [check, check]
          refine (keptBy_enter level offset place).bind fun _ => ?_
          refine (htarget bag hbag (level + 1)).bind fun inner => ?_
          split
          · exact keptBy_raise offset _ _
          · exact (hkey item hitem (level + 1)).bind fun _ => keptBy_located _ _ fun _ hok => hok
      | _ => cases hplain
  | call offset name args =>
      intro other hplain level
      cases other with
      | call place another others =>
          obtain ⟨-, hname, hothers⟩ := Expr.call.inj hplain
          rw [check, check]
          exact (keptBy_enter level offset place).bind fun _ =>
            keptBy_reference references hname hothers offset place
      | _ => cases hplain
  | not offset operand hoperand =>
      intro other hplain level
      cases other with
      | not place inner =>
          obtain ⟨-, hinner⟩ := Expr.not.inj hplain
          rw [check, check]
          refine (keptBy_enter level offset place).bind fun _ => ?_
          exact (hoperand inner hinner (level + 1)).bind fun _ =>
            keptBy_located _ _ fun _ hok => hok
      | _ => cases hplain
  | binary offset left op right hleft hright =>
      intro other hplain level
      cases other with
      | binary place first sign second =>
          obtain ⟨-, hfirst, rfl, hsecond⟩ := Expr.binary.inj hplain
          rw [check, check]
          refine (keptBy_enter level offset place).bind fun _ => ?_
          refine (hleft first hfirst (level + 1)).bind fun _ => ?_
          refine (hright second hsecond (level + 1)).bind fun _ => ?_
          split
          · exact .refl _
          · exact keptBy_raise offset _ _
      | _ => cases hplain

theorem keptBy_checkWhole (references : References) {expr other : Expr}
    (hplain : other.plain = expr.plain) :
    (checkWhole references expr).KeptBy (checkWhole references other) := by
  unfold checkWhole
  refine (keptBy_check references expr other hplain 1).bind fun meaning => ?_
  split
  · exact .refl _
  · exact keptBy_raise expr.offset _ _

theorem compile_of_plain_eq {references : References} {expr other : Expr} {holds : Predicate}
    {deepest : Nat} (hplain : other.plain = expr.plain)
    (hcompile : expr.compile references = (.ok holds, deepest)) :
    other.compile references = (.ok holds, deepest) :=
  keptBy_checkWhole references hplain 0 holds deepest hcompile

end Archetype.Condition
