import Archetype.Proofs.Condition.Checking
import Archetype.Proofs.Condition.Evaluation

/-!
# Inlining references

A reference can be replaced by the condition of the rule that it refers to. What is found for a
rule is put in the place of the whole call, so a condition with all its references inlined mentions
no rule any more. Inlining keeps values: the new condition needs no rules and evaluates to what the
old one evaluates to with them.
-/

namespace Archetype.Condition

section Inlining

/-! `find` gives the condition that stands for the rule of a name. -/

variable (find : String → Option Expr)

/-- What stands for a call: the condition of a rule for a reference, and otherwise the call. -/
def inlineCall (offset : Nat) (name : String) (args : List Expr) : Option Expr :=
  match ruleName? args with
  | some (rule, _) =>
    if canonical name = "matches" then find rule else some (.call offset name args)
  | none => some (.call offset name args)

mutual

/-- A condition with its references replaced; there is none if a rule is not found. -/
def Expr.inline : Expr → Option Expr
  | .literal offset value => some (.literal offset value)
  | .attribute offset name => some (.attribute offset name)
  | .property offset target name => do return .property offset (← target.inline) name
  | .method offset target name args => do
    return .method offset (← target.inline) name (← inlineAll args)
  | .index offset target key => do return .index offset (← target.inline) (← key.inline)
  | .call offset name args => inlineCall find offset name args
  | .not offset operand => do return .not offset (← operand.inline)
  | .binary offset left op right => do return .binary offset (← left.inline) op (← right.inline)

def inlineAll : List Expr → Option (List Expr)
  | [] => some []
  | expr :: rest => do return (← expr.inline) :: (← inlineAll rest)

end

end Inlining

/-- No call is left in a condition. -/
def Expr.CallFree (expr : Expr) : Prop :=
  ∀ offset name args, ¬ (Expr.call offset name args).IsPart expr

theorem callFree_of_children {expr : Expr}
    (hself : ∀ offset name args, expr ≠ .call offset name args)
    (hchildren : ∀ child ∈ expr.children, child.CallFree) : expr.CallFree := by
  intro offset name args hpart
  cases hpart with
  | self => exact hself offset name args rfl
  | inside hmem hinner => exact hchildren _ hmem offset name args hinner

section Values

variable {find : String → Option Expr} {refer other : String → Except Mishap Value}
  {record : Record}

theorem evalAll_inlineAll {args inlined : List Expr}
    (heval : ∀ arg ∈ args, ∀ {result : Expr}, arg.inline find = some result →
      result.eval other record = arg.eval refer record)
    (hinline : inlineAll find args = some inlined) :
    evalAll other record inlined = evalAll refer record args := by
  induction args generalizing inlined with
  | nil =>
      cases hinline
      rw [evalAll, evalAll]
  | cons arg rest ih =>
      rw [inlineAll] at hinline
      obtain ⟨first, hfirst, hothers⟩ := Option.bind_eq_some_iff.mp hinline
      obtain ⟨others, hrest, hpure⟩ := Option.bind_eq_some_iff.mp hothers
      cases hpure
      rw [evalAll, evalAll, heval arg List.mem_cons_self hfirst,
        ih (fun arg hmem => heval arg (List.mem_cons_of_mem _ hmem)) hrest]

theorem eval_inlineCall
    (hfind : ∀ name found, find name = some found → found.eval other record = refer name)
    {offset : Nat} {name : String} {args : List Expr} {inlined : Expr}
    (hinline : inlineCall find offset name args = some inlined) :
    inlined.eval other record = (Expr.call offset name args).eval refer record := by
  unfold inlineCall at hinline
  cases hrule : ruleName? args with
  | none =>
      rw [hrule] at hinline
      cases hinline
      rw [Expr.eval, Expr.eval, hrule]
  | some found =>
      obtain ⟨rule, place⟩ := found
      rw [hrule] at hinline
      dsimp only at hinline
      rw [Expr.eval, hrule]
      by_cases hname : canonical name = "matches"
      · rw [if_pos hname] at hinline ⊢
        exact hfind rule inlined hinline
      · rw [if_neg hname] at hinline ⊢
        cases hinline
        rw [Expr.eval, if_neg hname]

/-- **Inlining keeps values.** If what is found for a rule evaluates to what the rule is worth, then
so does the whole condition, whatever rules there are for the new one. -/
theorem eval_inline
    (hfind : ∀ name found, find name = some found → found.eval other record = refer name)
    (expr : Expr) : ∀ {inlined : Expr}, expr.inline find = some inlined →
      inlined.eval other record = expr.eval refer record := by
  induction expr using Expr.induction with
  | literal offset value =>
      intro inlined hinline
      rw [Expr.inline] at hinline
      cases hinline
      rw [Expr.eval, Expr.eval]
  | named offset name =>
      intro inlined hinline
      rw [Expr.inline] at hinline
      cases hinline
      rw [Expr.eval, Expr.eval]
  | property offset target name ih =>
      intro inlined hinline
      rw [Expr.inline] at hinline
      obtain ⟨inner, hinner, hpure⟩ := Option.bind_eq_some_iff.mp hinline
      cases hpure
      rw [Expr.eval, Expr.eval, ih hinner]
  | method offset target name args ih ihargs =>
      intro inlined hinline
      rw [Expr.inline] at hinline
      obtain ⟨inner, hinner, hrest⟩ := Option.bind_eq_some_iff.mp hinline
      obtain ⟨items, hitems, hpure⟩ := Option.bind_eq_some_iff.mp hrest
      cases hpure
      rw [Expr.eval, Expr.eval, ih hinner, evalAll_inlineAll ihargs hitems]
  | index offset target key ih ihkey =>
      intro inlined hinline
      rw [Expr.inline] at hinline
      obtain ⟨inner, hinner, hrest⟩ := Option.bind_eq_some_iff.mp hinline
      obtain ⟨item, hitem, hpure⟩ := Option.bind_eq_some_iff.mp hrest
      cases hpure
      rw [Expr.eval, Expr.eval, ih hinner, ihkey hitem]
  | call offset name args =>
      intro inlined hinline
      rw [Expr.inline] at hinline
      exact eval_inlineCall hfind hinline
  | not offset operand ih =>
      intro inlined hinline
      rw [Expr.inline] at hinline
      obtain ⟨inner, hinner, hpure⟩ := Option.bind_eq_some_iff.mp hinline
      cases hpure
      rw [Expr.eval, Expr.eval, ih hinner]
  | binary offset left op right ihleft ihright =>
      intro inlined hinline
      rw [Expr.inline] at hinline
      obtain ⟨a, ha, hrest⟩ := Option.bind_eq_some_iff.mp hinline
      obtain ⟨b, hb, hpure⟩ := Option.bind_eq_some_iff.mp hrest
      cases hpure
      rw [Expr.eval, Expr.eval, ihleft ha, ihright hb]

end Values

section Checked

variable {references : References} {find : String → Option Expr}

theorem exists_inlineAll {good : Expr → Prop} : ∀ {args : List Expr},
    (∀ arg ∈ args, ∃ result, arg.inline find = some result ∧ good result) →
      ∃ inlined, inlineAll find args = some inlined ∧ ∀ arg ∈ inlined, good arg
  | [], _ => ⟨[], rfl, fun arg hmem => by cases hmem⟩
  | first :: rest, hargs => by
      obtain ⟨⟨result, hresult, hgood⟩, hrest⟩ := List.forall_mem_cons.mp hargs
      obtain ⟨others, hothers, hall⟩ := exists_inlineAll hrest
      refine ⟨result :: others, ?_, List.forall_mem_cons.mpr ⟨hgood, hall⟩⟩
      rw [inlineAll, hresult, hothers]
      rfl

/-- **A checked condition can be inlined.** Every call in it is a reference that can be found, so no
call is left. -/
theorem exists_inline_of_check
    (hfind : ∀ resolve, references = some resolve → ∀ name holds, resolve name = .ok holds →
      ∃ found, find name = some found ∧ found.CallFree) (expr : Expr) :
    ∀ {level : Nat} {meaning : Meaning}, (check references level expr).Gives meaning →
      ∃ inlined, expr.inline find = some inlined ∧ inlined.CallFree := by
  induction expr using Expr.induction with
  | literal offset value =>
      intro level meaning _
      refine ⟨_, by rw [Expr.inline], callFree_of_children (by simp) ?_⟩
      intro child hmem
      cases hmem
  | named offset name =>
      intro level meaning _
      refine ⟨_, by rw [Expr.inline], callFree_of_children (by simp) ?_⟩
      intro child hmem
      cases hmem
  | property offset target name ih =>
      intro level meaning hgives
      obtain ⟨inner, bag, hinner, -⟩ := gives_property hgives
      obtain ⟨result, hresult, hfree⟩ := ih hinner
      refine ⟨.property offset result name, by rw [Expr.inline, hresult]; rfl,
        callFree_of_children (by simp) ?_⟩
      intro child hmem
      rwa [List.mem_singleton.mp hmem]
  | method offset target name args ih ihargs =>
      intro level meaning hgives
      obtain ⟨inner, bag, hinner, -, hmethod⟩ := gives_method hgives
      obtain ⟨result, hresult, hfree⟩ := ih hinner
      have hitems : ∃ items, inlineAll find args = some items ∧ ∀ arg ∈ items, arg.CallFree := by
        refine exists_inlineAll ?_
        intro arg hmem
        rcases hmethod with ⟨rfl, -⟩ | ⟨found, hfound, -⟩
        · cases hmem
        · obtain ⟨item, hitem⟩ := exists_gives_of_mem (gives_checkAll hfound) arg hmem
          exact ihargs arg hmem hitem
      obtain ⟨items, hitems, hargs⟩ := hitems
      refine ⟨.method offset result name items, by rw [Expr.inline, hresult, hitems]; rfl,
        callFree_of_children (by simp) ?_⟩
      intro child hmem
      rcases List.mem_cons.mp hmem with rfl | hmem
      · exact hfree
      · exact hargs child hmem
  | index offset target key ih ihkey =>
      intro level meaning hgives
      obtain ⟨inner, item, hinner, hitem, -⟩ := gives_index hgives
      obtain ⟨result, hresult, hfree⟩ := ih hinner
      obtain ⟨place, hplace, hkey⟩ := ihkey hitem
      refine ⟨.index offset result place, by rw [Expr.inline, hresult, hplace]; rfl,
        callFree_of_children (by simp) ?_⟩
      intro child hmem
      rcases List.mem_pair.mp hmem with rfl | rfl
      · exact hfree
      · exact hkey
  | call offset name args =>
      intro level meaning hgives
      obtain ⟨resolve, rule, place, holds, hsome, hname, hrule, hholds, -⟩ := gives_call hgives
      obtain ⟨found, hfound, hfree⟩ := hfind resolve hsome rule holds hholds
      refine ⟨found, ?_, hfree⟩
      rw [Expr.inline, inlineCall, hrule]
      exact (if_pos hname).trans hfound
  | not offset operand ih =>
      intro level meaning hgives
      obtain ⟨inner, hinner, -⟩ := gives_not hgives
      obtain ⟨result, hresult, hfree⟩ := ih hinner
      refine ⟨.not offset result, by rw [Expr.inline, hresult]; rfl,
        callFree_of_children (by simp) ?_⟩
      intro child hmem
      rwa [List.mem_singleton.mp hmem]
  | binary offset left op right ihleft ihright =>
      intro level meaning hgives
      obtain ⟨a, b, ha, hb, -⟩ := gives_binary hgives
      obtain ⟨first, hfirst, hleft⟩ := ihleft ha
      obtain ⟨second, hsecond, hright⟩ := ihright hb
      refine ⟨.binary offset first op second, by rw [Expr.inline, hfirst, hsecond]; rfl,
        callFree_of_children (by simp) ?_⟩
      intro child hmem
      rcases List.mem_pair.mp hmem with rfl | rfl
      · exact hleft
      · exact hright

end Checked

end Archetype.Condition
