import Archetype.Proofs.Condition.Checking
import Archetype.Proofs.Condition.Evaluation
import Archetype.Proofs.Outcome

/-!
# Checked conditions do not go wrong

The checker gives a condition a kind and a meaning of that kind. Here the meaning is followed down
to the interpreter: for every record the interpreter reaches the value that the meaning has there,
so it meets no wrong operand, no missing name and no rule that cannot be found.
-/

namespace Archetype.Condition

/-- The value that an inhabitant of a kind stands for. -/
def Kind.embed : (kind : Kind) → kind.Carrier → Value
  | .bool, value => .bool value
  | .int, value => .int value
  | .text, value => value.elim .null .text
  | .bag, value => .bag value
  | .null, _ => .null

/-- The value of a meaning for a record. -/
def Meaning.valueFor (meaning : Meaning) (record : Record) : Value :=
  meaning.kind.embed (meaning.value record)

theorem isOf_embed (kind : Kind) (inhabitant : kind.Carrier) :
    (kind.embed inhabitant).isOf kind = true := by
  cases kind with
  | text => cases inhabitant <;> rfl
  | _ => rfl

/-- Rules are evaluated to what the references of the checker say of a record. -/
def References.Agree (references : References) (refer : String → Except Mishap Value)
    (record : Record) : Prop :=
  ∀ resolve, references = some resolve → ∀ name holds, resolve name = .ok holds →
    refer name = .ok (.bool (holds record))

theorem agree_none (refer : String → Except Mishap Value) (record : Record) :
    References.Agree none refer record := by
  intro resolve hsome
  cases hsome

section Operations

/-! Each operation of the interpreter follows the operation of the checker that has its name. -/

variable {record : Record} {name : String} {meaning : Meaning} {bag : Record → Bag}

theorem recordPart?_of_attribute? (hmeaning : Meaning.attribute? name = some meaning) :
    recordPart? record name = some (meaning.valueFor record) := by
  unfold Meaning.attribute? at hmeaning
  unfold recordPart?
  generalize canonical name = key at hmeaning ⊢
  split at hmeaning <;> cases hmeaning <;> rfl

theorem map_bagNumber? (bag : Record → Bag) (name : String) (record : Record) :
    (bagNumber? (bag record) name).map .int =
      (Meaning.property? bag name).map (·.valueFor record) := by
  unfold bagNumber? Meaning.property?
  generalize canonical name = key
  split
  · rfl
  · rfl
  · simp only [Option.map_none]

theorem asBag_of_bag? (hbag : meaning.bag? = some bag) :
    (meaning.valueFor record).asBag = .ok (bag record) := by
  obtain ⟨kind, value⟩ := meaning
  cases kind <;> cases hbag
  rfl

theorem asItem_text (item : Record → Option Text) :
    (Meaning.valueFor ⟨.text, item⟩ record).asItem = .ok (item record) := by
  show (Option.elim (item record) Value.null Value.text).asItem = .ok (item record)
  cases item record <;> rfl

theorem mapM_asItem_of_textItems {position : Nat} {args : List Meaning}
    {items : List (Record → Option Text)}
    (hitems : Meaning.textItems name position args = .ok items) :
    (args.map (·.valueFor record)).mapM Value.asItem = .ok (items.map (· record)) := by
  induction args generalizing position items with
  | nil =>
      cases hitems
      rfl
  | cons arg rest ih =>
      obtain ⟨kind, value⟩ := arg
      cases kind with
      | text =>
          obtain ⟨others, hothers, rfl⟩ := exists_of_map_eq_ok hitems
          rw [List.map_cons, List.mapM_cons, asItem_text, ih hothers]
          rfl
      | _ => cases hitems

theorem itemsOf_of_items {args : List Meaning} {items : List (Record → Option Text)}
    (hitems : Meaning.items name args = .ok items) :
    itemsOf (args.map (·.valueFor record)) = .ok (items.map (· record)) := by
  cases args with
  | nil => cases hitems
  | cons arg rest => exact mapM_asItem_of_textItems hitems

theorem itemOf_of_item {args : List Meaning} {item : Record → Option Text}
    (hitem : Meaning.item name args = .ok item) :
    itemOf (args.map (·.valueFor record)) = .ok (item record) := by
  unfold Meaning.item at hitem
  split at hitem
  · cases hitem
    exact asItem_text item
  · cases hitem
  · cases hitem

/-- A number in front of the items is seen from its value as well as from its kind. -/
theorem wanted_map_valueFor (args : List Meaning) :
    wanted (args.map (·.valueFor record)) =
      ((Meaning.leastAndItems args).1 record,
        (Meaning.leastAndItems args).2.map (·.valueFor record)) := by
  cases args with
  | nil => rfl
  | cons first rest =>
      obtain ⟨kind, value⟩ := first
      cases kind with
      | text =>
          change wanted (Option.elim (value record) .null .text :: _) = _
          cases hvalue : value record <;> simp [wanted, Meaning.leastAndItems, Meaning.valueFor,
            Kind.embed, hvalue]
      | _ => rfl

theorem bagAnswer_of_method {args : List Meaning}
    (hmeaning : Meaning.method bag name args = .ok meaning) :
    bagAnswer (bag record) name (args.map (·.valueFor record)) =
      .ok (meaning.valueFor record) := by
  unfold Meaning.method at hmeaning
  unfold bagAnswer
  generalize canonical name = key at hmeaning ⊢
  split at hmeaning
  case h_1 | h_2 =>
    obtain ⟨items, hitems, hpure⟩ := exists_of_bind_eq_ok hmeaning
    cases hpure
    change (do return Value.bool ((bag record).containsAll (← itemsOf _))) = _
    rw [itemsOf_of_items hitems]
    rfl
  case h_3 =>
    cases hsplit : Meaning.leastAndItems args with
    | mk least rest =>
        rw [hsplit] at hmeaning
        obtain ⟨items, hitems, hpure⟩ := exists_of_bind_eq_ok hmeaning
        cases hpure
        change (do return Value.bool ((bag record).containsAny (wanted _).1
          (← itemsOf (wanted _).2))) = _
        rw [wanted_map_valueFor, hsplit, itemsOf_of_items hitems]
        rfl
  case h_4 =>
    obtain ⟨item, hitem, hpure⟩ := exists_of_bind_eq_ok hmeaning
    cases hpure
    change (do return Value.bool ((bag record).holds (← itemOf _))) = _
    rw [itemOf_of_item hitem]
    rfl
  case h_5 =>
    obtain ⟨item, hitem, hpure⟩ := exists_of_bind_eq_ok hmeaning
    cases hpure
    change (do return Value.int ((bag record).countOf (← itemOf _))) = _
    rw [itemOf_of_item hitem]
    rfl
  case h_6 => cases hmeaning

theorem eval_not_of_not {inner : Meaning} (hmeaning : inner.not = .ok meaning) :
    (do return Value.bool (!(← (inner.valueFor record).asBool))) =
      .ok (meaning.valueFor record) := by
  obtain ⟨kind, value⟩ := inner
  cases kind <;> cases hmeaning
  rfl

theorem index_of_index {target item : Meaning}
    (hmeaning : Meaning.index target item = .ok meaning) :
    (do return Value.int (Bag.countOf (← (target.valueFor record).asBag)
      (← (item.valueFor record).asItem))) = .ok (meaning.valueFor record) := by
  obtain ⟨kind, bag⟩ := target
  obtain ⟨sort, value⟩ := item
  cases kind <;> cases sort <;> cases hmeaning
  rw [asItem_text]
  rfl

theorem equals_text (x y : Option Text) :
    (x.elim Value.null Value.text).equals (y.elim .null .text) = .ok (x == y) := by
  cases x <;> cases y <;> rfl

theorem equals_null (x : Option Text) :
    (x.elim Value.null Value.text).equals .null = .ok x.isNone ∧
      Value.null.equals (x.elim .null .text) = .ok x.isNone := by
  cases x <;> exact ⟨rfl, rfl⟩

theorem equals_of_equal? {a b : Meaning} {equal : Predicate}
    (hequal : Meaning.equal? a b = some equal) :
    (a.valueFor record).equals (b.valueFor record) = .ok (equal record) := by
  obtain ⟨kind, x⟩ := a
  obtain ⟨sort, y⟩ := b
  cases kind <;> cases sort <;> cases hequal
  case text.text => exact equals_text (x record) (y record)
  case text.null => exact (equals_null (x record)).1
  case null.text => exact (equals_null (y record)).2
  all_goals rfl

/-- Operators take the operands that the checker lets them take. -/
theorem combine_of_binary? {op : BinaryOp} {a b : Meaning}
    (hmeaning : Meaning.binary? op a b = some meaning) :
    (a.valueFor record).combine op (.ok (b.valueFor record)) = .ok (meaning.valueFor record) := by
  cases op with
  | eq =>
      obtain ⟨equal, hequal, rfl⟩ := Option.map_eq_some_iff.mp hmeaning
      change (do return Value.bool (← (a.valueFor record).equals (b.valueFor record))) = _
      rw [equals_of_equal? hequal]
      rfl
  | ne =>
      obtain ⟨equal, hequal, rfl⟩ := Option.map_eq_some_iff.mp hmeaning
      change (do return Value.bool (!(← (a.valueFor record).equals (b.valueFor record)))) = _
      rw [equals_of_equal? hequal]
      rfl
  | and | or =>
      obtain ⟨kind, x⟩ := a
      obtain ⟨sort, y⟩ := b
      cases kind <;> cases sort <;> cases hmeaning
      -- the left operand decides whether the right one is looked at
      simp only [Meaning.valueFor, Kind.embed, Value.combine, Value.asBool]
      cases x record <;> rfl
  | lt | le | gt | ge | add | sub =>
      obtain ⟨kind, x⟩ := a
      obtain ⟨sort, y⟩ := b
      cases kind <;> cases sort <;> cases hmeaning
      rfl

end Operations

section Agreement

variable {references : References} {refer : String → Except Mishap Value} {record : Record}

theorem evalAll_of_forall₂ {level : Nat} {args : List Expr} {found : List Meaning}
    (heval : ∀ arg ∈ args, ∀ {level : Nat} {meaning : Meaning},
      (check references level arg).Gives meaning →
        arg.eval refer record = .ok (meaning.valueFor record))
    (hgives : List.Forall₂ (fun arg meaning => (check references level arg).Gives meaning)
      args found) :
    evalAll refer record args = .ok (found.map (·.valueFor record)) := by
  induction hgives with
  | nil => rw [evalAll, List.map_nil]
  | cons hfirst _ ih =>
      rw [evalAll, heval _ List.mem_cons_self hfirst, ok_bind,
        ih fun arg hmem => heval arg (List.mem_cons_of_mem _ hmem), ok_bind]
      rfl

/-- **A checked condition evaluates to what it means.** -/
theorem eval_of_check (hagree : references.Agree refer record) (expr : Expr) :
    ∀ {level : Nat} {meaning : Meaning}, (check references level expr).Gives meaning →
      expr.eval refer record = .ok (meaning.valueFor record) := by
  induction expr using Expr.induction with
  | literal offset value =>
      intro level meaning hgives
      rw [gives_literal hgives, Expr.eval]
      cases value <;> rfl
  | named offset name =>
      intro level meaning hgives
      rw [Expr.eval, recordPart?_of_attribute? (gives_attribute hgives)]
  | property offset target name ih =>
      intro level meaning hgives
      obtain ⟨inner, bag, hinner, hbag, hproperty⟩ := gives_property hgives
      have hnumber := map_bagNumber? bag name record
      rw [hproperty] at hnumber
      obtain ⟨n, hn, hvalue⟩ := Option.map_eq_some_iff.mp hnumber
      rw [Expr.eval, ih hinner, ok_bind, asBag_of_bag? hbag, ok_bind, hn]
      exact congrArg Except.ok hvalue
  | method offset target name args ih ihargs =>
      intro level meaning hgives
      obtain ⟨inner, bag, hinner, hbag, hmethod⟩ := gives_method hgives
      have hnumber := map_bagNumber? bag name record
      rw [Expr.eval, ih hinner, ok_bind, asBag_of_bag? hbag, ok_bind]
      rcases hmethod with ⟨rfl, hproperty⟩ | ⟨found, hfound, hnone, hanswer⟩
      · rw [hproperty] at hnumber
        obtain ⟨n, hn, hvalue⟩ := Option.map_eq_some_iff.mp hnumber
        rw [evalAll, ok_bind, hn]
        exact congrArg Except.ok hvalue
      · have hforall := gives_checkAll hfound
        rw [evalAll_of_forall₂ ihargs hforall, ok_bind, ← bagAnswer_of_method hanswer]
        cases hforall with
        | nil =>
            rw [hnone rfl] at hnumber
            rw [Option.map_eq_none_iff.mp hnumber]
            rfl
        | cons _ _ => rfl
  | index offset target key ih ihkey =>
      intro level meaning hgives
      obtain ⟨inner, item, hinner, hitem, hindex⟩ := gives_index hgives
      rw [Expr.eval, ih hinner, ihkey hitem, ← index_of_index hindex]
      rfl
  | call offset name args =>
      intro level meaning hgives
      obtain ⟨resolve, rule, place, holds, hsome, hname, hrule, hholds, rfl⟩ := gives_call hgives
      rw [Expr.eval, if_pos hname, hrule]
      exact hagree resolve hsome rule holds hholds
  | not offset operand ih =>
      intro level meaning hgives
      obtain ⟨inner, hinner, hnot⟩ := gives_not hgives
      rw [Expr.eval, ih hinner, ← eval_not_of_not hnot]
      rfl
  | binary offset left op right ihleft ihright =>
      intro level meaning hgives
      obtain ⟨a, b, ha, hb, hbinary⟩ := gives_binary hgives
      rw [Expr.eval, ihleft ha, ihright hb, ok_bind]
      exact combine_of_binary? hbinary

end Agreement

/-! ### The parts of a checked condition -/

/-- The checker gives a condition this kind, at some level. -/
def HasKind (references : References) (expr : Expr) (kind : Kind) : Prop :=
  ∃ level meaning, (check references level expr).Gives meaning ∧ meaning.kind = kind

/-- **Kinds are kept.** What the checker gives a kind evaluates to a value of that kind. -/
theorem eval_of_hasKind {references : References} {refer : String → Except Mishap Value}
    {record : Record} (hagree : references.Agree refer record) {expr : Expr} {kind : Kind}
    (hkind : HasKind references expr kind) :
    ∃ value, expr.eval refer record = .ok value ∧ value.isOf kind = true := by
  obtain ⟨level, meaning, hgives, rfl⟩ := hkind
  exact ⟨_, eval_of_check hagree expr hgives, isOf_embed _ _⟩

theorem hasKind_of_mem_children {references : References} {expr : Expr} {kind : Kind}
    (hkind : HasKind references expr kind) :
    ∀ child ∈ expr.children, ∃ kind, HasKind references child kind := by
  obtain ⟨level, meaning, hgives, -⟩ := hkind
  intro child hmem
  cases expr with
  | literal | «attribute» | call => cases hmem
  | property offset target name =>
      obtain ⟨inner, bag, hinner, -⟩ := gives_property hgives
      rw [List.mem_singleton.mp hmem]
      exact ⟨_, _, _, hinner, rfl⟩
  | method offset target name args =>
      obtain ⟨inner, bag, hinner, -, hmethod⟩ := gives_method hgives
      rcases List.mem_cons.mp hmem with rfl | hmem
      · exact ⟨_, _, _, hinner, rfl⟩
      · rcases hmethod with ⟨rfl, -⟩ | ⟨found, hfound, -⟩
        · cases hmem
        · obtain ⟨item, hitem⟩ := exists_gives_of_mem (gives_checkAll hfound) child hmem
          exact ⟨_, _, _, hitem, rfl⟩
  | index offset target key =>
      obtain ⟨inner, item, hinner, hitem, -⟩ := gives_index hgives
      rcases List.mem_pair.mp hmem with rfl | rfl
      · exact ⟨_, _, _, hinner, rfl⟩
      · exact ⟨_, _, _, hitem, rfl⟩
  | not offset operand =>
      obtain ⟨inner, hinner, -⟩ := gives_not hgives
      rw [List.mem_singleton.mp hmem]
      exact ⟨_, _, _, hinner, rfl⟩
  | binary offset left op right =>
      obtain ⟨a, b, ha, hb, -⟩ := gives_binary hgives
      rcases List.mem_pair.mp hmem with rfl | rfl
      · exact ⟨_, _, _, ha, rfl⟩
      · exact ⟨_, _, _, hb, rfl⟩

/-- Every part of a condition that has a kind has a kind. -/
theorem hasKind_of_isPart {references : References} {part expr : Expr} (hpart : part.IsPart expr) :
    ∀ {kind : Kind}, HasKind references expr kind → ∃ kind, HasKind references part kind := by
  induction hpart with
  | self => exact fun hkind => ⟨_, hkind⟩
  | inside hmem _ ih =>
      intro kind hkind
      obtain ⟨inner, hinner⟩ := hasKind_of_mem_children hkind _ hmem
      exact ih hinner

/-- Every part of a condition has a kind and evaluates to a value of each kind that it has. -/
def KindsKept (references : References) (refer : String → Except Mishap Value) (record : Record)
    (expr : Expr) : Prop :=
  ∀ part : Expr, part.IsPart expr →
    (∃ kind, HasKind references part kind) ∧
    ∀ kind, HasKind references part kind →
      ∃ value, part.eval refer record = .ok value ∧ value.isOf kind = true

/-- **Nothing goes wrong in any part of a checked condition.** -/
theorem kindsKept_of_check {references : References} {refer : String → Except Mishap Value}
    {record : Record} (hagree : references.Agree refer record) {expr : Expr} {level : Nat}
    {meaning : Meaning} (hgives : (check references level expr).Gives meaning) :
    KindsKept references refer record expr := by
  intro part hpart
  refine ⟨hasKind_of_isPart hpart ⟨level, meaning, hgives, rfl⟩, ?_⟩
  intro kind hkind
  exact eval_of_hasKind hagree hkind

end Archetype.Condition
