import Archetype.Proofs.Condition.Fitting
import Archetype.Proofs.Condition.Soundness
import Archetype.Proofs.Record.Likeness

/-!
# What a condition can tell apart

A condition looks up nothing in a bag but the texts that stand in it and the category of the record.
Two records of one category whose bags agree on these names, and on their sizes, are one and the
same to it. This holds of every part of the condition in the way of its kind: truth values and
numbers are equal, texts are equal and among these names, and bags agree on them.
-/

namespace Archetype.Condition

/-- What a meaning is worth for two records that cannot be told apart by these names. -/
def Meaning.Agrees (names : Set Text) (a b : Record) : Meaning → Prop
  | ⟨.bool, value⟩ => value a = value b
  | ⟨.int, value⟩ => value a = value b
  | ⟨.text, value⟩ => value a = value b ∧ ∀ name ∈ value a, name ∈ names
  | ⟨.bag, value⟩ => Bag.Alike names (value a) (value b)
  | ⟨.null, _⟩ => True

section Operations

variable {names : Set Text} {a b : Record} {name : String} {meaning : Meaning} {bag : Record → Bag}

theorem agrees_attribute? (halike : Record.Alike names a b)
    (hmeaning : Meaning.attribute? name = some meaning) :
    meaning.Agrees (names ∪ {name | a.category = some name}) a b := by
  unfold Meaning.attribute? at hmeaning
  split at hmeaning
  case h_1 | h_2 =>
    cases hmeaning
    exact ⟨halike.category, fun name hname => .inr hname⟩
  case h_3 =>
    cases hmeaning
    exact halike.colors
  case h_4 =>
    cases hmeaning
    exact halike.cards
  case h_5 =>
    cases hmeaning
    exact halike.words
  case h_6 => cases hmeaning

theorem alike_of_bag? (hmeaning : meaning.Agrees names a b) (hbag : meaning.bag? = some bag) :
    Bag.Alike names (bag a) (bag b) := by
  obtain ⟨kind, value⟩ := meaning
  cases kind <;> cases hbag
  exact hmeaning

theorem agrees_property? (hbag : Bag.Alike names (bag a) (bag b))
    (hmeaning : Meaning.property? bag name = some meaning) : meaning.Agrees names a b := by
  unfold Meaning.property? at hmeaning
  split at hmeaning <;> cases hmeaning
  · exact congrArg Nat.cast hbag.distinct
  · exact hbag.total

/-- Items that are the same for both records, and asked for in both bags. -/
def ItemsAgree (names : Set Text) (a b : Record) (items : List (Record → Option Text)) : Prop :=
  ∀ item ∈ items, item a = item b ∧ ∀ name ∈ item a, name ∈ names

theorem itemsAgree_of_textItems {args : List Meaning} (hargs : ∀ arg ∈ args, arg.Agrees names a b) :
    ∀ {position : Nat} {items : List (Record → Option Text)},
      Meaning.textItems name position args = .ok items → ItemsAgree names a b items := by
  induction args with
  | nil =>
      intro position items hitems
      cases hitems
      simp [ItemsAgree]
  | cons arg rest ih =>
      intro position items hitems
      obtain ⟨harg, hrest⟩ := List.forall_mem_cons.mp hargs
      obtain ⟨kind, value⟩ := arg
      cases kind with
      | text =>
          obtain ⟨others, hothers, rfl⟩ := exists_of_map_eq_ok hitems
          exact List.forall_mem_cons.mpr ⟨harg, ih hrest hothers⟩
      | _ => cases hitems

theorem itemsAgree_of_items {args : List Meaning} (hargs : ∀ arg ∈ args, arg.Agrees names a b)
    {items : List (Record → Option Text)} (hitems : Meaning.items name args = .ok items) :
    ItemsAgree names a b items := by
  unfold Meaning.items at hitems
  split at hitems
  · cases hitems
  · exact itemsAgree_of_textItems hargs hitems

theorem itemAgrees_of_item {args : List Meaning} (hargs : ∀ arg ∈ args, arg.Agrees names a b)
    {item : Record → Option Text} (hitem : Meaning.item name args = .ok item) :
    item a = item b ∧ ∀ name ∈ item a, name ∈ names := by
  unfold Meaning.item at hitem
  split at hitem
  · cases hitem
    exact hargs _ List.mem_cons_self
  · cases hitem
  · cases hitem

theorem ItemsAgree.map_eq {items : List (Record → Option Text)}
    (hitems : ItemsAgree names a b items) : items.map (· a) = items.map (· b) :=
  List.map_congr_left fun item hitem => (hitems item hitem).1

theorem ItemsAgree.forall_mem_map {items : List (Record → Option Text)}
    (hitems : ItemsAgree names a b items) :
    ∀ item ∈ items.map (· a), ∀ name ∈ item, name ∈ names := by
  intro item hmem
  obtain ⟨value, hvalue, rfl⟩ := List.mem_map.mp hmem
  exact (hitems value hvalue).2

theorem leastAndItems_agree {args : List Meaning} (hargs : ∀ arg ∈ args, arg.Agrees names a b) :
    (Meaning.leastAndItems args).1 a = (Meaning.leastAndItems args).1 b ∧
      ∀ arg ∈ (Meaning.leastAndItems args).2, arg.Agrees names a b := by
  unfold Meaning.leastAndItems
  split
  · exact List.forall_mem_cons.mp hargs
  · exact ⟨rfl, hargs⟩

theorem agrees_method (hbag : Bag.Alike names (bag a) (bag b)) {args : List Meaning}
    (hargs : ∀ arg ∈ args, arg.Agrees names a b)
    (hmeaning : Meaning.method bag name args = .ok meaning) : meaning.Agrees names a b := by
  unfold Meaning.method at hmeaning
  split at hmeaning
  case h_1 | h_2 =>
    obtain ⟨items, hok, hpure⟩ := exists_of_bind_eq_ok hmeaning
    cases hpure
    have hitems := itemsAgree_of_items hargs hok
    calc (bag a).containsAll (items.map (· a))
        = (bag b).containsAll (items.map (· a)) := hbag.containsAll_eq hitems.forall_mem_map
      _ = (bag b).containsAll (items.map (· b)) := by rw [hitems.map_eq]
  case h_3 =>
    obtain ⟨hleast, hrest⟩ := leastAndItems_agree hargs
    cases hsplit : Meaning.leastAndItems args with
    | mk least rest =>
        rw [hsplit] at hmeaning hleast hrest
        obtain ⟨items, hok, hpure⟩ := exists_of_bind_eq_ok hmeaning
        cases hpure
        have hitems := itemsAgree_of_items hrest hok
        calc (bag a).containsAny (least a) (items.map (· a))
            = (bag b).containsAny (least a) (items.map (· a)) :=
              hbag.containsAny_eq _ hitems.forall_mem_map
          _ = (bag b).containsAny (least b) (items.map (· b)) := by
              rw [hitems.map_eq]
              exact congrArg (fun least => (bag b).containsAny least _) hleast
  case h_4 =>
    obtain ⟨item, hok, hpure⟩ := exists_of_bind_eq_ok hmeaning
    cases hpure
    obtain ⟨hsame, hitem⟩ := itemAgrees_of_item hargs hok
    calc (bag a).holds (item a) = (bag b).holds (item a) := hbag.holds_eq hitem
      _ = (bag b).holds (item b) := by rw [hsame]
  case h_5 =>
    obtain ⟨item, hok, hpure⟩ := exists_of_bind_eq_ok hmeaning
    cases hpure
    obtain ⟨hsame, hitem⟩ := itemAgrees_of_item hargs hok
    calc (bag a).countOf (item a) = (bag b).countOf (item a) := hbag.countOf_eq hitem
      _ = (bag b).countOf (item b) := by rw [hsame]
  case h_6 => cases hmeaning

theorem agrees_index {target item : Meaning} (htarget : target.Agrees names a b)
    (hitem : item.Agrees names a b) (hmeaning : Meaning.index target item = .ok meaning) :
    meaning.Agrees names a b := by
  obtain ⟨kind, bag⟩ := target
  obtain ⟨sort, value⟩ := item
  cases kind <;> cases sort <;> cases hmeaning
  calc (bag a).countOf (value a) = (bag b).countOf (value a) := htarget.countOf_eq hitem.2
    _ = (bag b).countOf (value b) := by rw [hitem.1]

theorem agrees_not {operand : Meaning} (hoperand : operand.Agrees names a b)
    (hmeaning : operand.not = .ok meaning) : meaning.Agrees names a b := by
  obtain ⟨kind, value⟩ := operand
  cases kind <;> cases hmeaning
  exact congrArg Bool.not hoperand

theorem eq_of_equal? {left right : Meaning} (hleft : left.Agrees names a b)
    (hright : right.Agrees names a b) {equal : Predicate}
    (hequal : Meaning.equal? left right = some equal) : equal a = equal b := by
  obtain ⟨kind, x⟩ := left
  obtain ⟨sort, y⟩ := right
  cases kind <;> cases sort <;> cases hequal
  case null.null => rfl
  case text.text => exact congrArg₂ (· == ·) hleft.1 hright.1
  case text.null => exact congrArg Option.isNone hleft.1
  case null.text => exact congrArg Option.isNone hright.1
  all_goals exact congrArg₂ (· == ·) hleft hright

theorem agrees_binary? {op : BinaryOp} {left right : Meaning} (hleft : left.Agrees names a b)
    (hright : right.Agrees names a b) (hmeaning : Meaning.binary? op left right = some meaning) :
    meaning.Agrees names a b := by
  cases op with
  | eq =>
      obtain ⟨equal, hequal, rfl⟩ := Option.map_eq_some_iff.mp hmeaning
      exact eq_of_equal? hleft hright hequal
  | ne =>
      obtain ⟨equal, hequal, rfl⟩ := Option.map_eq_some_iff.mp hmeaning
      exact congrArg Bool.not (eq_of_equal? hleft hright hequal)
  | _ =>
      obtain ⟨kind, x⟩ := left
      obtain ⟨sort, y⟩ := right
      cases kind <;> cases sort <;> cases hmeaning
      simp only [Meaning.Agrees] at hleft hright ⊢
      rw [hleft, hright]

end Operations

/-- The texts that stand in a condition. The name in a reference is none of them: it is looked up in
no bag. -/
def Expr.texts (expr : Expr) : Set Text :=
  {text | ∃ offset value, (Expr.literal offset (.text value)).IsPart expr ∧
    text = Text.ofString value}

theorem texts_subset_of_mem_children {expr child : Expr} (hchild : child ∈ expr.children) :
    child.texts ⊆ expr.texts := by
  rintro text ⟨offset, value, hpart, htext⟩
  exact ⟨offset, value, .inside hchild hpart, htext⟩

/-- A condition whose texts are among these names, and whose references are to rules that do not
tell the two records apart. -/
structure Asks (references : References) (names : Set Text) (a b : Record) (expr : Expr) : Prop where
  texts : expr.texts ⊆ names
  rules : ∀ resolve, references = some resolve → ∀ name ∈ expr.references, ∀ holds,
    resolve name = .ok holds → holds a = holds b

theorem Asks.child {references : References} {names : Set Text} {a b : Record} {expr child : Expr}
    (hasks : Asks references names a b expr) (hchild : child ∈ expr.children) :
    Asks references names a b child where
  texts := (texts_subset_of_mem_children hchild).trans hasks.texts
  rules resolve hsome name hname :=
    hasks.rules resolve hsome name (references_subset_of_mem_children hchild hname)

theorem forall_mem_of_gives {references : References} {names : Set Text} {a b : Record}
    {level : Nat} {args : List Expr} {found : List Meaning}
    (hagree : ∀ arg ∈ args, ∀ {level : Nat} {meaning : Meaning},
      (check references level arg).Gives meaning → meaning.Agrees names a b)
    (hgives : List.Forall₂ (fun arg meaning => (check references level arg).Gives meaning)
      args found) : ∀ meaning ∈ found, meaning.Agrees names a b := by
  induction hgives with
  | nil => simp
  | cons hfirst _ ih =>
      refine List.forall_mem_cons.mpr ⟨hagree _ List.mem_cons_self hfirst, ?_⟩
      exact ih fun arg hmem => hagree arg (List.mem_cons_of_mem _ hmem)

/-- **A condition tells records apart only by its texts, its references and the category.** -/
theorem agrees_of_check {references : References} {names : Set Text} {a b : Record}
    (halike : Record.Alike names a b) (expr : Expr) : Asks references names a b expr →
      ∀ {level : Nat} {meaning : Meaning}, (check references level expr).Gives meaning →
        meaning.Agrees (names ∪ {name | a.category = some name}) a b := by
  induction expr using Expr.induction with
  | literal offset value =>
      intro hasks level meaning hgives
      rw [gives_literal hgives]
      cases value with
      | text value =>
          refine ⟨rfl, ?_⟩
          rintro name ⟨⟩
          exact .inl (hasks.texts ⟨offset, value, .self _, rfl⟩)
      | bool | number => exact rfl
      | null => trivial
  | named offset name =>
      intro hasks level meaning hgives
      exact agrees_attribute? halike (gives_attribute hgives)
  | property offset target name ih =>
      intro hasks level meaning hgives
      obtain ⟨inner, bag, hinner, hbag, hproperty⟩ := gives_property hgives
      have htarget := ih (hasks.child (by simp [Expr.children])) hinner
      exact agrees_property? (alike_of_bag? htarget hbag) hproperty
  | method offset target name args ih ihargs =>
      intro hasks level meaning hgives
      obtain ⟨inner, bag, hinner, hbag, hmethod⟩ := gives_method hgives
      have htarget := alike_of_bag? (ih (hasks.child (by simp [Expr.children])) hinner) hbag
      rcases hmethod with ⟨rfl, hproperty⟩ | ⟨found, hfound, -, hanswer⟩
      · exact agrees_property? htarget hproperty
      · refine agrees_method htarget (forall_mem_of_gives ?_ (gives_checkAll hfound)) hanswer
        intro arg hmem level meaning hgives
        exact ihargs arg hmem (hasks.child (List.mem_cons_of_mem _ hmem)) hgives
  | index offset target key ih ihkey =>
      intro hasks level meaning hgives
      obtain ⟨inner, item, hinner, hitem, hindex⟩ := gives_index hgives
      exact agrees_index (ih (hasks.child (by simp [Expr.children])) hinner)
        (ihkey (hasks.child (by simp [Expr.children])) hitem) hindex
  | call offset name args =>
      intro hasks level meaning hgives
      obtain ⟨resolve, rule, place, holds, hsome, -, hrule, hholds, rfl⟩ := gives_call hgives
      exact hasks.rules resolve hsome rule (by simp [Expr.references, hrule]) holds hholds
  | not offset operand ih =>
      intro hasks level meaning hgives
      obtain ⟨inner, hinner, hnot⟩ := gives_not hgives
      exact agrees_not (ih (hasks.child (by simp [Expr.children])) hinner) hnot
  | binary offset left op right ihleft ihright =>
      intro hasks level meaning hgives
      obtain ⟨x, y, hx, hy, hbinary⟩ := gives_binary hgives
      exact agrees_binary? (ihleft (hasks.child (by simp [Expr.children])) hx)
        (ihright (hasks.child (by simp [Expr.children])) hy) hbinary

end Archetype.Condition
