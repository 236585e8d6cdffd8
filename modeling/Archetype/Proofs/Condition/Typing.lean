import Mathlib.Data.List.Forall2
import Archetype.Condition.Checker
import Archetype.Proofs.Outcome

/-!
# Kinds of conditions

Which condition is of which kind, said by rules and without a checker. The rules look at no record,
at no rule of a tree and at no depth. Each operation of the checker follows them: it has a meaning
exactly if the rules give it a kind, and the meaning is of that kind.
-/

namespace Archetype.Condition

def Literal.kind : Literal → Kind
  | .null => .null
  | .bool _ => .bool
  | .number _ => .int
  | .text _ => .text

/-- What a bag answers to the method of a canonical name, by the kinds of its arguments. -/
inductive MethodKind : String → List Kind → Kind → Prop
  | containsAll {name : String} (hname : name ∈ ["contains", "containsall"]) (more : Nat) :
      MethodKind name (List.replicate (more + 1) .text) .bool
  | containsAny (more : Nat) :
      MethodKind "containsany" (List.replicate (more + 1) .text) .bool
  | containsSome (more : Nat) :
      MethodKind "containsany" (.int :: List.replicate (more + 1) .text) .bool
  | containsKey : MethodKind "containskey" [.text] .bool
  | count : MethodKind "count" [.text] .int

/-- What an operator makes of two kinds. Only a text can be compared with `null`. -/
inductive BinaryKind : BinaryOp → Kind → Kind → Kind → Prop
  | connect {op : BinaryOp} (hop : op ∈ [BinaryOp.and, .or]) : BinaryKind op .bool .bool .bool
  | equal {op : BinaryOp} {kind : Kind} (hop : op ∈ [BinaryOp.eq, .ne]) (hkind : kind ≠ .bag) :
      BinaryKind op kind kind .bool
  | absentLeft {op : BinaryOp} (hop : op ∈ [BinaryOp.eq, .ne]) : BinaryKind op .text .null .bool
  | absentRight {op : BinaryOp} (hop : op ∈ [BinaryOp.eq, .ne]) : BinaryKind op .null .text .bool
  | order {op : BinaryOp} (hop : op ∈ [BinaryOp.lt, .le, .gt, .ge]) :
      BinaryKind op .int .int .bool
  | compute {op : BinaryOp} (hop : op ∈ [BinaryOp.add, .sub]) : BinaryKind op .int .int .int

/-- A condition is of a kind. -/
inductive OfKind : Expr → Kind → Prop
  | literal {offset : Nat} {value : Literal} : OfKind (.literal offset value) value.kind
  | text {offset : Nat} {name : String} (hname : canonical name ∈ ["category", "gametype"]) :
      OfKind (.attribute offset name) .text
  | bag {offset : Nat} {name : String} (hname : canonical name ∈ ["colors", "cards", "words"]) :
      OfKind (.attribute offset name) .bag
  | property {offset : Nat} {target : Expr} {name : String} (htarget : OfKind target .bag)
      (hname : canonical name ∈ ["count", "total"]) : OfKind (.property offset target name) .int
  | number {offset : Nat} {target : Expr} {name : String} (htarget : OfKind target .bag)
      (hname : canonical name ∈ ["count", "total"]) : OfKind (.method offset target name []) .int
  | method {offset : Nat} {target : Expr} {name : String} {args : List (Expr × Kind)} {kind : Kind}
      (htarget : OfKind target .bag) (hargs : ∀ arg ∈ args, OfKind arg.1 arg.2)
      (hmethod : MethodKind (canonical name) (args.map (·.2)) kind) :
      OfKind (.method offset target name (args.map (·.1))) kind
  | index {offset : Nat} {target key : Expr} (htarget : OfKind target .bag)
      (hkey : OfKind key .text) : OfKind (.index offset target key) .int
  | reference {offset place : Nat} {name rule : String} (hname : canonical name = "matches") :
      OfKind (.call offset name [.literal place (.text rule)]) .bool
  | not {offset : Nat} {operand : Expr} (hoperand : OfKind operand .bool) :
      OfKind (.not offset operand) .bool
  | binary {offset : Nat} {left right : Expr} {op : BinaryOp} {a b kind : Kind}
      (hleft : OfKind left a) (hright : OfKind right b) (hop : BinaryKind op a b kind) :
      OfKind (.binary offset left op right) kind

theorem ofKind_method {offset : Nat} {target : Expr} {name : String} {args : List Expr}
    {kinds : List Kind} {kind : Kind} (htarget : OfKind target .bag)
    (hargs : List.Forall₂ OfKind args kinds) (hmethod : MethodKind (canonical name) kinds kind) :
    OfKind (.method offset target name args) kind := by
  obtain ⟨hlength, hzip⟩ := List.forall₂_iff_zip.mp hargs
  have hfst : (args.zip kinds).map (·.1) = args := List.map_fst_zip (Nat.le_of_eq hlength)
  have hsnd : (args.zip kinds).map (·.2) = kinds := List.map_snd_zip (Nat.le_of_eq hlength.symm)
  rw [← hfst]
  refine .method htarget (fun arg hmem => hzip hmem) ?_
  rw [hsnd]
  exact hmethod

/-- Every method takes an argument. -/
theorem args_ne_nil_of_methodKind {name : String} {kinds : List Kind} {kind : Kind}
    (hmethod : MethodKind name kinds kind) : kinds ≠ [] := by
  cases hmethod <;> simp

/-! ### Operations and their kinds -/

section Operations

variable {name : String} {bag : Record → Bag} {meaning : Meaning}

theorem kind_ofLiteral (value : Literal) : (Meaning.ofLiteral value).kind = value.kind := by
  cases value <;> rfl

theorem ofKind_of_attribute? {offset : Nat} (hmeaning : Meaning.attribute? name = some meaning) :
    OfKind (.attribute offset name) meaning.kind := by
  unfold Meaning.attribute? at hmeaning
  split at hmeaning
  case h_1 hname | h_2 hname =>
    cases hmeaning
    exact .text (by simp [hname])
  case h_3 hname | h_4 hname | h_5 hname =>
    cases hmeaning
    exact .bag (by simp [hname])
  case h_6 => cases hmeaning

theorem exists_attribute?_text (hname : canonical name ∈ ["category", "gametype"]) :
    ∃ meaning, Meaning.attribute? name = some meaning ∧ meaning.kind = .text := by
  simp only [List.mem_cons, List.not_mem_nil, or_false] at hname
  rcases hname with hname | hname <;> simp [Meaning.attribute?, hname]

theorem exists_attribute?_bag (hname : canonical name ∈ ["colors", "cards", "words"]) :
    ∃ meaning, Meaning.attribute? name = some meaning ∧ meaning.kind = .bag := by
  simp only [List.mem_cons, List.not_mem_nil, or_false] at hname
  rcases hname with hname | hname | hname <;> simp [Meaning.attribute?, hname]

theorem property?_eq_some (hmeaning : Meaning.property? bag name = some meaning) :
    canonical name ∈ ["count", "total"] ∧ meaning.kind = .int := by
  unfold Meaning.property? at hmeaning
  split at hmeaning
  case h_1 hname | h_2 hname =>
    cases hmeaning
    exact ⟨by simp [hname], rfl⟩
  case h_3 => cases hmeaning

theorem exists_property? (bag : Record → Bag) (hname : canonical name ∈ ["count", "total"]) :
    ∃ meaning, Meaning.property? bag name = some meaning ∧ meaning.kind = .int := by
  simp only [List.mem_cons, List.not_mem_nil, or_false] at hname
  rcases hname with hname | hname <;> simp [Meaning.property?, hname]

theorem bag?_eq_some (hbag : meaning.bag? = some bag) : meaning.kind = .bag := by
  obtain ⟨kind, value⟩ := meaning
  cases kind <;> cases hbag
  rfl

theorem exists_bag? (hkind : meaning.kind = .bag) : ∃ bag, meaning.bag? = some bag := by
  obtain ⟨kind, value⟩ := meaning
  cases hkind
  exact ⟨value, rfl⟩

theorem kinds_of_textItems (position : Nat) {args : List Meaning}
    {items : List (Record → Option Text)}
    (hitems : Meaning.textItems name position args = .ok items) :
    args.map (·.kind) = List.replicate args.length .text := by
  induction args generalizing position items with
  | nil => rfl
  | cons arg rest ih =>
      obtain ⟨kind, value⟩ := arg
      cases kind with
      | text =>
          obtain ⟨others, hothers, -⟩ := exists_of_map_eq_ok hitems
          rw [List.map_cons, ih (position + 1) hothers]
          rfl
      | _ => cases hitems

theorem exists_textItems (name : String) {args : List Meaning} : ∀ (position : Nat) {more : Nat},
    args.map (·.kind) = List.replicate more .text →
      ∃ items, Meaning.textItems name position args = .ok items := by
  induction args with
  | nil =>
      intro position more _
      exact ⟨[], rfl⟩
  | cons arg rest ih =>
      intro position more hkinds
      obtain ⟨kind, value⟩ := arg
      cases more with
      | zero => cases hkinds
      | succ more =>
          rw [List.map_cons, List.replicate_succ] at hkinds
          obtain ⟨hfirst, hrest⟩ := List.cons.inj hkinds
          cases hfirst
          obtain ⟨items, hitems⟩ := ih (position + 1) hrest
          refine ⟨value :: items, ?_⟩
          rw [Meaning.textItems, hitems]
          rfl

theorem kinds_of_items {args : List Meaning} {items : List (Record → Option Text)}
    (hitems : Meaning.items name args = .ok items) :
    ∃ more, args.map (·.kind) = List.replicate (more + 1) .text := by
  cases args with
  | nil => cases hitems
  | cons arg rest => exact ⟨rest.length, kinds_of_textItems 1 hitems⟩

theorem exists_items (name : String) {args : List Meaning} {more : Nat}
    (hkinds : args.map (·.kind) = List.replicate (more + 1) .text) :
    ∃ items, Meaning.items name args = .ok items := by
  cases args with
  | nil => cases hkinds
  | cons arg rest => exact exists_textItems name 1 hkinds

theorem kinds_of_item {args : List Meaning} {item : Record → Option Text}
    (hitem : Meaning.item name args = .ok item) : args.map (·.kind) = [.text] := by
  unfold Meaning.item at hitem
  split at hitem
  · rfl
  · cases hitem
  · cases hitem

theorem exists_item (name : String) {args : List Meaning} (hkinds : args.map (·.kind) = [.text]) :
    ∃ item, Meaning.item name args = .ok item := by
  obtain ⟨⟨kind, value⟩, rfl, hkind⟩ := List.map_eq_singleton_iff.mp hkinds
  cases hkind
  exact ⟨value, rfl⟩

/-- The number in front is no text, so texts are all wanted as items. -/
theorem leastAndItems_of_texts {args : List Meaning} {more : Nat}
    (hkinds : args.map (·.kind) = List.replicate more .text) :
    (Meaning.leastAndItems args).2 = args := by
  cases args with
  | nil => rfl
  | cons arg rest =>
      obtain ⟨kind, value⟩ := arg
      cases more with
      | zero => cases hkinds
      | succ more =>
          cases (List.cons.inj hkinds).1
          rfl

theorem methodKind_of_method {args : List Meaning}
    (hmeaning : Meaning.method bag name args = .ok meaning) :
    MethodKind (canonical name) (args.map (·.kind)) meaning.kind := by
  unfold Meaning.method at hmeaning
  split at hmeaning
  case h_1 hname | h_2 hname =>
    obtain ⟨items, hitems, hpure⟩ := exists_of_bind_eq_ok hmeaning
    cases hpure
    obtain ⟨more, hkinds⟩ := kinds_of_items hitems
    rw [hname, hkinds]
    exact .containsAll (by simp) more
  case h_3 hname =>
    rw [hname]
    cases hsplit : Meaning.leastAndItems args with
    | mk least rest =>
        rw [hsplit] at hmeaning
        obtain ⟨items, hitems, hpure⟩ := exists_of_bind_eq_ok hmeaning
        cases hpure
        obtain ⟨more, hkinds⟩ := kinds_of_items hitems
        unfold Meaning.leastAndItems at hsplit
        split at hsplit
        · cases hsplit
          rw [List.map_cons, hkinds]
          exact .containsSome more
        · cases hsplit
          rw [hkinds]
          exact .containsAny more
  case h_4 hname =>
    obtain ⟨item, hitem, hpure⟩ := exists_of_bind_eq_ok hmeaning
    cases hpure
    rw [hname, kinds_of_item hitem]
    exact .containsKey
  case h_5 hname =>
    obtain ⟨item, hitem, hpure⟩ := exists_of_bind_eq_ok hmeaning
    cases hpure
    rw [hname, kinds_of_item hitem]
    exact .count
  case h_6 => cases hmeaning

theorem exists_method (bag : Record → Bag) {args : List Meaning} {kind : Kind}
    (hmethod : MethodKind (canonical name) (args.map (·.kind)) kind) :
    ∃ meaning, Meaning.method bag name args = .ok meaning ∧ meaning.kind = kind := by
  unfold Meaning.method
  generalize canonical name = key at hmethod
  generalize hkinds : args.map (·.kind) = kinds at hmethod
  cases hmethod with
  | containsAll hname more =>
      obtain ⟨items, hitems⟩ := exists_items name hkinds
      simp only [List.mem_cons, List.not_mem_nil, or_false] at hname
      rcases hname with rfl | rfl <;> simp [hitems]
  | containsAny more =>
      obtain ⟨items, hitems⟩ := exists_items name hkinds
      simp [leastAndItems_of_texts hkinds, hitems]
  | containsSome more =>
      obtain ⟨⟨first, least⟩, rest, rfl, hfirst, hrest⟩ := List.map_eq_cons_iff.mp hkinds
      cases hfirst
      obtain ⟨items, hitems⟩ := exists_items name hrest
      simp [Meaning.leastAndItems, hitems]
  | containsKey | count =>
      obtain ⟨item, hitem⟩ := exists_item name hkinds
      simp [hitem]

theorem kinds_of_equal? {a b : Meaning} {equal : Predicate}
    (hequal : Meaning.equal? a b = some equal) :
    a.kind = b.kind ∧ a.kind ≠ .bag ∨ a.kind = .text ∧ b.kind = .null ∨
      a.kind = .null ∧ b.kind = .text := by
  unfold Meaning.equal? at hequal
  split at hequal <;> simp_all

theorem binaryKind_equal {op : BinaryOp} {a b : Meaning} {equal : Predicate}
    (hop : op ∈ [BinaryOp.eq, .ne]) (hequal : Meaning.equal? a b = some equal) :
    BinaryKind op a.kind b.kind .bool := by
  rcases kinds_of_equal? hequal with ⟨hsame, hbag⟩ | ⟨ha, hb⟩ | ⟨ha, hb⟩
  · rw [hsame] at hbag ⊢
    exact .equal hop hbag
  · rw [ha, hb]
    exact .absentLeft hop
  · rw [ha, hb]
    exact .absentRight hop

theorem kinds_of_connect? {op : Bool → Bool → Bool} {a b : Meaning}
    (hmeaning : Meaning.connect? op a b = some meaning) :
    a.kind = .bool ∧ b.kind = .bool ∧ meaning.kind = .bool := by
  unfold Meaning.connect? at hmeaning
  split at hmeaning <;> cases hmeaning
  exact ⟨rfl, rfl, rfl⟩

theorem kinds_of_compare? {op : Int → Int → Bool} {a b : Meaning}
    (hmeaning : Meaning.compare? op a b = some meaning) :
    a.kind = .int ∧ b.kind = .int ∧ meaning.kind = .bool := by
  unfold Meaning.compare? at hmeaning
  split at hmeaning <;> cases hmeaning
  exact ⟨rfl, rfl, rfl⟩

theorem kinds_of_compute? {op : Int → Int → Int} {a b : Meaning}
    (hmeaning : Meaning.compute? op a b = some meaning) :
    a.kind = .int ∧ b.kind = .int ∧ meaning.kind = .int := by
  unfold Meaning.compute? at hmeaning
  split at hmeaning <;> cases hmeaning
  exact ⟨rfl, rfl, rfl⟩

theorem binaryKind_of_binary? {op : BinaryOp} {a b : Meaning}
    (hmeaning : Meaning.binary? op a b = some meaning) :
    BinaryKind op a.kind b.kind meaning.kind := by
  unfold Meaning.binary? at hmeaning
  cases op with
  | and | or =>
      obtain ⟨ha, hb, hkind⟩ := kinds_of_connect? hmeaning
      rw [ha, hb, hkind]
      exact .connect (by decide)
  | eq | ne =>
      obtain ⟨equal, hequal, rfl⟩ := Option.map_eq_some_iff.mp hmeaning
      exact binaryKind_equal (by decide) hequal
  | lt | le | gt | ge =>
      obtain ⟨ha, hb, hkind⟩ := kinds_of_compare? hmeaning
      rw [ha, hb, hkind]
      exact .order (by decide)
  | add | sub =>
      obtain ⟨ha, hb, hkind⟩ := kinds_of_compute? hmeaning
      rw [ha, hb, hkind]
      exact .compute (by decide)

theorem exists_binary? {op : BinaryOp} {a b : Meaning} {kind : Kind}
    (hop : BinaryKind op a.kind b.kind kind) :
    ∃ meaning, Meaning.binary? op a b = some meaning ∧ meaning.kind = kind := by
  obtain ⟨left, x⟩ := a
  obtain ⟨right, y⟩ := b
  cases hop with
  | connect hop => cases op <;> simp [Meaning.binary?, Meaning.connect?] at hop ⊢
  | equal hop hkind =>
      cases left <;> cases op <;> simp [Meaning.binary?, Meaning.equal?] at hop hkind ⊢
  | absentLeft hop | absentRight hop =>
      cases op <;> simp [Meaning.binary?, Meaning.equal?] at hop ⊢
  | order hop => cases op <;> simp [Meaning.binary?, Meaning.compare?] at hop ⊢
  | compute hop => cases op <;> simp [Meaning.binary?, Meaning.compute?] at hop ⊢

theorem not_eq_ok {inner : Meaning} (hmeaning : inner.not = .ok meaning) :
    inner.kind = .bool ∧ meaning.kind = .bool := by
  unfold Meaning.not at hmeaning
  split at hmeaning <;> cases hmeaning
  exact ⟨rfl, rfl⟩

theorem exists_not {inner : Meaning} (hkind : inner.kind = .bool) :
    ∃ meaning, inner.not = .ok meaning ∧ meaning.kind = .bool := by
  obtain ⟨kind, value⟩ := inner
  cases hkind
  exact ⟨_, rfl, rfl⟩

theorem index_eq_ok {target key : Meaning} (hmeaning : Meaning.index target key = .ok meaning) :
    target.kind = .bag ∧ key.kind = .text ∧ meaning.kind = .int := by
  unfold Meaning.index at hmeaning
  split at hmeaning <;> cases hmeaning
  exact ⟨rfl, rfl, rfl⟩

theorem exists_index {target key : Meaning} (htarget : target.kind = .bag)
    (hkey : key.kind = .text) :
    ∃ meaning, Meaning.index target key = .ok meaning ∧ meaning.kind = .int := by
  obtain ⟨kind, bag⟩ := target
  obtain ⟨sort, item⟩ := key
  cases htarget
  cases hkey
  exact ⟨_, rfl, rfl⟩

end Operations

end Archetype.Condition
