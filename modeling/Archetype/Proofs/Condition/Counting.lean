import Archetype.Proofs.Condition.Fitting
import Archetype.Proofs.Condition.Relevance
import Archetype.Proofs.Record.Membership

/-!
# Membership asked by counts

A condition can ask a bag whether it holds items, or how often it counts them and whether that is
once or more. The first question is put in the words of the second here, everywhere in a condition
at once. A condition keeps its value by this for every record that counts each name it is asked for
at least once or not at all.
-/

namespace Archetype.Condition

/-! ### Questions -/

/-- Whether the bag counts the item at least once. -/
def atLeastOnce (target item : Expr) : Expr :=
  .binary 0 (.index 0 target item) .ge (.literal 0 (.number 1))

/-- Conditions that are joined from left to right. -/
def joined (op : BinaryOp) (first : Expr) (rest : List Expr) : Expr :=
  rest.foldl (fun left right => .binary 0 left op right) first

/-- An item as it is written, which a number in front of the items is not. -/
def Expr.isItem : Expr → Bool
  | .literal _ (.text _) | .attribute _ _ => true
  | _ => false

def startWithItem (args : List Expr) : Bool :=
  args.head?.any Expr.isItem

/-- What a method asks of a bag for these items, asked by their counts. -/
def countQuestion? (target : Expr) (name : String) : List Expr → Option Expr
  | [] => none
  | item :: others =>
    let questions := others.map (atLeastOnce target)
    match canonical name with
    | "contains" | "containsall" => some (joined .and (atLeastOnce target item) questions)
    | "containsany" => some (joined .or (atLeastOnce target item) questions)
    | "containskey" => if others.isEmpty then some (atLeastOnce target item) else none
    | "count" => if others.isEmpty then some (.index 0 target item) else none
    | _ => none

mutual

/-- A condition with all its questions for items asked by counts, whatever its offsets. How many of
some items there are is no such question. -/
def Expr.counted : Expr → Expr
  | .literal _ value => .literal 0 value
  | .attribute _ name => .attribute 0 name
  | .property _ target name => .property 0 target.counted name
  | .method _ target name args =>
    if startWithItem args then
      (countQuestion? target.counted name (countedAll args)).getD
        (.method 0 target.counted name (countedAll args))
    else
      .method 0 target.counted name (countedAll args)
  | .index _ target key => .index 0 target.counted key.counted
  | .call _ name args => .call 0 name (countedAll args)
  | .not _ operand => .not 0 operand.counted
  | .binary _ left op right => .binary 0 left.counted op right.counted

def countedAll : List Expr → List Expr
  | [] => []
  | expr :: rest => expr.counted :: countedAll rest

end

theorem countedAll_eq_map (args : List Expr) : countedAll args = args.map Expr.counted := by
  induction args with
  | nil => rfl
  | cons arg rest ih => rw [countedAll, ih, List.map_cons]

mutual

/-- Whether two conditions are the same, offsets included. -/
def Expr.same : Expr → Expr → Bool
  | .literal a x, .literal b y => a == b && x == y
  | .attribute a x, .attribute b y => a == b && x == y
  | .property a s x, .property b t y => a == b && s.same t && x == y
  | .method a s x args, .method b t y others => a == b && s.same t && x == y && sameAll args others
  | .index a s x, .index b t y => a == b && s.same t && x.same y
  | .call a x args, .call b y others => a == b && x == y && sameAll args others
  | .not a x, .not b y => a == b && x.same y
  | .binary a s op x, .binary b t other y => a == b && s.same t && op == other && x.same y
  | _, _ => false

def sameAll : List Expr → List Expr → Bool
  | [], [] => true
  | expr :: rest, other :: others => expr.same other && sameAll rest others
  | _, _ => false

end

theorem same_iff (expr other : Expr) : expr.same other = true ↔ expr = other := by
  refine @Expr.rec (fun expr => ∀ other, expr.same other = true ↔ expr = other)
    (fun args => ∀ others, sameAll args others = true ↔ args = others)
    ?_ ?_ ?_ ?_ ?_ ?_ ?_ ?_ ?_ ?_ expr other
  all_goals
    intros
    rename_i other
    cases other <;> simp_all [Expr.same, sameAll, and_assoc]

instance : DecidableEq Expr :=
  fun expr other => decidable_of_iff _ (same_iff expr other)

/-! ### What is asked, and for what -/

theorem eq_bool_or_int_of_methodKind {name : String} {kinds : List Kind} {kind : Kind}
    (hmethod : MethodKind name kinds kind) : kind = .bool ∨ kind = .int := by
  cases hmethod <;> simp

theorem eq_bool_or_int_of_binaryKind {op : BinaryOp} {a b kind : Kind}
    (hop : BinaryKind op a b kind) : kind = .bool ∨ kind = .int := by
  cases hop <;> simp

/-- Bags and items are not the outcome of any operation: they are written. -/
theorem exists_of_ofKind_bag {expr : Expr} (hkind : OfKind expr .bag) :
    ∃ offset name, expr = .attribute offset name ∧
      canonical name ∈ ["colors", "cards", "words"] := by
  generalize hbag : Kind.bag = kind at hkind
  cases hkind with
  | bag hname => exact ⟨_, _, rfl, hname⟩
  | @literal offset value => cases value <;> cases hbag
  | method _ _ hmethod => rcases eq_bool_or_int_of_methodKind hmethod with rfl | rfl <;> cases hbag
  | binary _ _ hop => rcases eq_bool_or_int_of_binaryKind hop with rfl | rfl <;> cases hbag
  | _ => cases hbag

theorem exists_of_ofKind_text {expr : Expr} (hkind : OfKind expr .text) :
    (∃ offset value, expr = .literal offset (.text value)) ∨
      ∃ offset name, expr = .attribute offset name ∧ canonical name ∈ ["category", "gametype"] := by
  generalize htext : Kind.text = kind at hkind
  cases hkind with
  | text hname => exact .inr ⟨_, _, rfl, hname⟩
  | @literal offset value =>
      cases value with
      | text value => exact .inl ⟨_, _, rfl⟩
      | _ => cases htext
  | method _ _ hmethod =>
      rcases eq_bool_or_int_of_methodKind hmethod with rfl | rfl <;> cases htext
  | binary _ _ hop => rcases eq_bool_or_int_of_binaryKind hop with rfl | rfl <;> cases htext
  | _ => cases htext

theorem isItem_of_ofKind_int {expr : Expr} (hkind : OfKind expr .int) : expr.isItem = false := by
  generalize hint : Kind.int = kind at hkind
  cases hkind with
  | text | bag => cases hint
  | @literal offset value =>
      cases value with
      | text value => cases hint
      | _ => rfl
  | _ => rfl

section Values

variable {refer : String → Except Mishap Value} {record : Record}

/-- The value of an item, which may be absent. -/
def itemValue (item : Option Text) : Value :=
  item.elim .null .text

theorem asItem_itemValue (item : Option Text) : (itemValue item).asItem = .ok item := by
  cases item <;> rfl

theorem exists_eval_of_ofKind_bag {expr : Expr} (hkind : OfKind expr .bag) :
    ∃ part ∈ record.bags, expr.eval refer record = .ok (.bag part.2) := by
  obtain ⟨offset, name, rfl, hname⟩ := exists_of_ofKind_bag hkind
  simp only [List.mem_cons, List.not_mem_nil, or_false] at hname
  rcases hname with hname | hname | hname <;>
    simp [Expr.eval, recordPart?, hname, Record.bags]

theorem exists_eval_of_ofKind_text {expr : Expr} (hkind : OfKind expr .text) :
    ∃ item, expr.eval refer record = .ok (itemValue item) ∧
      ∀ name ∈ item, name ∈ expr.texts ∨ record.category = some name := by
  rcases exists_of_ofKind_text hkind with ⟨offset, value, rfl⟩ | ⟨offset, name, rfl, hname⟩
  · refine ⟨some (Text.ofString value), by rw [Expr.eval]; rfl, ?_⟩
    rintro name ⟨⟩
    exact .inl ⟨offset, value, .self _, rfl⟩
  · refine ⟨record.category, ?_, fun name hname => .inr hname⟩
    simp only [List.mem_cons, List.not_mem_nil, or_false] at hname
    rcases hname with hname | hname <;> simp [Expr.eval, recordPart?, hname, itemValue]

/-! ### Questions and their answers -/

theorem eval_joined {op : BinaryOp} {connect : Bool → Bool → Bool}
    (hop : ∀ a b, (Value.bool a).combine op (.ok (.bool b)) = .ok (.bool (connect a b)))
    {rest : List Expr} {values : List Bool}
    (hrest : List.Forall₂ (fun expr value => expr.eval refer record = .ok (.bool value))
      rest values) : ∀ {first : Expr} {start : Bool},
      first.eval refer record = .ok (.bool start) →
        (joined op first rest).eval refer record = .ok (.bool (values.foldl connect start)) := by
  induction hrest with
  | nil => exact fun hfirst => hfirst
  | cons hvalue _ ih =>
      intro first start hfirst
      refine ih ?_
      rw [Expr.eval, hfirst, hvalue]
      exact hop _ _

theorem combine_and (a b : Bool) :
    (Value.bool a).combine .and (.ok (.bool b)) = .ok (.bool (a && b)) := by
  cases a <;> rfl

theorem combine_or (a b : Bool) :
    (Value.bool a).combine .or (.ok (.bool b)) = .ok (.bool (a || b)) := by
  cases a <;> rfl

theorem foldl_and (values : List Bool) (start : Bool) :
    values.foldl (· && ·) start = (start && values.all id) := by
  induction values generalizing start with
  | nil => simp
  | cons value rest ih => rw [List.foldl_cons, ih, List.all_cons, Bool.and_assoc, id]

theorem foldl_or (values : List Bool) (start : Bool) :
    values.foldl (· || ·) start = (start || values.any id) := by
  induction values generalizing start with
  | nil => simp
  | cons value rest ih => rw [List.foldl_cons, ih, List.any_cons, Bool.or_assoc, id]

theorem mapM_asItem_itemValue (items : List (Option Text)) :
    (items.map itemValue).mapM Value.asItem = .ok items := by
  induction items with
  | nil => rfl
  | cons item rest ih => rw [List.map_cons, List.mapM_cons, asItem_itemValue, ih]; rfl

theorem itemsOf_itemValue (item : Option Text) (others : List (Option Text)) :
    itemsOf ((item :: others).map itemValue) = .ok (item :: others) :=
  mapM_asItem_itemValue (item :: others)

theorem wanted_itemValue (items : List (Option Text)) :
    wanted (items.map itemValue) = (1, items.map itemValue) := by
  cases items with
  | nil => rfl
  | cons item rest => cases item <;> rfl

theorem containsAny_one (bag : Bag) (items : List (Option Text)) :
    bag.containsAny 1 items = items.any bag.holds := by
  rw [Bag.containsAny, Bool.eq_iff_iff, decide_eq_true_iff, List.any_eq_true]
  exact_mod_cast List.countP_pos_iff

section Questions

variable {target : Expr} {bag : Bag} (htarget : target.eval refer record = .ok (.bag bag))
include htarget

theorem eval_index {arg : Expr} {item : Option Text}
    (harg : arg.eval refer record = .ok (itemValue item)) (offset : Nat) :
    (Expr.index offset target arg).eval refer record = .ok (.int (bag.countOf item)) := by
  rw [Expr.eval, htarget, harg]
  cases item <;> rfl

theorem eval_atLeastOnce {arg : Expr} {item : Option Text}
    (harg : arg.eval refer record = .ok (itemValue item)) :
    (atLeastOnce target arg).eval refer record = .ok (.bool (1 ≤ bag.countOf item)) := by
  rw [atLeastOnce, Expr.eval, eval_index htarget harg, Expr.eval]
  rfl

theorem eval_questions {args : List Expr} {items : List (Option Text)}
    (hargs : List.Forall₂ (fun arg item => arg.eval refer record = .ok (itemValue item))
      args items) :
    List.Forall₂ (fun question value => question.eval refer record = .ok (.bool value))
      (args.map (atLeastOnce target)) (items.map fun item => decide (1 ≤ bag.countOf item)) := by
  rw [List.forall₂_map_left_iff, List.forall₂_map_right_iff]
  exact hargs.imp fun _ _ harg => eval_atLeastOnce htarget harg

/-- **The answer to a question is the answer to its count.** -/
theorem eval_countQuestion? {name : String} {args : List Expr} {items : List (Option Text)}
    (hargs : List.Forall₂ (fun arg item => arg.eval refer record = .ok (itemValue item))
      args items)
    (hheld : ∀ item ∈ items, bag.holds item = decide (1 ≤ bag.countOf item)) {question : Expr}
    (hquestion : countQuestion? target name args = some question) :
    question.eval refer record = bagAnswer bag name (items.map itemValue) := by
  cases hargs with
  | nil => cases hquestion
  | @cons arg item others rest harg hothers =>
      have hone := eval_atLeastOnce htarget harg
      have hmore := eval_questions htarget hothers
      obtain ⟨hitem, hrest⟩ := List.forall_mem_cons.mp hheld
      have hvalues : (rest.map fun item => decide (1 ≤ bag.countOf item)) = rest.map bag.holds :=
        List.map_congr_left fun item hmem => (hrest item hmem).symm
      rw [hvalues] at hmore
      rw [← hitem] at hone
      dsimp only [countQuestion?] at hquestion
      unfold bagAnswer
      generalize canonical name = key at hquestion ⊢
      split at hquestion
      case h_1 | h_2 =>
        cases hquestion
        rw [eval_joined combine_and hmore hone, foldl_and]
        simp only [itemsOf_itemValue, ok_bind, Bag.containsAll, List.all_cons, List.all_map]
        rfl
      case h_3 =>
        cases hquestion
        rw [eval_joined combine_or hmore hone, foldl_or]
        simp only [wanted_itemValue, itemsOf_itemValue, ok_bind, containsAny_one, List.any_cons,
          List.any_map]
        rfl
      case h_4 =>
        split at hquestion
        · next hnil =>
          cases hquestion
          obtain rfl := List.isEmpty_iff.mp hnil
          cases hothers
          rw [hone]
          simp only [List.map_cons, List.map_nil, itemOf, asItem_itemValue, ok_bind]
          rfl
        · cases hquestion
      case h_5 =>
        split at hquestion
        · next hnil =>
          cases hquestion
          obtain rfl := List.isEmpty_iff.mp hnil
          cases hothers
          rw [eval_index htarget harg]
          simp only [List.map_cons, List.map_nil, itemOf, asItem_itemValue, ok_bind]
          rfl
        · cases hquestion
      case h_6 => cases hquestion

end Questions

/-! ### Whole conditions -/

theorem kinds_eq_text {name : String} {args : List (Expr × Kind)} {kind : Kind}
    (hargs : ∀ arg ∈ args, OfKind arg.1 arg.2)
    (hmethod : MethodKind name (args.map (·.2)) kind)
    (hstart : startWithItem (args.map (·.1)) = true) : ∀ arg ∈ args, arg.2 = .text := by
  have htexts : ∀ {more : Nat}, args.map (·.2) = List.replicate more .text →
      ∀ arg ∈ args, arg.2 = .text := by
    intro more hkinds arg hmem
    exact List.eq_of_mem_replicate (hkinds ▸ List.mem_map_of_mem hmem)
  generalize hkinds : args.map (·.2) = kinds at hmethod
  cases hmethod with
  | containsAll _ more => exact htexts hkinds
  | containsAny more => exact htexts hkinds
  | containsKey | count =>
      have hone : args.map (·.2) = List.replicate 1 .text := hkinds
      exact htexts hone
  | containsSome more =>
      obtain ⟨first, rest, rfl, hint, -⟩ := List.map_eq_cons_iff.mp hkinds
      have hitem := isItem_of_ofKind_int (hint ▸ hargs first List.mem_cons_self)
      rw [startWithItem, List.map_cons, List.head?_cons, Option.any_some, hitem] at hstart
      cases hstart

/-- Items are among the names that stand in a condition, or the category. -/
theorem exists_values_of_texts {names : Set Text} {args : List Expr}
    (hargs : ∀ arg ∈ args, OfKind arg .text ∧ arg.texts ⊆ names) :
    ∃ items, List.Forall₂ (fun arg item => arg.eval refer record = .ok (itemValue item))
        args items ∧
      ∀ item ∈ items, ∀ name ∈ item, name ∈ names ∨ record.category = some name := by
  induction args with
  | nil => exact ⟨[], .nil, by simp⟩
  | cons arg rest ih =>
      obtain ⟨⟨hkind, htexts⟩, hrest⟩ := List.forall_mem_cons.mp hargs
      obtain ⟨item, heval, hitem⟩ := exists_eval_of_ofKind_text hkind
      obtain ⟨items, hitems, hnames⟩ := ih hrest
      refine ⟨item :: items, .cons heval hitems, List.forall_mem_cons.mpr ⟨?_, hnames⟩⟩
      exact fun name hname => (hitem name hname).imp_left (htexts ·)

theorem evalAll_of_items {args : List Expr} {items : List (Option Text)}
    (hargs : List.Forall₂ (fun arg item => arg.eval refer record = .ok (itemValue item))
      args items) : evalAll refer record args = .ok (items.map itemValue) := by
  induction hargs with
  | nil => rw [evalAll, List.map_nil]
  | cons hfirst _ ih => rw [evalAll, hfirst, ok_bind, ih, ok_bind, List.map_cons]; rfl

/-- With arguments, a method is what the bag answers. -/
theorem eval_method_of_items {target : Expr} {bag : Bag} {args : List Expr}
    {items : List (Option Text)} (htarget : target.eval refer record = .ok (.bag bag))
    (hargs : List.Forall₂ (fun arg item => arg.eval refer record = .ok (itemValue item))
      args items) (hne : args ≠ []) (offset : Nat) (name : String) :
    (Expr.method offset target name args).eval refer record =
      bagAnswer bag name (items.map itemValue) := by
  rw [Expr.eval, htarget, ok_bind, evalAll_of_items hargs]
  cases hargs with
  | nil => exact absurd rfl hne
  | cons _ _ => rfl

theorem evalAll_map_counted {args : List Expr}
    (hargs : ∀ arg ∈ args, arg.counted.eval refer record = arg.eval refer record) :
    evalAll refer record (args.map Expr.counted) = evalAll refer record args := by
  induction args with
  | nil => rfl
  | cons arg rest ih =>
      obtain ⟨harg, hrest⟩ := List.forall_mem_cons.mp hargs
      rw [List.map_cons, evalAll, evalAll, harg, ih hrest]

/-- The question of a method has the answer of the method. -/
theorem eval_question_of_method {target question : Expr} {bag : Bag} {name : String}
    {args : List Expr} {items : List (Option Text)}
    (htarget : target.eval refer record = .ok (.bag bag))
    (hargs : List.Forall₂ (fun arg item => arg.eval refer record = .ok (itemValue item))
      args items)
    (hsame : target.counted.eval refer record = target.eval refer record)
    (hitems : ∀ arg ∈ args, arg.counted.eval refer record = arg.eval refer record)
    (hheld : ∀ item ∈ items, bag.holds item = decide (1 ≤ bag.countOf item))
    (hquestion : countQuestion? target.counted name (countedAll args) = some question)
    (offset : Nat) :
    question.eval refer record = (Expr.method offset target name args).eval refer record := by
  have hcounted : List.Forall₂ (fun arg item => arg.eval refer record = .ok (itemValue item))
      (args.map Expr.counted) items := by
    rw [List.forall₂_map_left_iff]
    refine List.forall₂_iff_zip.mpr ⟨hargs.length_eq, fun hmem => ?_⟩
    rw [hitems _ (List.of_mem_zip hmem).1]
    exact (List.forall₂_iff_zip.mp hargs).2 hmem
  have hne : args ≠ [] := by
    rintro rfl
    cases hquestion
  rw [htarget] at hsame
  rw [countedAll_eq_map] at hquestion
  rw [eval_countQuestion? hsame hcounted hheld hquestion, eval_method_of_items htarget hargs hne]

/-- **A condition has the same value with its questions asked by counts.** The induction is on why
the condition has its kind: a question is asked of a bag, and for texts. -/
theorem eval_counted (hnames : ∀ part ∈ record.bags, part.2.names.Nodup) {expr : Expr}
    {kind : Kind} (hkind : OfKind expr kind) : record.CountsAll expr.texts →
      expr.counted.eval refer record = expr.eval refer record := by
  induction hkind with
  | literal | text | bag =>
      intro _
      rw [Expr.counted, Expr.eval, Expr.eval]
  | property _ _ ih =>
      intro hcounts
      rw [Expr.counted, Expr.eval, Expr.eval,
        ih (hcounts.mono (texts_subset_of_mem_children (by simp [Expr.children])))]
  | number _ _ ih =>
      intro hcounts
      rw [Expr.counted, Expr.eval,
        ← ih (hcounts.mono (texts_subset_of_mem_children (by simp [Expr.children]))), ← Expr.eval]
      rfl
  | @method offset target name args kind htarget hargs hmethod ih ihargs =>
      intro hcounts
      have hchild : ∀ child ∈ target :: args.map (·.1), record.CountsAll child.texts :=
        fun child hmem => hcounts.mono (texts_subset_of_mem_children hmem)
      have hsame := ih (hchild target List.mem_cons_self)
      have hitems : ∀ arg ∈ args.map (·.1),
          arg.counted.eval refer record = arg.eval refer record := by
        intro arg hmem
        obtain ⟨pair, hpair, rfl⟩ := List.mem_map.mp hmem
        exact ihargs pair hpair (hchild _ (List.mem_cons_of_mem _ hmem))
      have hplain : (Expr.method 0 target.counted name (countedAll (args.map (·.1)))).eval
          refer record = (Expr.method offset target name (args.map (·.1))).eval refer record := by
        rw [countedAll_eq_map, Expr.eval, Expr.eval, hsame, evalAll_map_counted hitems]
      rw [Expr.counted]
      split
      · next hstart =>
        cases hquestion : countQuestion? target.counted name (countedAll (args.map (·.1))) with
        | none => exact hplain
        | some question =>
            obtain ⟨part, hpart, hbag⟩ := exists_eval_of_ofKind_bag htarget
            have htexts : ∀ arg ∈ args.map (·.1), OfKind arg .text ∧
                arg.texts ⊆ (Expr.method offset target name (args.map (·.1))).texts := by
              intro arg hmem
              obtain ⟨pair, hpair, rfl⟩ := List.mem_map.mp hmem
              refine ⟨kinds_eq_text hargs hmethod hstart pair hpair ▸ hargs pair hpair, ?_⟩
              exact texts_subset_of_mem_children (List.mem_cons_of_mem _ hmem)
            obtain ⟨items, hvalues, hmentioned⟩ := exists_values_of_texts htexts
            refine eval_question_of_method hbag hvalues hsame hitems ?_ hquestion offset
            intro item hmem
            refine Bag.holds_eq_one_le_countOf (hnames part hpart) ?_
            exact fun name hname => hcounts part hpart name (hmentioned item hmem name hname)
      · exact hplain
  | index _ _ ih ihkey =>
      intro hcounts
      rw [Expr.counted, Expr.eval, Expr.eval,
        ih (hcounts.mono (texts_subset_of_mem_children (by simp [Expr.children]))),
        ihkey (hcounts.mono (texts_subset_of_mem_children (by simp [Expr.children])))]
  | reference hname =>
      intro _
      rw [Expr.counted, Expr.eval, Expr.eval, if_pos hname, if_pos hname]
      rfl
  | not _ ih =>
      intro hcounts
      rw [Expr.counted, Expr.eval, Expr.eval,
        ih (hcounts.mono (texts_subset_of_mem_children (by simp [Expr.children])))]
  | binary _ _ _ ihleft ihright =>
      intro hcounts
      rw [Expr.counted, Expr.eval, Expr.eval,
        ihleft (hcounts.mono (texts_subset_of_mem_children (by simp [Expr.children]))),
        ihright (hcounts.mono (texts_subset_of_mem_children (by simp [Expr.children])))]

end Values

end Archetype.Condition
