import Archetype.Proofs.Condition.Checking
import Archetype.Proofs.Condition.Evaluation
import Archetype.Proofs.Condition.Typing

/-!
# Conditions that pass the check

A check depends on three things. A condition passes it exactly if it is of a kind, has room for its
levels and has all its references found; the deepest level that the check has then entered is the
last one of the condition. What a condition must be on its own can therefore be told apart from what
its references must be, and the checker itself decides it.
-/

namespace Archetype.Condition

/-! ### Levels and references -/

mutual

/-- The number of levels of a condition. The argument of a reference is on none of them. -/
def Expr.levels : Expr → Nat
  | .literal _ _ | .attribute _ _ | .call _ _ _ => 1
  | .property _ target _ => target.levels + 1
  | .method _ target _ args => max target.levels (levelsOfAll args) + 1
  | .index _ target key => max target.levels key.levels + 1
  | .not _ operand => operand.levels + 1
  | .binary _ left _ right => max left.levels right.levels + 1

def levelsOfAll : List Expr → Nat
  | [] => 0
  | expr :: rest => max expr.levels (levelsOfAll rest)

end

theorem levels_pos (expr : Expr) : 0 < expr.levels := by
  cases expr <;> simp [Expr.levels]

theorem levels_le_levelsOfAll {arg : Expr} : ∀ {args : List Expr}, arg ∈ args →
    arg.levels ≤ levelsOfAll args
  | first :: rest, hmem => by
      rw [levelsOfAll]
      rcases List.mem_cons.mp hmem with rfl | hmem
      · omega
      · have hrest := levels_le_levelsOfAll hmem
        omega

theorem levelsOfAll_le {bound : Nat} : ∀ {args : List Expr},
    (∀ arg ∈ args, arg.levels ≤ bound) → levelsOfAll args ≤ bound
  | [], _ => Nat.zero_le _
  | first :: rest, hargs => by
      rw [levelsOfAll]
      have hfirst := hargs first List.mem_cons_self
      have hrest := levelsOfAll_le fun arg hmem => hargs arg (List.mem_cons_of_mem _ hmem)
      omega

theorem mem_referencesOfAll {name : String} {args : List Expr} :
    name ∈ referencesOfAll args ↔ ∃ arg ∈ args, name ∈ arg.references := by
  induction args with
  | nil => simp [referencesOfAll]
  | cons arg rest ih => simp [referencesOfAll, ih]

theorem levels_lt_of_mem_children {expr child : Expr} (hchild : child ∈ expr.children) :
    child.levels < expr.levels := by
  cases expr with
  | literal | «attribute» | call => cases hchild
  | property | not =>
      rw [List.mem_singleton.mp hchild, Expr.levels]
      omega
  | method offset target name args =>
      rw [Expr.levels]
      rcases List.mem_cons.mp hchild with rfl | hmem
      · omega
      · have harg := levels_le_levelsOfAll hmem
        omega
  | index | binary =>
      rw [Expr.levels]
      rcases List.mem_pair.mp hchild with rfl | rfl <;> omega

theorem references_subset_of_mem_children {expr child : Expr} (hchild : child ∈ expr.children) :
    child.references ⊆ expr.references := by
  intro name hname
  cases expr with
  | literal | «attribute» | call => cases hchild
  | property | not =>
      rw [List.mem_singleton.mp hchild] at hname
      exact hname
  | method offset target callee args =>
      rw [Expr.references, List.mem_append, mem_referencesOfAll]
      rcases List.mem_cons.mp hchild with rfl | hmem
      · exact .inl hname
      · exact .inr ⟨child, hmem, hname⟩
  | index | binary =>
      rw [Expr.references, List.mem_append]
      rcases List.mem_pair.mp hchild with rfl | rfl
      · exact .inl hname
      · exact .inr hname

/-! ### Checks that go through -/

/-- A check that succeeds with this result, having entered this level at the deepest. -/
def Check.Reaches {α : Type} (check : Check α) (result : α) (level : Nat) : Prop :=
  ∀ before, check.run.run before = (.ok result, max before level)

section Steps

variable {α β : Type}

theorem reaches_pure (value : α) : (pure value : Check α).Reaches value 0 := by
  intro before
  rw [Nat.max_zero]
  rfl

theorem reaches_enter {level : Nat} (hlevel : level ≤ maxDepth) (offset : Nat) :
    (enter level offset).Reaches () level := by
  intro before
  rw [enter, if_neg (Nat.not_lt.mpr hlevel), Nat.max_comm]
  rfl

theorem Check.Reaches.bind {check : Check α} {next : α → Check β} {middle : α} {result : β}
    {first second : Nat} (hcheck : check.Reaches middle first)
    (hnext : (next middle).Reaches result second) :
    (check >>= next).Reaches result (max first second) := by
  intro before
  rw [ExceptT.run_bind, StateT.run_bind, hcheck before, ← Nat.max_assoc]
  exact hnext (max before first)

/-- A step that enters no level, before others. -/
theorem Check.Reaches.before {check : Check α} {next : α → Check β} {middle : α} {result : β}
    {level : Nat} (hcheck : check.Reaches middle 0) (hnext : (next middle).Reaches result level) :
    (check >>= next).Reaches result level := by
  have hboth := hcheck.bind hnext
  rwa [Nat.zero_max] at hboth

/-- A last step that enters no level. -/
theorem Check.Reaches.last {check : Check α} {next : α → Check β} {middle : α} {result : β}
    {level : Nat} (hcheck : check.Reaches middle level) (hnext : (next middle).Reaches result 0) :
    (check >>= next).Reaches result level := by
  have hboth := hcheck.bind hnext
  rwa [Nat.max_zero] at hboth

theorem reaches_located {outcome : Except Cause α} {result : α} (hok : outcome = .ok result)
    (offset : Nat) : (located offset outcome).Reaches result 0 := by
  rw [hok]
  exact reaches_pure result

end Steps

/-- A name refers to a rule. -/
def References.Finds (references : References) (name : String) : Prop :=
  ∃ resolve holds, references = some resolve ∧ resolve name = .ok holds

/-- A condition is of a kind, has room for its levels, and all its references are found. -/
structure Fits (references : References) (level : Nat) (expr : Expr) (kind : Kind) : Prop where
  kind : OfKind expr kind
  levels : level + expr.levels ≤ maxDepth + 1
  finds : ∀ name ∈ expr.references, references.Finds name

section Checks

variable {references : References}

theorem forall_mem_of_forall₂ {level : Nat} {args : List Expr} {found : List Meaning}
    (hfits : List.Forall₂ (fun arg meaning => Fits references level arg meaning.kind) args found) :
    ∀ arg ∈ args, ∃ kind, Fits references level arg kind := by
  induction hfits with
  | nil => simp
  | cons hfirst _ ih => exact List.forall_mem_cons.mpr ⟨⟨_, hfirst⟩, ih⟩

theorem level_le_of_gives {level : Nat} {expr : Expr} {meaning : Meaning}
    (hgives : (check references level expr).Gives meaning) : level ≤ maxDepth := by
  have henter : ∃ offset, (enter level offset).Gives () := by
    cases expr <;>
      · rw [check] at hgives
        obtain ⟨_, henter, _⟩ := gives_bind hgives
        exact ⟨_, henter⟩
  obtain ⟨offset, henter⟩ := henter
  unfold enter at henter
  split at henter
  · exact absurd henter not_gives_raise
  · omega

theorem fits_of_forall₂ {level : Nat} {args : List Expr} {found : List Meaning}
    (hfits : ∀ arg ∈ args, ∀ {level : Nat} {meaning : Meaning},
      (check references level arg).Gives meaning → Fits references level arg meaning.kind)
    (hgives : List.Forall₂ (fun arg meaning => (check references level arg).Gives meaning)
      args found) :
    List.Forall₂ (fun arg meaning => Fits references level arg meaning.kind) args found := by
  induction hgives with
  | nil => exact .nil
  | cons hfirst _ ih =>
      refine .cons (hfits _ List.mem_cons_self hfirst) ?_
      exact ih fun arg hmem => hfits arg (List.mem_cons_of_mem _ hmem)

/-- **What passes the check fits.** -/
theorem fits_of_check (expr : Expr) : ∀ {level : Nat} {meaning : Meaning},
    (check references level expr).Gives meaning → Fits references level expr meaning.kind := by
  induction expr using Expr.induction with
  | literal offset value =>
      intro level meaning hgives
      have hlevel := level_le_of_gives hgives
      rw [gives_literal hgives, kind_ofLiteral]
      exact ⟨.literal, by simp only [Expr.levels]; omega, by simp [Expr.references]⟩
  | named offset name =>
      intro level meaning hgives
      have hlevel := level_le_of_gives hgives
      exact ⟨ofKind_of_attribute? (gives_attribute hgives), by simp only [Expr.levels]; omega,
        by simp [Expr.references]⟩
  | property offset target name ih =>
      intro level meaning hgives
      obtain ⟨inner, bag, hinner, hbag, hproperty⟩ := gives_property hgives
      obtain ⟨hname, hkind⟩ := property?_eq_some hproperty
      obtain ⟨htarget, hlevels, hfinds⟩ := ih hinner
      rw [bag?_eq_some hbag] at htarget
      rw [hkind]
      exact ⟨.property htarget hname, by simp only [Expr.levels]; omega, hfinds⟩
  | method offset target name args ih ihargs =>
      intro level meaning hgives
      obtain ⟨inner, bag, hinner, hbag, hmethod⟩ := gives_method hgives
      obtain ⟨htarget, hlevels, hfinds⟩ := ih hinner
      rw [bag?_eq_some hbag] at htarget
      rcases hmethod with ⟨rfl, hproperty⟩ | ⟨found, hfound, -, hanswer⟩
      · obtain ⟨hname, hkind⟩ := property?_eq_some hproperty
        rw [hkind]
        refine ⟨.number htarget hname, ?_, ?_⟩
        · simp only [Expr.levels, levelsOfAll]
          omega
        · simpa [Expr.references, referencesOfAll] using hfinds
      · have hargs := fits_of_forall₂ ihargs (gives_checkAll hfound)
        have hkinds : List.Forall₂ OfKind args (found.map (·.kind)) :=
          List.forall₂_map_right_iff.mpr (hargs.imp fun _ _ hfits => hfits.kind)
        have hall := forall_mem_of_forall₂ hargs
        refine ⟨ofKind_method htarget hkinds (methodKind_of_method hanswer), ?_, ?_⟩
        · have hmost : levelsOfAll args ≤ maxDepth - level :=
            levelsOfAll_le fun arg hmem => by
              obtain ⟨kind, hfits⟩ := hall arg hmem
              have := hfits.levels
              omega
          have hlevel := level_le_of_gives hgives
          simp only [Expr.levels]
          omega
        · intro name hmem
          rcases List.mem_append.mp hmem with hmem | hmem
          · exact hfinds name hmem
          · obtain ⟨arg, harg, hname⟩ := mem_referencesOfAll.mp hmem
            obtain ⟨kind, hfits⟩ := hall arg harg
            exact hfits.finds name hname
  | index offset target key ih ihkey =>
      intro level meaning hgives
      obtain ⟨inner, item, hinner, hitem, hindex⟩ := gives_index hgives
      obtain ⟨hbag, htext, hkind⟩ := index_eq_ok hindex
      obtain ⟨htarget, htargetLevels, htargetFinds⟩ := ih hinner
      obtain ⟨hkey, hkeyLevels, hkeyFinds⟩ := ihkey hitem
      rw [hbag] at htarget
      rw [htext] at hkey
      rw [hkind]
      refine ⟨.index htarget hkey, by simp only [Expr.levels]; omega, ?_⟩
      intro name hmem
      exact (List.mem_append.mp hmem).elim (htargetFinds name) (hkeyFinds name)
  | call offset name args =>
      intro level meaning hgives
      have hlevel := level_le_of_gives hgives
      obtain ⟨resolve, rule, place, holds, hsome, hname, hrule, hholds, rfl⟩ := gives_call hgives
      obtain rfl := ruleName?_eq_some hrule
      refine ⟨.reference hname, by simp only [Expr.levels]; omega, ?_⟩
      intro other hmem
      simp only [Expr.references, ruleName?, Option.map_some, Option.toList_some,
        List.mem_singleton] at hmem
      exact ⟨resolve, holds, hsome, by rw [hmem, hholds]⟩
  | not offset operand ih =>
      intro level meaning hgives
      obtain ⟨inner, hinner, hnot⟩ := gives_not hgives
      obtain ⟨hbool, hkind⟩ := not_eq_ok hnot
      obtain ⟨hoperand, hlevels, hfinds⟩ := ih hinner
      rw [hbool] at hoperand
      rw [hkind]
      exact ⟨.not hoperand, by simp only [Expr.levels]; omega, hfinds⟩
  | binary offset left op right ihleft ihright =>
      intro level meaning hgives
      obtain ⟨a, b, ha, hb, hbinary⟩ := gives_binary hgives
      obtain ⟨hleft, hleftLevels, hleftFinds⟩ := ihleft ha
      obtain ⟨hright, hrightLevels, hrightFinds⟩ := ihright hb
      refine ⟨.binary hleft hright (binaryKind_of_binary? hbinary),
        by simp only [Expr.levels]; omega, ?_⟩
      intro name hmem
      exact (List.mem_append.mp hmem).elim (hleftFinds name) (hrightFinds name)

theorem reaches_bagOf {target : Meaning} {bag : Record → Bag} (hbag : target.bag? = some bag)
    (offset : Nat) (name : String) : (bagOf offset name target).Reaches bag 0 := by
  unfold bagOf
  rw [hbag]
  exact reaches_pure bag

/-- Arguments reach from the level above them down to their own deepest one. -/
theorem exists_reaches_checkAll {level : Nat} : ∀ {args : List (Expr × Kind)},
    (∀ arg ∈ args, ∃ meaning : Meaning, meaning.kind = arg.2 ∧
      (check references (level + 1) arg.1).Reaches meaning (level + arg.1.levels)) →
    ∃ found deepest, found.map (·.kind) = args.map (·.2) ∧
      (checkAll references (level + 1) (args.map (·.1))).Reaches found deepest ∧
      max level deepest = level + levelsOfAll (args.map (·.1))
  | [], _ => ⟨[], 0, rfl, reaches_pure [], by simp [levelsOfAll]⟩
  | arg :: rest, hargs => by
      obtain ⟨⟨first, hkind, hfirst⟩, hrest⟩ := List.forall_mem_cons.mp hargs
      obtain ⟨others, deepest, hkinds, hothers, hdeepest⟩ := exists_reaches_checkAll hrest
      refine ⟨first :: others, max (level + arg.1.levels) deepest, ?_, ?_, ?_⟩
      · rw [List.map_cons, List.map_cons, hkind, hkinds]
      · rw [List.map_cons, checkAll]
        exact hfirst.bind (hothers.last (reaches_pure _))
      · rw [List.map_cons, levelsOfAll]
        omega

theorem reaches_enter_bind {expr : Expr} {level deepest : Nat} {rest : Check Meaning}
    {meaning : Meaning} (hlevels : level + expr.levels ≤ maxDepth) (offset : Nat)
    (hrest : rest.Reaches meaning deepest)
    (hdeepest : max (level + 1) deepest = level + expr.levels) :
    (enter (level + 1) offset >>= fun _ => rest).Reaches meaning (level + expr.levels) := by
  have hpos := levels_pos expr
  rw [← hdeepest]
  exact (reaches_enter (by omega) offset).bind hrest

/-- **What fits passes the check**, and the deepest level is that of its last part. -/
theorem exists_reaches_of_ofKind {expr : Expr} {kind : Kind} (hkind : OfKind expr kind) :
    ∀ level : Nat, level + expr.levels ≤ maxDepth →
      (∀ name ∈ expr.references, references.Finds name) →
      ∃ meaning : Meaning, meaning.kind = kind ∧
        (check references (level + 1) expr).Reaches meaning (level + expr.levels) := by
  induction hkind with
  | @literal offset value =>
      intro level hlevels _
      refine ⟨.ofLiteral value, kind_ofLiteral value, ?_⟩
      rw [check]
      exact reaches_enter_bind hlevels offset (reaches_pure _) (by simp [Expr.levels])
  | @text offset name hname =>
      intro level hlevels _
      obtain ⟨meaning, hmeaning, hkind⟩ := exists_attribute?_text hname
      refine ⟨meaning, hkind, ?_⟩
      rw [check, hmeaning]
      exact reaches_enter_bind hlevels offset (reaches_pure _) (by simp [Expr.levels])
  | @bag offset name hname =>
      intro level hlevels _
      obtain ⟨meaning, hmeaning, hkind⟩ := exists_attribute?_bag hname
      refine ⟨meaning, hkind, ?_⟩
      rw [check, hmeaning]
      exact reaches_enter_bind hlevels offset (reaches_pure _) (by simp [Expr.levels])
  | @property offset target name _ hname ih =>
      intro level hlevels hfinds
      have hbelow : level + 1 + target.levels ≤ maxDepth := by
        rw [Expr.levels] at hlevels
        omega
      obtain ⟨inner, hkind, hinner⟩ := ih (level + 1) hbelow hfinds
      obtain ⟨bag, hbag⟩ := exists_bag? hkind
      obtain ⟨meaning, hmeaning, hkind⟩ := exists_property? bag hname
      refine ⟨meaning, hkind, ?_⟩
      rw [check]
      refine reaches_enter_bind hlevels offset
        (hinner.last ((reaches_bagOf hbag offset name).before ?_)) ?_
      · simp only [hmeaning]
        exact reaches_pure meaning
      · rw [Expr.levels]
        omega
  | @number offset target name _ hname ih =>
      intro level hlevels hfinds
      simp only [Expr.levels, levelsOfAll] at hlevels
      rw [Expr.references, referencesOfAll, List.append_nil] at hfinds
      obtain ⟨inner, hkind, hinner⟩ := ih (level + 1) (by omega) hfinds
      obtain ⟨bag, hbag⟩ := exists_bag? hkind
      obtain ⟨meaning, hmeaning, hkind⟩ := exists_property? bag hname
      refine ⟨meaning, hkind, ?_⟩
      rw [check]
      refine reaches_enter_bind hlevels offset
        (hinner.last ((reaches_bagOf hbag offset name).before ?_)) ?_
      · simp only [hmeaning]
        exact reaches_pure meaning
      · simp only [Expr.levels, levelsOfAll]
        omega
  | @method offset target name args kind _ _ hmethod ih ihargs =>
      intro level hlevels hfinds
      simp only [Expr.levels] at hlevels
      rw [Expr.references, List.forall_mem_append] at hfinds
      obtain ⟨inner, hkind, hinner⟩ := ih (level + 1) (by omega) hfinds.1
      obtain ⟨bag, hbag⟩ := exists_bag? hkind
      have hargs : ∀ arg ∈ args, ∃ meaning : Meaning, meaning.kind = arg.2 ∧
          (check references (level + 1 + 1) arg.1).Reaches meaning (level + 1 + arg.1.levels) := by
        intro arg hmem
        have hexpr : arg.1 ∈ args.map (·.1) := List.mem_map_of_mem hmem
        have harg := levels_le_levelsOfAll hexpr
        refine ihargs arg hmem (level + 1) (by omega) ?_
        intro other hother
        exact hfinds.2 other (mem_referencesOfAll.mpr ⟨arg.1, hexpr, hother⟩)
      obtain ⟨found, deepest, hkinds, hfound, hdeepest⟩ := exists_reaches_checkAll hargs
      rw [← hkinds] at hmethod
      obtain ⟨meaning, hmeaning, hkind⟩ := exists_method bag hmethod
      refine ⟨meaning, hkind, ?_⟩
      rw [check]
      refine reaches_enter_bind hlevels offset (hinner.bind
        ((reaches_bagOf hbag offset name).before (?_ : Check.Reaches _ meaning deepest))) ?_
      · cases args with
        | nil => exact absurd hkinds (args_ne_nil_of_methodKind hmethod)
        | cons arg rest => exact hfound.last (reaches_located hmeaning offset)
      · simp only [Expr.levels]
        omega
  | @index offset target key _ _ ih ihkey =>
      intro level hlevels hfinds
      rw [Expr.levels] at hlevels
      rw [Expr.references, List.forall_mem_append] at hfinds
      obtain ⟨inner, hbag, hinner⟩ := ih (level + 1) (by omega) hfinds.1
      obtain ⟨item, htext, hitem⟩ := ihkey (level + 1) (by omega) hfinds.2
      obtain ⟨meaning, hmeaning, hkind⟩ := exists_index hbag htext
      obtain ⟨bag, hbag⟩ := exists_bag? hbag
      refine ⟨meaning, hkind, ?_⟩
      rw [check]
      refine reaches_enter_bind hlevels offset
        (hinner.bind (?_ : Check.Reaches _ meaning (level + 1 + key.levels))) ?_
      · simp only [hbag]
        exact hitem.last (reaches_located hmeaning offset)
      · rw [Expr.levels]
        omega
  | @reference offset place name rule hname =>
      intro level hlevels hfinds
      obtain ⟨resolve, holds, rfl, hholds⟩ := hfinds rule (by simp [Expr.references, ruleName?])
      refine ⟨⟨.bool, holds⟩, rfl, ?_⟩
      have hreference : (reference (some resolve) offset name
          [.literal place (.text rule)]).Reaches ⟨.bool, holds⟩ 0 := by
        unfold reference
        rw [hname]
        exact (reaches_located hholds place).last (reaches_pure _)
      rw [check]
      exact reaches_enter_bind hlevels offset hreference (by simp [Expr.levels])
  | @not offset operand _ ih =>
      intro level hlevels hfinds
      have hbelow : level + 1 + operand.levels ≤ maxDepth := by
        rw [Expr.levels] at hlevels
        omega
      obtain ⟨inner, hbool, hinner⟩ := ih (level + 1) hbelow hfinds
      obtain ⟨meaning, hmeaning, hkind⟩ := exists_not hbool
      refine ⟨meaning, hkind, ?_⟩
      rw [check]
      refine reaches_enter_bind hlevels offset (hinner.last (reaches_located hmeaning offset)) ?_
      rw [Expr.levels]
      omega
  | @binary offset left right op a b kind _ _ hop ihleft ihright =>
      intro level hlevels hfinds
      rw [Expr.levels] at hlevels
      rw [Expr.references, List.forall_mem_append] at hfinds
      obtain ⟨first, rfl, hfirst⟩ := ihleft (level + 1) (by omega) hfinds.1
      obtain ⟨second, rfl, hsecond⟩ := ihright (level + 1) (by omega) hfinds.2
      obtain ⟨meaning, hmeaning, hkind⟩ := exists_binary? hop
      refine ⟨meaning, hkind, ?_⟩
      rw [check]
      refine reaches_enter_bind hlevels offset (hfirst.bind (hsecond.last ?_)) ?_
      · simp only [hmeaning]
        exact reaches_pure meaning
      · rw [Expr.levels]
        omega

theorem fits_of_compile {expr : Expr} {holds : Predicate} {deepest : Nat}
    (hcompile : expr.compile references = (.ok holds, deepest)) :
    Fits references 1 expr .bool :=
  fits_of_check expr (gives_of_compile hcompile)

/-- **A condition that fits as a truth value is compiled**, and the depth that the compiler sees is
the number of its levels. -/
theorem exists_compile_of_fits {expr : Expr} (hfits : Fits references 1 expr .bool) :
    ∃ holds, expr.compile references = (.ok holds, expr.levels) := by
  have hlevels := hfits.levels
  obtain ⟨⟨kind, holds⟩, hkind, hreaches⟩ :=
    exists_reaches_of_ofKind hfits.kind 0 (by omega) hfits.finds
  cases hkind
  have hwhole : (checkWhole references expr).Reaches holds (0 + expr.levels) :=
    hreaches.last (reaches_pure holds)
  refine ⟨holds, ?_⟩
  rw [Expr.compile, hwhole 0, Nat.zero_max, Nat.zero_add]

theorem deepest_of_compile {expr : Expr} {holds : Predicate} {deepest : Nat}
    (hcompile : expr.compile references = (.ok holds, deepest)) : deepest = expr.levels := by
  obtain ⟨other, hother⟩ := exists_compile_of_fits (fits_of_compile hcompile)
  rw [hcompile] at hother
  exact congrArg Prod.snd hother

/-- **A check succeeds with a kind exactly if the rules give the condition that kind**, it has no
more levels than it may have, and its references are found. The deepest level entered is then its
number of levels. -/
theorem check_eq_ok_iff_ofKind (references : References) (expr : Expr) :
    (∀ kind, (∃ meaning deepest, (check references 1 expr).run.run 0 = (.ok meaning, deepest) ∧
        meaning.kind = kind) ↔
      OfKind expr kind ∧ expr.levels ≤ maxDepth ∧
        ∀ name ∈ expr.references, references.Finds name) ∧
    ∀ meaning deepest, (check references 1 expr).run.run 0 = (.ok meaning, deepest) →
      deepest = expr.levels := by
  have hreaches : ∀ {kind : Kind}, OfKind expr kind → expr.levels ≤ maxDepth →
      (∀ name ∈ expr.references, references.Finds name) →
        ∃ meaning : Meaning, meaning.kind = kind ∧
          (check references 1 expr).run.run 0 = (.ok meaning, expr.levels) := by
    intro kind hkind hlevels hfinds
    obtain ⟨meaning, hmeaning, hcheck⟩ :=
      exists_reaches_of_ofKind hkind 0 (by rwa [Nat.zero_add]) hfinds
    refine ⟨meaning, hmeaning, ?_⟩
    rw [hcheck 0, Nat.zero_add, Nat.zero_max]
  have hfits : ∀ {meaning : Meaning} {deepest : Nat},
      (check references 1 expr).run.run 0 = (.ok meaning, deepest) →
        Fits references 1 expr meaning.kind :=
    fun hrun => fits_of_check expr ⟨0, _, hrun⟩
  refine ⟨fun kind => ⟨?_, ?_⟩, ?_⟩
  · rintro ⟨meaning, deepest, hrun, rfl⟩
    obtain ⟨hkind, hlevels, hfinds⟩ := hfits hrun
    exact ⟨hkind, by omega, hfinds⟩
  · rintro ⟨hkind, hlevels, hfinds⟩
    obtain ⟨meaning, hmeaning, hrun⟩ := hreaches hkind hlevels hfinds
    exact ⟨meaning, expr.levels, hrun, hmeaning⟩
  · intro meaning deepest hrun
    obtain ⟨hkind, hlevels, hfinds⟩ := hfits hrun
    obtain ⟨other, -, hother⟩ := hreaches hkind (by omega) hfinds
    rw [hrun] at hother
    exact congrArg Prod.snd hother

end Checks

/-! ### Admissible conditions -/

/-- What a condition must be on its own, whatever its references refer to: a truth value with no
more levels than a condition may have. -/
def Expr.Admissible (expr : Expr) : Prop :=
  OfKind expr .bool ∧ expr.levels ≤ maxDepth

theorem fits_iff {resolve : String → Except Cause Predicate} {expr : Expr} :
    Fits (some resolve) 1 expr .bool ↔
      expr.Admissible ∧ ∀ name ∈ expr.references, ∃ holds, resolve name = .ok holds := by
  constructor
  · intro hfits
    have hlevels := hfits.levels
    refine ⟨⟨hfits.kind, by omega⟩, ?_⟩
    intro name hmem
    obtain ⟨other, holds, hsome, hholds⟩ := hfits.finds name hmem
    cases hsome
    exact ⟨holds, hholds⟩
  · rintro ⟨⟨hkind, hlevels⟩, hfinds⟩
    refine ⟨hkind, by omega, ?_⟩
    intro name hmem
    obtain ⟨holds, hholds⟩ := hfinds name hmem
    exact ⟨resolve, holds, rfl, hholds⟩

theorem isOk_compile_iff_admissible {expr : Expr} :
    (expr.compile (some fun _ => .ok fun _ => true)).1.isOk = true ↔ expr.Admissible := by
  have hfits : Fits (some fun _ => .ok fun _ => true) 1 expr .bool ↔ expr.Admissible := by
    simp [fits_iff]
  rw [← hfits]
  constructor
  · intro hok
    cases hrun : expr.compile (some fun _ => .ok fun _ => true) with
    | mk outcome deepest =>
        cases outcome with
        | error issue =>
            rw [hrun] at hok
            cases hok
        | ok holds => exact fits_of_compile hrun
  · intro hexpr
    obtain ⟨holds, hcompile⟩ := exists_compile_of_fits hexpr
    rw [hcompile]
    rfl

/-- The checker decides it when every name refers to a rule. -/
instance (expr : Expr) : Decidable expr.Admissible :=
  decidable_of_iff _ isOk_compile_iff_admissible

end Archetype.Condition
