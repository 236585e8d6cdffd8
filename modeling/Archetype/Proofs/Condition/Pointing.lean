import Archetype.Proofs.Condition.Checking
import Archetype.Proofs.Condition.Evaluation
import Archetype.Proofs.Condition.Places

/-!
# Where the issues of a condition are

The nodes of a condition stand where its tokens do, and whatever is wrong with the condition is said
at one of its nodes. So every issue of a check is in the text of the condition.
-/

namespace Archetype.Condition

/-! ### Nodes -/

mutual

/-- Where the nodes of a condition stand, the arguments of references included. -/
def Expr.offsets : Expr → List Nat
  | .literal offset _ | .attribute offset _ => [offset]
  | .property offset target _ => offset :: target.offsets
  | .method offset target _ args => offset :: (target.offsets ++ offsetsOfAll args)
  | .index offset target key => offset :: (target.offsets ++ key.offsets)
  | .call offset _ args => offset :: offsetsOfAll args
  | .not offset operand => offset :: operand.offsets
  | .binary offset left _ right => offset :: (left.offsets ++ right.offsets)

def offsetsOfAll : List Expr → List Nat
  | [] => []
  | expr :: rest => expr.offsets ++ offsetsOfAll rest

end

theorem mem_offsetsOfAll {offset : Nat} {args : List Expr} :
    offset ∈ offsetsOfAll args ↔ ∃ arg ∈ args, offset ∈ arg.offsets := by
  induction args with
  | nil => simp [offsetsOfAll]
  | cons arg rest ih => simp [offsetsOfAll, ih]

theorem offset_mem_offsets (expr : Expr) : expr.offset ∈ expr.offsets := by
  cases expr <;> simp [Expr.offset, Expr.offsets]

theorem offsetsOfAll_subset_of_separated {args : List (List Token × Expr)} {between : List Token}
    (hbetween : Separated (args.map (·.1)) between)
    (hargs : ∀ arg ∈ args, arg.2.offsets ⊆ arg.1.map (·.offset)) :
    offsetsOfAll (args.map (·.2)) ⊆ between.map (·.offset) := by
  intro offset hmem
  obtain ⟨expr, hexpr, hoffset⟩ := mem_offsetsOfAll.mp hmem
  obtain ⟨arg, harg, rfl⟩ := List.mem_map.mp hexpr
  have hsegment := subset_of_separated hbetween arg.1 (List.mem_map_of_mem harg)
  exact List.map_subset _ hsegment (hargs arg harg hoffset)

/-- **The nodes of a condition stand where its tokens do.** -/
theorem offsets_subset_of_derives {room : Nat} {category : Category} {tokens : List Token}
    {expr : Expr} (hderives : Derives room category tokens expr) :
    expr.offsets ⊆ tokens.map (·.offset) := by
  induction hderives with
  | conjunction _ ih | negation _ ih | comparison _ _ ih | sum _ ih | operand _ ih | primary _ ih =>
      exact ih
  | or _ _ _ ihleft ihright | and _ _ _ ihleft ihright | compare _ _ _ _ ihleft ihright
  | add _ _ _ _ ihleft ihright =>
      simp only [Expr.offsets, List.map_append, List.map_cons]
      grind
  | not _ _ ih | property _ _ _ ih | paren _ _ _ ih =>
      simp only [Expr.offsets, List.map_append, List.map_cons]
      grind
  | method _ _ _ _ _ _ hbetween _ ih ihargs =>
      have hargs := offsetsOfAll_subset_of_separated hbetween ihargs
      simp only [Expr.offsets, List.map_append, List.map_cons]
      grind
  | index _ _ _ _ ih ihkey =>
      have hkey := ihkey (offset_mem_offsets _)
      simp only [Expr.offsets, List.map_append, List.map_cons]
      grind
  | number _ | text _ | value _ _ | named _ _ => simp [Expr.offsets]
  | call _ _ _ _ _ hbetween _ ihargs =>
      have hargs := offsetsOfAll_subset_of_separated hbetween ihargs
      simp only [Expr.offsets, List.map_append, List.map_cons]
      grind

/-! ### Checks -/

/-- Whatever a check raises points at one of these places. -/
def Check.PointsInto {α : Type} (places : List Nat) (check : Check α) : Prop :=
  ∀ before issue after, check.run.run before = (.error issue, after) → issue.offset ∈ places

section Steps

variable {α β : Type} {places : List Nat} {offset : Nat}

theorem pointsInto_pure (value : α) : (pure value : Check α).PointsInto places := by
  intro before issue after hrun
  cases congrArg Prod.fst hrun

theorem pointsInto_raise (hoffset : offset ∈ places) (cause : Cause) :
    (raise offset cause : Check α).PointsInto places := by
  intro before issue after hrun
  cases congrArg Prod.fst hrun
  exact hoffset

theorem pointsInto_located (hoffset : offset ∈ places) (outcome : Except Cause α) :
    (located offset outcome).PointsInto places := by
  cases outcome with
  | error cause => exact pointsInto_raise hoffset cause
  | ok value => exact pointsInto_pure value

theorem pointsInto_enter (hoffset : offset ∈ places) (level : Nat) :
    (enter level offset).PointsInto places := by
  unfold enter
  split
  · exact pointsInto_raise hoffset .tooDeep
  · intro before issue after hrun
    cases congrArg Prod.fst hrun

theorem Check.PointsInto.bind {check : Check α} {next : α → Check β}
    (hcheck : check.PointsInto places) (hnext : ∀ value, (next value).PointsInto places) :
    (check >>= next).PointsInto places := by
  intro before issue after hrun
  rw [ExceptT.run_bind, StateT.run_bind] at hrun
  cases hfirst : check.run.run before with
  | mk outcome between =>
      rw [hfirst] at hrun
      cases outcome with
      | error other =>
          cases congrArg Prod.fst hrun
          exact hcheck before issue between hfirst
      | ok value => exact hnext value between issue after hrun

theorem Check.PointsInto.mono {check : Check α} {more : List Nat}
    (hcheck : check.PointsInto places) (hmore : places ⊆ more) : check.PointsInto more :=
  fun before issue after hrun => hmore (hcheck before issue after hrun)

end Steps

variable {references : References}

theorem pointsInto_reference (offset : Nat) (name : String) (args : List Expr) :
    (reference references offset name args).PointsInto (offset :: offsetsOfAll args) := by
  have hself : offset ∈ offset :: offsetsOfAll args := List.mem_cons_self
  unfold reference
  split
  · exact pointsInto_raise hself _
  · split
    · exact pointsInto_raise hself _
    · next rule place hrule =>
      split
      · exact pointsInto_raise hself _
      · refine (pointsInto_located ?_ _).bind fun holds => pointsInto_pure _
        simp [ruleName?_eq_some hrule, offsetsOfAll, Expr.offsets]

theorem pointsInto_bagOf {places : List Nat} {offset : Nat} (hoffset : offset ∈ places)
    (name : String) (target : Meaning) : (bagOf offset name target).PointsInto places := by
  unfold bagOf
  split
  · exact pointsInto_pure _
  · exact pointsInto_raise hoffset _

theorem pointsInto_checkAll {level : Nat} {places : List Nat} : ∀ {args : List Expr},
    (∀ arg ∈ args, (check references level arg).PointsInto places) →
      (checkAll references level args).PointsInto places
  | [], _ => by
      rw [checkAll]
      exact pointsInto_pure _
  | arg :: rest, hargs => by
      rw [checkAll]
      refine (hargs arg List.mem_cons_self).bind fun first => ?_
      refine (pointsInto_checkAll fun other hmem => ?_).bind fun others => pointsInto_pure _
      exact hargs other (List.mem_cons_of_mem _ hmem)

/-- **Whatever is wrong with a condition is said at one of its nodes.** -/
theorem pointsInto_check (expr : Expr) : ∀ level,
    (check references level expr).PointsInto expr.offsets := by
  induction expr using Expr.induction with
  | literal offset value =>
      intro level
      rw [check]
      exact (pointsInto_enter (offset_mem_offsets _) _).bind fun _ => pointsInto_pure _
  | named offset name =>
      intro level
      have hself := offset_mem_offsets (.attribute offset name)
      rw [check]
      refine (pointsInto_enter hself _).bind fun _ => ?_
      split
      · exact pointsInto_pure _
      · exact pointsInto_raise hself _
  | property offset target name ih =>
      intro level
      have hself := offset_mem_offsets (.property offset target name)
      have htarget : target.offsets ⊆ (Expr.property offset target name).offsets := by
        simp [Expr.offsets]
      rw [check]
      refine (pointsInto_enter hself _).bind fun _ => ?_
      refine ((ih _).mono htarget).bind fun inner => ?_
      refine (pointsInto_bagOf hself _ _).bind fun bag => ?_
      split
      · exact pointsInto_pure _
      · exact pointsInto_raise hself _
  | method offset target name args ih ihargs =>
      intro level
      have hself := offset_mem_offsets (.method offset target name args)
      have htarget : target.offsets ⊆ (Expr.method offset target name args).offsets := by
        simp [Expr.offsets]
      have hargs : ∀ arg ∈ args, arg.offsets ⊆ (Expr.method offset target name args).offsets := by
        intro arg hmem place hplace
        have hplaces := mem_offsetsOfAll.mpr ⟨arg, hmem, hplace⟩
        simp [Expr.offsets, hplaces]
      rw [check]
      refine (pointsInto_enter hself _).bind fun _ => ?_
      refine ((ih _).mono htarget).bind fun inner => ?_
      refine (pointsInto_bagOf hself _ _).bind fun bag => ?_
      split
      · exact pointsInto_pure _
      · refine (pointsInto_checkAll fun arg hmem => ?_).bind fun found => ?_
        · exact (ihargs arg hmem _).mono (hargs arg hmem)
        · exact pointsInto_located hself _
  | index offset target key ih ihkey =>
      intro level
      have hself := offset_mem_offsets (.index offset target key)
      have htarget : target.offsets ⊆ (Expr.index offset target key).offsets := by
        simp [Expr.offsets]
      have hkey : key.offsets ⊆ (Expr.index offset target key).offsets := by
        simp [Expr.offsets]
      rw [check]
      refine (pointsInto_enter hself _).bind fun _ => ?_
      refine ((ih _).mono htarget).bind fun inner => ?_
      split
      · exact pointsInto_raise hself _
      · exact ((ihkey _).mono hkey).bind fun item => pointsInto_located hself _
  | call offset name args =>
      intro level
      rw [check]
      refine (pointsInto_enter (offset_mem_offsets (.call offset name args)) _).bind fun _ => ?_
      exact pointsInto_reference offset name args
  | not offset operand ih =>
      intro level
      have hself := offset_mem_offsets (.not offset operand)
      have hoperand : operand.offsets ⊆ (Expr.not offset operand).offsets := by
        simp [Expr.offsets]
      rw [check]
      refine (pointsInto_enter hself _).bind fun _ => ?_
      exact ((ih _).mono hoperand).bind fun inner => pointsInto_located hself _
  | binary offset left op right ihleft ihright =>
      intro level
      have hself := offset_mem_offsets (.binary offset left op right)
      have hleft : left.offsets ⊆ (Expr.binary offset left op right).offsets := by
        simp [Expr.offsets]
      have hright : right.offsets ⊆ (Expr.binary offset left op right).offsets := by
        simp [Expr.offsets]
      rw [check]
      refine (pointsInto_enter hself _).bind fun _ => ?_
      refine ((ihleft _).mono hleft).bind fun a => ?_
      refine ((ihright _).mono hright).bind fun b => ?_
      split
      · exact pointsInto_pure _
      · exact pointsInto_raise hself _

theorem pointsInto_checkWhole (expr : Expr) :
    (checkWhole references expr).PointsInto expr.offsets := by
  unfold checkWhole
  refine (pointsInto_check expr 1).bind fun meaning => ?_
  split
  · exact pointsInto_pure _
  · exact pointsInto_raise (offset_mem_offsets expr) _

/-- **Every issue of a condition that can be read is in its text.** -/
theorem offset_lt_of_compile_error {text : String} {expr : Expr}
    (hparse : Expr.parse text = .ok expr) {issue : Issue} {deepest : Nat}
    (hcompile : expr.compile references = (.error issue, deepest)) :
    issue.offset < text.length := by
  have hnode := pointsInto_checkWhole expr 0 issue deepest hcompile
  cases htokenize : tokenize text.toList with
  | error other =>
      rw [parse_of_tokenize_error htokenize] at hparse
      cases hparse
  | ok tokens =>
      rw [parse_of_tokenize htokenize] at hparse
      have hplaces := offsets_subset_of_derives (derives_of_ofTokens hparse)
      obtain ⟨token, hmem, hoffset⟩ := List.mem_map.mp (hplaces hnode)
      have htokens := (offset_of_scan text.toList 0 0).1 tokens htokenize token hmem
      rwa [Nat.zero_add, String.length_toList, hoffset] at htokens

end Archetype.Condition
