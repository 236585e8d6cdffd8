import Mathlib.Data.List.Basic
import Archetype.Proofs.Condition.Printing

/-!
# What a derivation needs

A derivation may leave levels unused. It never needs fewer than the condition nests at its place,
and it never has fewer tokens than the printed condition, whatever parentheses it has. So the
parentheses of a printed condition are those that it cannot do without.
-/

namespace Archetype.Condition

theorem exists_eq_succ_of_succ_le {room more : Nat} (hle : room + 1 ≤ more) :
    ∃ fewer, more = fewer + 1 ∧ room ≤ fewer :=
  ⟨more - 1, by omega, by omega⟩

theorem Derives.mono {room : Nat} {category : Category} {tokens : List Token} {expr : Expr}
    (hderives : Derives room category tokens expr) :
    ∀ more, room ≤ more → Derives more category tokens expr := by
  induction hderives with
  | conjunction _ ih => exact fun more hle => .conjunction (ih more hle)
  | negation _ ih => exact fun more hle => .negation (ih more hle)
  | comparison _ hstart ih => exact fun more hle => .comparison (ih more hle) hstart
  | sum _ ih => exact fun more hle => .sum (ih more hle)
  | operand _ ih => exact fun more hle => .operand (ih more hle)
  | primary _ ih => exact fun more hle => .primary (ih more hle)
  | or _ hsign _ ihleft ihright =>
      exact fun more hle => .or (ihleft more hle) hsign (ihright more hle)
  | and _ hsign _ ihleft ihright =>
      exact fun more hle => .and (ihleft more hle) hsign (ihright more hle)
  | compare _ hop hsign _ ihleft ihright =>
      exact fun more hle => .compare (ihleft more hle) hop hsign (ihright more hle)
  | add _ hop hsign _ ihleft ihright =>
      exact fun more hle => .add (ihleft more hle) hop hsign (ihright more hle)
  | property _ hdot hword ih => exact fun more hle => .property (ih more hle) hdot hword
  | number hnumber => exact fun more _ => .number hnumber
  | text htext => exact fun more _ => .text htext
  | value hword hvalue => exact fun more _ => .value hword hvalue
  | named hword hfree => exact fun more _ => .named hword hfree
  | not hsign _ ih =>
      intro more hle
      obtain ⟨more, rfl, hroom⟩ := exists_eq_succ_of_succ_le hle
      exact .not hsign (ih more hroom)
  | index _ hopening _ hclosing ih ihkey =>
      intro more hle
      obtain ⟨more, rfl, hroom⟩ := exists_eq_succ_of_succ_le hle
      exact .index (ih _ hle) hopening (ihkey more hroom) hclosing
  | paren hopening _ hclosing ih =>
      intro more hle
      obtain ⟨more, rfl, hroom⟩ := exists_eq_succ_of_succ_le hle
      exact .paren hopening (ih more hroom) hclosing
  | method _ hdot hword hopening hargs hinner hbetween hclosing ih ihargs =>
      intro more hle
      rcases hinner with rfl | rfl
      · exact .method (ih more hle) hdot hword hopening hargs (.inl rfl) hbetween hclosing
      · obtain ⟨more, rfl, hroom⟩ := exists_eq_succ_of_succ_le hle
        exact .method (ih _ hle) hdot hword hopening
          (fun arg hmem => ihargs arg hmem more hroom) (.inr rfl) hbetween hclosing
  | call hword hfree hopening hargs hinner hbetween hclosing ihargs =>
      intro more hle
      rcases hinner with rfl | rfl
      · exact .call hword hfree hopening hargs (.inl rfl) hbetween hclosing
      · obtain ⟨more, rfl, hroom⟩ := exists_eq_succ_of_succ_le hle
        exact .call hword hfree hopening (fun arg hmem => ihargs arg hmem more hroom) (.inr rfl)
          hbetween hclosing

theorem places_of_comparison {op : BinaryOp} (hop : op ∈ [BinaryOp.eq, .ne, .lt, .le, .gt, .ge]) :
    op.category = .comparison ∧ op.before = .sum ∧ op.behind = .sum := by
  cases op <;> simp [BinaryOp.category, BinaryOp.before, BinaryOp.behind] at hop ⊢

theorem places_of_additive {op : BinaryOp} (hop : op ∈ [BinaryOp.add, .sub]) :
    op.category = .sum ∧ op.before = .sum ∧ op.behind = .operand := by
  cases op <;> simp [BinaryOp.category, BinaryOp.before, BinaryOp.behind] at hop ⊢

/-! ### Levels -/

theorem enclosedDepth_disjunction (own : Category) (depth : Nat) :
    enclosedDepth own .disjunction depth = depth :=
  if_neg (Nat.not_lt_zero _)

theorem enclosedDepth_le_succ (own place : Category) (depth : Nat) :
    enclosedDepth own place depth ≤ depth + 1 := by
  unfold enclosedDepth
  split <;> omega

theorem enclosedDepth_mono {own place other : Category} (hle : place.tightness ≤ other.tightness)
    (depth : Nat) : enclosedDepth own place depth ≤ enclosedDepth own other depth := by
  unfold enclosedDepth
  split <;> split <;> omega

theorem argumentDepth_le {inner : Nat} : ∀ {args : List Expr},
    (∀ arg ∈ args, arg.depth ≤ inner) → argumentDepth args ≤ inner + 1
  | [], _ => Nat.zero_le _
  | arg :: rest, hargs => by
      obtain ⟨harg, hrest⟩ := List.forall_mem_cons.mp hargs
      have hothers := argumentDepth_le hrest
      simp only [argumentDepth]
      omega

theorem argumentDepth_le_of_derives {room inner : Nat} {args : List (List Token × Expr)}
    (hinner : args = [] ∨ room = inner + 1)
    (hargs : ∀ arg ∈ args, enclosedDepth arg.2.category .disjunction arg.2.depth ≤ inner) :
    argumentDepth (args.map (·.2)) ≤ room := by
  rcases hinner with rfl | rfl
  · exact Nat.zero_le _
  · refine argumentDepth_le ?_
    intro expr hexpr
    obtain ⟨arg, harg, rfl⟩ := List.mem_map.mp hexpr
    rw [← enclosedDepth_disjunction arg.2.category arg.2.depth]
    exact hargs arg harg

theorem enclosedDepth_binary_le {room offset : Nat} {place : Category} {left right : Expr}
    (op : BinaryOp) (hplace : op.category = place)
    (hleft : enclosedDepth left.category op.before left.depth ≤ room)
    (hright : enclosedDepth right.category op.behind right.depth ≤ room) :
    enclosedDepth op.category place (Expr.binary offset left op right).depth ≤ room := by
  rw [enclosedDepth, hplace, if_neg (Nat.lt_irrefl _)]
  exact Nat.max_le.mpr ⟨hleft, hright⟩

/-- **No derivation uses fewer levels than the condition nests at its place.** -/
theorem enclosedDepth_le_of_derives {room : Nat} {category : Category} {tokens : List Token}
    {expr : Expr} (hderives : Derives room category tokens expr) :
    enclosedDepth expr.category category expr.depth ≤ room := by
  induction hderives with
  | conjunction _ ih | negation _ ih | comparison _ _ ih | sum _ ih | operand _ ih
  | primary _ ih => exact Nat.le_trans (enclosedDepth_mono (by decide) _) ih
  | or _ _ _ ihleft ihright => exact enclosedDepth_binary_le .or rfl ihleft ihright
  | and _ _ _ ihleft ihright => exact enclosedDepth_binary_le .and rfl ihleft ihright
  | compare _ hop _ _ ihleft ihright =>
      obtain ⟨hcategory, hbefore, hbehind⟩ := places_of_comparison hop
      rw [← hbefore] at ihleft
      rw [← hbehind] at ihright
      exact enclosedDepth_binary_le _ hcategory ihleft ihright
  | add _ hop _ _ ihleft ihright =>
      obtain ⟨hcategory, hbefore, hbehind⟩ := places_of_additive hop
      rw [← hbefore] at ihleft
      rw [← hbehind] at ihright
      exact enclosedDepth_binary_le _ hcategory ihleft ihright
  | not _ _ ih => exact Nat.succ_le_succ ih
  | property _ _ _ ih => exact ih
  | method _ _ _ _ _ hinner _ _ ih ihargs =>
      exact Nat.max_le.mpr ⟨ih, argumentDepth_le_of_derives hinner ihargs⟩
  | index _ _ _ _ ih ihkey =>
      rw [enclosedDepth_disjunction] at ihkey
      exact Nat.max_le.mpr ⟨ih, Nat.succ_le_succ ihkey⟩
  | number _ | text _ | value _ _ | named _ _ => exact Nat.zero_le _
  | call _ _ _ _ hinner _ _ ihargs => exact argumentDepth_le_of_derives hinner ihargs
  | paren _ _ _ ih =>
      rw [enclosedDepth_disjunction] at ih
      exact Nat.le_trans (enclosedDepth_le_succ _ _ _) (Nat.succ_le_succ ih)

/-! ### Tokens -/

theorem length_enclosed_disjunction (own : Category) (inside : List Lexeme) :
    (enclosed own .disjunction inside).length = inside.length :=
  congrArg List.length (if_neg (Nat.not_lt_zero _))

theorem length_enclosed_le (own place : Category) (inside : List Lexeme) :
    (enclosed own place inside).length ≤ inside.length + 2 := by
  unfold enclosed
  split <;> simp

theorem length_enclosed_mono {own place other : Category}
    (hle : place.tightness ≤ other.tightness) (inside : List Lexeme) :
    (enclosed own place inside).length ≤ (enclosed own other inside).length := by
  unfold enclosed
  by_cases hplace : own.tightness < place.tightness
  · rw [if_pos hplace, if_pos (Nat.lt_of_lt_of_le hplace hle)]
  · rw [if_neg hplace]
    split
    · simp only [List.length_cons, List.length_append]
      omega
    · exact Nat.le_refl _

theorem length_argumentLexemes_le : ∀ {args : List (List Token × Expr)} {between : List Token},
    Separated (args.map (·.1)) between → (∀ arg ∈ args, arg.2.lexemes.length ≤ arg.1.length) →
      (argumentLexemes (args.map (·.2))).length ≤ between.length
  | [], _, _, _ => Nat.zero_le _
  | [arg], _, .one, hargs => hargs arg List.mem_cons_self
  | arg :: next :: rest, _, @Separated.more _ _ tokens _ _ _ hrest, hargs => by
      obtain ⟨harg, hlater⟩ := List.forall_mem_cons.mp hargs
      have hseparated : Separated ((next :: rest).map (·.1)) tokens := hrest
      have hothers := length_argumentLexemes_le hseparated hlater
      simp only [List.map_cons, argumentLexemes, List.length_append, List.length_cons] at hothers ⊢
      omega

theorem length_enclosed_binary_le {place : Category} {before after : List Token}
    {left right : Expr} {sign : Token} (op : BinaryOp) (hplace : op.category = place)
    (hleft : (enclosed left.category op.before left.lexemes).length ≤ before.length)
    (hright : (enclosed right.category op.behind right.lexemes).length ≤ after.length) :
    (enclosed op.category place (Expr.binary sign.offset left op right).lexemes).length ≤
      (before ++ sign :: after).length := by
  rw [enclosed, hplace, if_neg (Nat.lt_irrefl _)]
  simp only [Expr.lexemes, List.length_append, List.length_cons]
  omega

/-- **No derivation has fewer tokens than the condition is printed with.** -/
theorem length_enclosed_le_of_derives {room : Nat} {category : Category} {tokens : List Token}
    {expr : Expr} (hderives : Derives room category tokens expr) :
    (enclosed expr.category category expr.lexemes).length ≤ tokens.length := by
  induction hderives with
  | conjunction _ ih | negation _ ih | comparison _ _ ih | sum _ ih | operand _ ih
  | primary _ ih => exact Nat.le_trans (length_enclosed_mono (by decide) _) ih
  | or _ _ _ ihleft ihright => exact length_enclosed_binary_le .or rfl ihleft ihright
  | and _ _ _ ihleft ihright => exact length_enclosed_binary_le .and rfl ihleft ihright
  | compare _ hop _ _ ihleft ihright =>
      obtain ⟨hcategory, hbefore, hbehind⟩ := places_of_comparison hop
      rw [← hbefore] at ihleft
      rw [← hbehind] at ihright
      exact length_enclosed_binary_le _ hcategory ihleft ihright
  | add _ hop _ _ ihleft ihright =>
      obtain ⟨hcategory, hbefore, hbehind⟩ := places_of_additive hop
      rw [← hbefore] at ihleft
      rw [← hbehind] at ihright
      exact length_enclosed_binary_le _ hcategory ihleft ihright
  | not _ _ ih => exact Nat.succ_le_succ ih
  | property _ _ _ ih =>
      change (Expr.lexemes _).length ≤ _
      simp only [Expr.lexemes, List.length_append]
      exact Nat.add_le_add_right ih 2
  | method _ _ _ _ _ _ hbetween _ ih ihargs =>
      have hargs := length_argumentLexemes_le hbetween fun arg hmem => by
        rw [← length_enclosed_disjunction arg.2.category]
        exact ihargs arg hmem
      change (Expr.lexemes _).length ≤ _
      simp only [Expr.lexemes, List.length_append, List.length_cons]
      omega
  | index _ _ _ _ ih ihkey =>
      rw [length_enclosed_disjunction] at ihkey
      change (Expr.lexemes _).length ≤ _
      simp only [Expr.lexemes, List.length_append, List.length_cons]
      omega
  | number _ | text _ | value _ _ | named _ _ => exact Nat.le_refl 1
  | call _ _ _ _ _ hbetween _ ihargs =>
      have hargs := length_argumentLexemes_le hbetween fun arg hmem => by
        rw [← length_enclosed_disjunction arg.2.category]
        exact ihargs arg hmem
      change (Expr.lexemes _).length ≤ _
      simp only [Expr.lexemes, List.length_append, List.length_cons]
      omega
  | paren _ _ _ ih =>
      rw [length_enclosed_disjunction] at ih
      refine Nat.le_trans (length_enclosed_le _ _ _) ?_
      simpa using ih

end Archetype.Condition
