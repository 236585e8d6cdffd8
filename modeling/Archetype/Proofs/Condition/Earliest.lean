import Archetype.Proofs.Condition.Completing

/-!
# The first token that does not fit

The issue of tokens that spell no condition is at the first token that does not fit: those before it
can be continued to a condition, and with it they cannot, whatever follows. The readers of one level
are as they must be for that if those of the next level are, and below the last level nothing is
said, since the levels are what is missing there.
-/

namespace Archetype.Condition

open Archetype.Text

/-! ### All levels -/

theorem settles_tooDeep {viable : List Token → Prop} (stop : Nat) (tokens : List Token) :
    Settles viable tooDeep stop tokens :=
  settles_fail (absurd rfl)

/-- What can be continued can be continued one level deeper. -/
theorem Completable.deeper {room : Nat} {category : Category} {before : List Token}
    (hbefore : Completable (Derives room category) before) :
    Completable (Deeper (room + 1) category) before :=
  hbefore.imp fun _ expr hexpr => ⟨expr, room, rfl, hexpr⟩

/-- The readers of every level settle their tokens, since those of the level below do. -/
theorem settles_negation (room : Nat) : ∀ (stop : Nat) (tokens : List Token),
    Settles (Completable (Derives room .negation)) (fun stop => negation stop room) stop
      tokens := by
  induction room with
  | zero =>
      exact settles_negated (fun _ => takes_tooDeep) stays_tooDeep settles_tooDeep settles_tooDeep
  | succ room ih =>
      refine settles_negated (fun stop => (takes_disjunction (takes_negation room)).deeper)
        (fun stop => stays_disjunction (stays_negation stop room)) ?_ ?_
      · intro stop tokens
        exact (settles_disjunction (fun stop => takes_negation room)
          (fun stop => stays_negation stop room) ih stop tokens).imp
            fun _ _ _ hbefore => hbefore.deeper
      · intro stop tokens
        exact (ih stop tokens).imp fun _ _ _ hbefore => hbefore.deeper

/-! ### Whole conditions -/

/-- A place among tokens is the first one that does not fit: the tokens before it can be continued
to a condition, and whatever begins with those up to it has this issue. At the end of the tokens
only more of them are missing. -/
structure IsFirstMisfit (tokens : List Token) (place : Nat) (issue : Issue) : Prop where
  continued : ∃ more expr, ∀ stop, Expr.ofTokens stop (tokens.take place ++ more) = .ok expr
  refused : place < tokens.length → ∀ stop others,
    Expr.ofTokens stop (tokens.take (place + 1) ++ others) = .error (.issue issue)

theorem take_length_succ (before : List Token) (token : Token) (rest : List Token) :
    (before ++ token :: rest).take (before.length + 1) = before ++ [token] := by
  rw [List.append_cons]
  exact List.take_left' (by simp)

/-- Tokens that can be continued are continued to a condition that is read. -/
theorem exists_ofTokens_of_completable {before : List Token} (hshort : Short before)
    (hbefore : Completable (Derives (maxNesting - 1) .disjunction) before) :
    ∃ more expr, ∀ stop, Expr.ofTokens stop (before ++ more) = .ok expr := by
  obtain ⟨more, expr, hmore, hexpr⟩ := hbefore
  refine ⟨more, expr, fun stop => ofTokens_of_derives ?_ hexpr⟩
  intro token htoken digits hdigits
  rcases List.mem_append.mp htoken with htoken | htoken
  · exact hshort token htoken digits hdigits
  · have hfiller := hmore token htoken
    rw [hdigits] at hfiller
    simp [fillers] at hfiller

theorem exists_isFirstMisfit {stop : Nat} {tokens : List Token} {issue : Issue}
    (hshort : Short tokens) (hread : Expr.ofTokens stop tokens = .error (.issue issue))
    (hlevels : issue.cause ≠ .tooDeep) :
    ∃ place ≤ tokens.length, offsetOf stop (tokens.drop place) = issue.offset ∧
      IsFirstMisfit tokens place issue := by
  have hagain : ∀ {others : List Token} {length : Nat} {failure : Failure},
      disjunction (negation length (maxNesting - 1)) others = .error failure →
        Expr.ofTokens length others = .error failure := by
    intro others length failure hothers
    rw [Expr.ofTokens, hothers]
    rfl
  cases settles_disjunction (fun stop => takes_negation (maxNesting - 1))
      (fun stop => stays_negation stop (maxNesting - 1)) (settles_negation (maxNesting - 1)) stop
      tokens with
  | @numberTooLong digits hlong =>
      rw [hagain hlong] at hread
      cases hread
  | @fails before after cause htokens hfails hviable hlater =>
      subst htokens
      rw [hagain hfails] at hread
      cases hread
      refine ⟨before.length, by simp, by rw [List.drop_left], ?_, ?_⟩
      · rw [List.take_left]
        exact exists_ofTokens_of_completable hshort.left (hviable hlevels)
      · intro hinside length others
        cases after with
        | nil => simp at hinside
        | cons token rest =>
            rw [take_length_succ, List.append_assoc]
            exact hagain (hlater length (token :: others) ⟨token, rest, others, rfl, rfl⟩)
  | @passes used rest expr htokens hpasses hlater =>
      subst htokens
      have hexpr := (takes_disjunction (takes_negation (maxNesting - 1))).spells hpasses
      rw [Expr.ofTokens, hpasses, ok_bind] at hread
      cases rest with
      | nil => cases hread
      | cons token rest =>
          cases hread
          refine ⟨used.length, by simp, by rw [List.drop_left]; rfl, ?_, ?_⟩
          · rw [List.take_left]
            exact exists_ofTokens_of_completable hshort.left (completable_of_spells hexpr)
          · intro _ length others
            rw [take_length_succ, List.append_assoc, List.singleton_append, Expr.ofTokens,
              hlater length (token :: others) ⟨token, rest, others, rfl, rfl⟩]
            rfl

theorem getElem?_offsets (stop : Nat) : ∀ {tokens : List Token} {place : Nat},
    place ≤ tokens.length →
      (tokens.map (·.offset) ++ [stop])[place]? = some (offsetOf stop (tokens.drop place)) := by
  intro tokens
  induction tokens with
  | nil =>
      intro place hplace
      obtain rfl := Nat.le_zero.mp hplace
      rfl
  | cons token rest ih =>
      intro place hplace
      cases place with
      | zero => rfl
      | succ place => exact ih (Nat.le_of_succ_le_succ hplace)

/-- **An issue is told at the first token that does not fit**, unless it is one of the levels. If no
two offsets are the same, the offset of the issue belongs to no other place. -/
theorem issue_at_first_misfit {stop : Nat} {tokens : List Token} {issue : Issue}
    (hshort : Short tokens) (hread : Expr.ofTokens stop tokens = .error (.issue issue))
    (hlevels : issue.cause ≠ .tooDeep) :
    ∃ place ≤ tokens.length, offsetOf stop (tokens.drop place) = issue.offset ∧
      IsFirstMisfit tokens place issue ∧
      ((tokens.map (·.offset) ++ [stop]).Nodup → ∀ other ≤ tokens.length,
        offsetOf stop (tokens.drop other) = issue.offset → other = place) := by
  obtain ⟨place, hplace, hoffset, hfirst⟩ := exists_isFirstMisfit hshort hread hlevels
  refine ⟨place, hplace, hoffset, hfirst, ?_⟩
  intro hdistinct other hother hsame
  refine (List.getElem?_inj (by simpa using Nat.lt_succ_of_le hother) hdistinct).mp ?_
  rw [getElem?_offsets stop hother, getElem?_offsets stop hplace, hsame, hoffset]

/-- Two names stand in parentheses without a comma. The first one could have been the only
argument, and nothing mends the second one. -/
theorem issue_at_first_misfit_missing_comma :
    ∃ tokens, tokenize "f(a b".toList = .ok tokens ∧ Short tokens ∧
      IsFirstMisfit tokens 3 ⟨.expectedSymbol .comma (some "b"), 4⟩ := by
  refine ⟨[⟨.word "f", 0⟩, ⟨.symbol .openParen, 1⟩, ⟨.word "a", 2⟩, ⟨.word "b", 4⟩],
    by decide +kernel, by decide, ?_⟩
  have hread : (Expr.ofTokens 5 [⟨.word "f", 0⟩, ⟨.symbol .openParen, 1⟩, ⟨.word "a", 2⟩,
      ⟨.word "b", 4⟩]).map (fun _ => ()) =
        .error (.issue ⟨.expectedSymbol .comma (some "b"), 4⟩) := by
    decide +kernel
  obtain ⟨place, hplace, hoffset, hfirst, honly⟩ :=
    issue_at_first_misfit (by decide) (eq_error_of_map hread) (by decide)
  obtain rfl : 3 = place := honly (by decide) 3 (by decide) rfl
  exact hfirst

end Archetype.Condition
