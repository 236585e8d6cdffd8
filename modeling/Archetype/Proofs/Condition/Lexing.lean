import Archetype.Proofs.Condition.Lexemes

/-!
# Tokens and the text they are found in

The tokens of a text lie apart, and nothing but blanks lies outside them, since the scanner goes on
behind the longest lexeme at each place. It stops only where neither a blank nor a lexeme starts;
what it has found before does not depend on what follows.
-/

namespace Archetype.Condition

open Archetype.Text

/-! ### Layouts -/

/-- A token with the part of the text that it is made of. -/
structure Occurrence where
  token : Token
  span : List Char

/-- A text that starts at some offset and goes on with `tail` is made of blanks and tokens, each of
them the longest lexeme at its place. -/
inductive Laid (tail : List Char) : Nat → List Occurrence → List Char → Prop
  | blank {offset : Nat} {gap : List Char} (hgap : isBlankText gap = true) :
      Laid tail offset [] gap
  | token {offset : Nat} {gap span rest : List Char} {lexeme : Lexeme} {later : List Occurrence}
      (hgap : isBlankText gap = true) (hleads : lexeme.Leads span (rest ++ tail))
      (hrest : Laid tail (offset + gap.length + span.length) later rest) :
      Laid tail offset (⟨⟨lexeme, offset + gap.length⟩, span⟩ :: later) (gap ++ (span ++ rest))

/-- The tokens that the scanner has found when it comes to the end or stops. -/
def found : List Char → (offset skip : Nat) → List Token
  | [], _, _ => []
  | _ :: rest, offset, skip + 1 => found rest (offset + 1) skip
  | c :: rest, offset, 0 =>
    if isBlank c then
      found rest (offset + 1) 0
    else
      match Lexeme.front? (c :: rest) with
      | none => []
      | some (lexeme, more) => ⟨lexeme, offset⟩ :: found rest (offset + 1) more

/-- What a scan ends with when it has found tokens before the `tail` of a text, which is at
`offset`. -/
inductive EndsScan (tokens : List Token) (offset : Nat) :
    List Char → Except Issue (List Token) → Prop
  | all : EndsScan tokens offset [] (.ok tokens)
  | stopped {c : Char} {rest : List Char} (hblank : isBlank c = false)
      (hnone : Lexeme.front? (c :: rest) = none) :
      EndsScan tokens offset (c :: rest) (.error ⟨noLexeme c, offset⟩)

theorem found_skip (more rest : List Char) (offset : Nat) :
    found (more ++ rest) offset more.length = found rest (offset + more.length) 0 := by
  induction more generalizing offset with
  | nil => rfl
  | cons c others ih =>
      rw [List.cons_append, List.length_cons, found, ih, Nat.add_assoc, Nat.add_comm 1]

theorem found_of_leads {lexeme : Lexeme} {span rest : List Char} (hleads : lexeme.Leads span rest)
    (offset : Nat) : found (span ++ rest) offset 0 =
      ⟨lexeme, offset⟩ :: found rest (offset + span.length) 0 := by
  obtain ⟨c, more, rfl, hblank, hfront⟩ := exists_front?_of_leads hleads
  rw [List.cons_append, found, if_neg hblank, hfront]
  dsimp only
  rw [found_skip, List.length_cons, Nat.add_assoc, Nat.add_comm 1]

/-- **A text with a layout has the tokens of the layout.** -/
theorem Laid.scan_eq {offset : Nat} {occurrences : List Occurrence} {text : List Char}
    (hlaid : Laid [] offset occurrences text) :
    scan text offset 0 = .ok (occurrences.map (·.token)) := by
  induction hlaid with
  | @blank offset gap hgap =>
      have hscan := scan_blank hgap [] offset
      rwa [List.append_nil] at hscan
  | token hgap hleads _ ih =>
      rw [List.append_nil] at hleads
      rw [scan_blank hgap, scan_of_leads hleads, ih]
      rfl

theorem Laid.cons_blank {tail : List Char} {offset : Nat} {occurrences : List Occurrence}
    {text : List Char} (hlaid : Laid tail (offset + 1) occurrences text) {c : Char}
    (hc : isBlank c = true) : Laid tail offset occurrences (c :: text) := by
  have hcons (gap : List Char) (hgap : isBlankText gap = true) : isBlankText (c :: gap) = true :=
    Bool.and_eq_true_iff.mpr ⟨hc, hgap⟩
  cases hlaid with
  | blank hgap => exact .blank (hcons _ hgap)
  | @token _ gap span rest lexeme later hgap hleads hrest =>
      have hoffset : offset + 1 + gap.length = offset + (c :: gap).length := by
        rw [List.length_cons]
        omega
      rw [hoffset] at hrest ⊢
      exact .token (hcons _ hgap) hleads hrest

theorem EndsScan.map {tokens : List Token} {offset : Nat} {tail : List Char}
    {outcome : Except Issue (List Token)} (hends : EndsScan tokens offset tail outcome)
    (token : Token) : EndsScan (token :: tokens) offset tail (outcome.map (token :: ·)) := by
  cases hends with
  | all => exact .all
  | stopped hblank hnone => exact .stopped hblank hnone

/-- **A scan finds a layout of all that stands before the end or the place where it stops.** The
induction is on a bound of the length of the text, since a scan goes on behind a whole lexeme. -/
theorem exists_laid_found (bound : Nat) : ∀ (text : List Char) (offset : Nat),
    text.length ≤ bound → ∃ before tail occurrences, text = before ++ tail ∧
      Laid tail offset occurrences before ∧ occurrences.map (·.token) = found text offset 0 ∧
      EndsScan (found text offset 0) (offset + before.length) tail (scan text offset 0) := by
  induction bound with
  | zero =>
      intro text offset hbound
      obtain rfl := List.length_eq_zero_iff.mp (Nat.le_zero.mp hbound)
      exact ⟨[], [], [], rfl, .blank rfl, rfl, .all⟩
  | succ bound ih =>
      intro text offset hbound
      cases text with
      | nil => exact ⟨[], [], [], rfl, .blank rfl, rfl, .all⟩
      | cons c rest =>
          by_cases hblank : isBlank c = true
          · obtain ⟨before, tail, occurrences, htext, hlaid, htokens, hends⟩ :=
              ih rest (offset + 1) (Nat.le_of_succ_le_succ hbound)
            refine ⟨c :: before, tail, occurrences, by rw [htext, List.cons_append],
              hlaid.cons_blank hblank, ?_, ?_⟩
            · rw [found, if_pos hblank, htokens]
            · rw [found, if_pos hblank, scan, if_pos hblank, List.length_cons,
                Nat.add_comm before.length, ← Nat.add_assoc]
              exact hends
          · cases hfront : Lexeme.front? (c :: rest) with
            | none =>
                refine ⟨[], c :: rest, [], rfl, .blank rfl, ?_, ?_⟩
                · rw [found, if_neg hblank, hfront]
                  rfl
                · rw [scan, if_neg hblank, hfront]
                  exact .stopped (Bool.eq_false_iff.mpr hblank) hfront
            | some first =>
                obtain ⟨lexeme, more⟩ := first
                obtain ⟨span, later, htext, hlength, hleads⟩ := front?_eq_some_iff.mp hfront
                have hshort : later.length ≤ bound := by
                  have hsum := congrArg List.length htext
                  rw [List.length_append] at hsum
                  omega
                obtain ⟨before, tail, occurrences, rfl, hlaid, htokens, hends⟩ :=
                  ih later (offset + span.length) hshort
                rw [htext, scan_of_leads hleads, found_of_leads hleads]
                refine ⟨span ++ before, tail, ⟨⟨lexeme, offset⟩, span⟩ :: occurrences,
                  (List.append_assoc _ _ _).symm, ?_, ?_, ?_⟩
                · have hnogap : isBlankText [] = true := rfl
                  exact .token hnogap hleads hlaid
                · rw [List.map_cons, htokens]
                · rw [List.length_append, ← Nat.add_assoc]
                  exact hends.map _

theorem exists_laid_of_tokenize {text : List Char} {tokens : List Token}
    (htokens : tokenize text = .ok tokens) :
    ∃ occurrences, Laid [] 0 occurrences text ∧ occurrences.map (·.token) = tokens := by
  obtain ⟨before, tail, occurrences, rfl, hlaid, hfound, hends⟩ :=
    exists_laid_found text.length text 0 (Nat.le_refl _)
  rw [← tokenize, htokens] at hends
  cases hends with
  | all =>
      rw [List.append_nil] at hfound ⊢
      exact ⟨occurrences, hlaid, hfound⟩

/-! ### Texts -/

/-- An occurrence stands in a text at the offset of its token and is the longest lexeme there. On
its own it has this one token. -/
structure Occurrence.IsIn (text : List Char) (occurrence : Occurrence) : Prop where
  inside : occurrence.span <+: text.drop occurrence.token.offset
  spelled : occurrence.token.lexeme.Spelled occurrence.span
  longest : ∀ lexeme longer, Lexeme.Spelled lexeme longer →
    longer <+: text.drop occurrence.token.offset → longer.length ≤ occurrence.span.length
  alone : tokenize occurrence.span = .ok [⟨occurrence.token.lexeme, 0⟩]

/-- Occurrences stand one behind the other in a text and leave out nothing but blanks. -/
structure Covers (text : List Char) (occurrences : List Occurrence) : Prop where
  each : ∀ occurrence ∈ occurrences, occurrence.IsIn text
  increasing : occurrences.Pairwise fun first second => first.token.offset < second.token.offset
  apart : occurrences.Pairwise fun first second =>
    first.token.offset + first.span.length ≤ second.token.offset
  outside : ∀ place c, text[place]? = some c →
    (∀ occurrence ∈ occurrences, place < occurrence.token.offset ∨
      occurrence.token.offset + occurrence.span.length ≤ place) → isBlank c = true

/-- What a text may end its scan with: the tokens that cover it, or an issue of a place where
neither a blank nor a lexeme starts. -/
inductive IsScanOf (text : List Char) : Except Issue (List Token) → Prop
  | covered {occurrences : List Occurrence} (hcovers : Covers text occurrences) :
      IsScanOf text (.ok (occurrences.map (·.token)))
  | stopped {c : Char} {cause : Cause} {offset : Nat} (hplace : text[offset]? = some c)
      (hblank : isBlank c = false)
      (hnone : ∀ lexeme span, Lexeme.Spelled lexeme span → ¬ span <+: text.drop offset)
      (hbefore : tokenize (text.take offset) = .ok (found text 0 0))
      (hcause : cause = .unterminatedText ∧ isQuote c = true ∨
        cause = .unexpectedCharacter c ∧ isQuote c = false) :
      IsScanOf text (.error ⟨cause, offset⟩)

namespace Laid

variable {tail : List Char} {offset : Nat} {occurrences : List Occurrence} {text : List Char}

/-- What comes later in a text does not matter to the layout before it. -/
theorem of_tail (hlaid : Laid tail offset occurrences text) : Laid [] offset occurrences text := by
  induction hlaid with
  | blank hgap => exact .blank hgap
  | @token offset gap span rest lexeme later hgap hleads _ ih =>
      have hthis : lexeme.Leads span (rest ++ []) := by
        rw [List.append_nil]
        exact hleads.of_append
      exact .token hgap hthis ih

theorem exists_leads (hlaid : Laid tail offset occurrences text) :
    ∀ occurrence ∈ occurrences, ∃ before rest, text = before ++ (occurrence.span ++ rest) ∧
      occurrence.token.offset = offset + before.length ∧
      occurrence.token.lexeme.Leads occurrence.span rest := by
  induction hlaid with
  | blank hgap => simp
  | @token offset gap span rest lexeme later hgap hleads _ ih =>
      intro occurrence hoccurrence
      rcases List.mem_cons.mp hoccurrence with rfl | hlater
      · exact ⟨gap, rest, rfl, rfl, hleads.of_append⟩
      · obtain ⟨before, behind, hrest, hoffset, hthis⟩ := ih occurrence hlater
        refine ⟨gap ++ (span ++ before), behind, ?_, ?_, hthis⟩
        · rw [hrest, List.append_assoc, List.append_assoc]
        · rw [hoffset, List.length_append, List.length_append, Nat.add_assoc, Nat.add_assoc]

theorem apart (hlaid : Laid tail offset occurrences text) : occurrences.Pairwise
    fun first second => first.token.offset + first.span.length ≤ second.token.offset := by
  induction hlaid with
  | blank => exact List.Pairwise.nil
  | token hgap hleads hrest ih =>
      refine List.pairwise_cons.mpr ⟨fun occurrence hlater => ?_, ih⟩
      obtain ⟨before, _, -, hoffset, -⟩ := hrest.exists_leads occurrence hlater
      rw [hoffset]
      exact Nat.le_add_right _ _

/-- A character of the text is blank, or within an occurrence. -/
theorem outside (hlaid : Laid tail offset occurrences text) : ∀ place c, text[place]? = some c →
    (∀ occurrence ∈ occurrences, offset + place < occurrence.token.offset ∨
      occurrence.token.offset + occurrence.span.length ≤ offset + place) → isBlank c = true := by
  induction hlaid with
  | blank hgap =>
      intro place c hc _
      exact List.all_eq_true.mp hgap c (List.mem_of_getElem? hc)
  | @token offset gap span rest lexeme later hgap hleads _ ih =>
      intro place c hc hout
      obtain ⟨hthis, hlater⟩ := List.forall_mem_cons.mp hout
      dsimp only at hthis
      by_cases hfront : place < gap.length
      · rw [List.getElem?_append_left hfront] at hc
        exact List.all_eq_true.mp hgap c (List.mem_of_getElem? hc)
      · have hbehind : gap.length + span.length ≤ place := by omega
        rw [List.getElem?_append_right (by omega), List.getElem?_append_right (by omega)] at hc
        refine ih _ c hc fun occurrence hoccurrence => ?_
        have hplace := hlater occurrence hoccurrence
        omega

/-- The tokens of a layout cover the text that it makes up. -/
theorem covers (hlaid : Laid [] 0 occurrences text) : Covers text occurrences where
  each occurrence hoccurrence := by
    obtain ⟨before, rest, rfl, hoffset, hleads⟩ := hlaid.exists_leads occurrence hoccurrence
    have hdrop : (before ++ (occurrence.span ++ rest)).drop occurrence.token.offset =
        occurrence.span ++ rest := by
      rw [hoffset, Nat.zero_add, List.drop_left]
    refine ⟨?_, hleads.spelled, ?_, ?_⟩
    · rw [hdrop]
      exact List.prefix_append _ _
    · rw [hdrop]
      exact hleads.longest
    · exact scan_of_spelled hleads.spelled 0
  increasing := by
    refine List.Pairwise.imp_of_mem ?_ hlaid.apart
    intro first second hfirst _ happart
    obtain ⟨_, _, -, -, hleads⟩ := hlaid.exists_leads first hfirst
    have hlength := length_pos_of_spelled hleads.spelled
    omega
  apart := hlaid.apart
  outside place c hc hout := by
    refine hlaid.outside place c hc ?_
    rwa [Nat.zero_add]

end Laid

/-- **Tokens are the longest lexemes of a text, one behind the other, with nothing but blanks
between them**, and the tokenizer stops only where neither a blank nor a lexeme starts. The tokens
before that place are those of the text that ends there. -/
theorem isScanOf_tokenize (text : List Char) : IsScanOf text (tokenize text) := by
  obtain ⟨before, tail, occurrences, htext, hlaid, htokens, hends⟩ :=
    exists_laid_found text.length text 0 (Nat.le_refl _)
  unfold tokenize
  revert hends
  generalize houtcome : scan text 0 0 = outcome
  intro hends
  rw [Nat.zero_add] at hends
  cases hends with
  | all =>
      rw [List.append_nil] at htext
      rw [← htext] at hlaid
      rw [← htokens]
      exact .covered hlaid.covers
  | @stopped c rest hblank hnone =>
      have hdrop : text.drop before.length = c :: rest := by rw [htext, List.drop_left]
      refine .stopped (c := c) ?_ hblank ?_ ?_ ?_
      · rw [← List.head?_drop, hdrop]
        rfl
      · rw [hdrop]
        exact front?_eq_none_iff.mp hnone
      · rw [htext, List.take_left, tokenize, hlaid.of_tail.scan_eq, ← htext, htokens]
      · unfold noLexeme
        cases isQuote c
        · exact .inr ⟨rfl, rfl⟩
        · exact .inl ⟨rfl, rfl⟩

/-- A text ends at the first quote without a backslash, and one ampersand is no sign. -/
example : tokenize "!=\"a\\\"b\"&c".toList = .error ⟨.unexpectedCharacter '&', 8⟩ := by
  cbv

end Archetype.Condition
