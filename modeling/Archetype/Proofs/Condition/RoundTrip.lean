import Mathlib.Data.List.Basic
import Archetype.Proofs.Condition.Bounds
import Archetype.Proofs.Condition.ParserCompleteness

/-!
# Printed conditions are read back

The lexemes of a condition are a derivation of it, one rule of the grammar for each node and one for
each pair of parentheses. The induction is on the condition; what it carries along besides the
derivation is that nothing that binds as tightly as a comparison starts with a negation, since the
grammar would take the sign for the operator there.
-/

namespace Archetype.Condition

open Archetype.Text

def Unnegated (tokens : List Token) : Prop :=
  ∀ token, tokens.head? = some token → ¬ token.Spells .not

/-- Tokens can be derived as a condition but for the offsets in it. -/
structure Spelled (place : Category) (depth : Nat) (tokens : List Token) (expr : Expr) : Prop where
  start : Category.comparison.tightness ≤ place.tightness → Unnegated tokens
  derives : ∃ found, found.bare = expr.bare ∧ Derives depth place tokens found

/-- Wherever the lexemes of a condition stand, they spell it. -/
def IsSpelled (expr : Expr) : Prop :=
  ∀ tokens, tokens.map Token.lexeme = expr.lexemes → Spelled expr.category expr.depth tokens expr

theorem unnegated_cons {token : Token} {rest : List Token} (hsign : token.lexeme ≠ .symbol .not)
    (hword : ∀ name, token.lexeme = .word name → (name.toLower, Symbol.not) ∉ operatorWords) :
    Unnegated (token :: rest) := by
  intro first hfirst hspells
  cases hfirst
  cases hspells with
  | sign hnot => exact hsign hnot
  | word hnot hname => exact hword _ hnot hname

theorem unnegated_cons_of_word {token : Token} {rest : List Token} {name : String}
    (hword : token.lexeme = .word name) (hname : (name.toLower, Symbol.not) ∉ operatorWords) :
    Unnegated (token :: rest) := by
  refine unnegated_cons (by simp [hword]) ?_
  intro other hother
  rw [hword] at hother
  cases hother
  exact hname

theorem Spelled.unnegated_append {place : Category} {depth : Nat} {tokens : List Token}
    {expr : Expr} (hspelled : Spelled place depth tokens expr)
    (hplace : Category.comparison.tightness ≤ place.tightness) (rest : List Token) :
    Unnegated (tokens ++ rest) := by
  obtain ⟨found, -, hderives⟩ := hspelled.derives
  obtain ⟨first, others, rfl, -⟩ := exists_head_of_derives hderives
  exact hspelled.start hplace

/-! ### Places -/

def Category.looser : Category → Category
  | .disjunction | .conjunction => .disjunction
  | .negation => .conjunction
  | .comparison => .negation
  | .sum => .comparison
  | .operand => .sum
  | .primary => .operand

theorem Spelled.looser {place : Category} {depth : Nat} {tokens : List Token} {expr : Expr}
    (hspelled : Spelled place depth tokens expr) : Spelled place.looser depth tokens expr := by
  obtain ⟨hstart, found, hbare, hderives⟩ := hspelled
  cases place with
  | disjunction => exact ⟨hstart, found, hbare, hderives⟩
  | conjunction =>
      exact ⟨fun hplace => absurd hplace (by decide), found, hbare, .conjunction hderives⟩
  | negation =>
      exact ⟨fun hplace => absurd hplace (by decide), found, hbare, .negation hderives⟩
  | comparison =>
      have hunnegated := hstart (by decide)
      exact ⟨fun hplace => absurd hplace (by decide), found, hbare,
        .comparison hderives hunnegated⟩
  | sum => exact ⟨fun _ => hstart (by decide), found, hbare, .sum hderives⟩
  | operand => exact ⟨fun _ => hstart (by decide), found, hbare, .operand hderives⟩
  | primary => exact ⟨fun _ => hstart (by decide), found, hbare, .primary hderives⟩

theorem tightness_looser (category : Category) :
    category.looser.tightness = category.tightness - 1 := by
  cases category <;> rfl

theorem eq_of_tightness_eq {category other : Category}
    (hsame : category.tightness = other.tightness) : category = other := by
  cases category <;> cases other <;> first | rfl | cases hsame

theorem Spelled.loosen_by {count : Nat} : ∀ {own place : Category} {depth : Nat}
    {tokens : List Token} {expr : Expr}, Spelled own depth tokens expr →
      own.tightness = place.tightness + count → Spelled place depth tokens expr := by
  induction count with
  | zero =>
      intro own place depth tokens expr hspelled hcount
      rw [← eq_of_tightness_eq hcount]
      exact hspelled
  | succ count ih =>
      intro own place depth tokens expr hspelled hcount
      apply ih hspelled.looser
      rw [tightness_looser]
      omega

/-- What can stand at some place can stand where a looser condition is asked for. -/
theorem Spelled.loosen {own place : Category} {depth : Nat} {tokens : List Token} {expr : Expr}
    (hspelled : Spelled own depth tokens expr) (hle : place.tightness ≤ own.tightness) :
    Spelled place depth tokens expr :=
  hspelled.loosen_by (Nat.add_sub_of_le hle).symm

theorem Spelled.whole {own : Category} {depth : Nat} {tokens : List Token} {expr : Expr}
    (hspelled : Spelled own depth tokens expr) : Spelled .disjunction depth tokens expr :=
  hspelled.loosen (Nat.zero_le _)

theorem Spelled.paren {depth : Nat} {between : List Token} {expr : Expr} {opening closing : Token}
    (hspelled : Spelled .disjunction depth between expr)
    (hopening : opening.lexeme = .symbol .openParen)
    (hclosing : closing.lexeme = .symbol .closeParen) :
    Spelled .primary (depth + 1) (opening :: (between ++ [closing])) expr := by
  obtain ⟨found, hbare, hderives⟩ := hspelled.derives
  refine ⟨fun _ => unnegated_cons (by simp [hopening]) (by simp [hopening]), found, hbare, ?_⟩
  exact .paren (.sign hopening) hderives (.sign hclosing)

/-- **A condition is spelled at any place**, with parentheses if the place asks for them. -/
theorem IsSpelled.enclosed {expr : Expr} (hexpr : IsSpelled expr) {place : Category}
    {tokens : List Token}
    (htokens : tokens.map Token.lexeme = enclosed expr.category place expr.lexemes) :
    Spelled place (enclosedDepth expr.category place expr.depth) tokens expr := by
  unfold Condition.enclosed at htokens
  unfold enclosedDepth
  split at htokens
  · next hlooser =>
    rw [if_pos hlooser]
    obtain ⟨opening, others, rfl, hopening, hothers⟩ := List.map_eq_cons_iff.mp htokens
    obtain ⟨between, last, rfl, hbetween, hlast⟩ := List.map_eq_append_iff.mp hothers
    obtain ⟨closing, rfl, hclosing⟩ := List.map_eq_singleton_iff.mp hlast
    have hparen := (hexpr between hbetween).whole.paren hopening hclosing
    exact hparen.loosen (by cases place <;> decide)
  · next htight =>
    rw [if_neg htight]
    exact (hexpr tokens htokens).loosen (Nat.le_of_not_lt htight)

/-! ### Nodes -/

/-- Values that are spelled by a word. -/
theorem isSpelled_word (offset : Nat) {value : Literal} {name : String}
    (hlexeme : value.lexeme = .word name) (hvalue : (name.toLower, value) ∈ valueWords)
    (hfree : (name.toLower, Symbol.not) ∉ operatorWords) : IsSpelled (.literal offset value) := by
  intro tokens htokens
  obtain ⟨token, rfl, htoken⟩ := List.map_eq_singleton_iff.mp htokens
  rw [hlexeme] at htoken
  exact ⟨fun _ => unnegated_cons_of_word htoken hfree, .literal token.offset value, rfl,
    .value htoken hvalue⟩

theorem isSpelled_number (offset n : Nat) : IsSpelled (.literal offset (.number n)) := by
  intro tokens htokens
  obtain ⟨token, rfl, htoken⟩ := List.map_eq_singleton_iff.mp htokens
  rw [Literal.lexeme] at htoken
  have hvalue : numeralValue (Nat.toDigits 10 n) = n := by
    rw [numeralValue_eq_ofDigitChars fun c hc =>
      Nat.isDigit_of_mem_toDigits (by decide) (by decide) hc]
    exact Nat.ofDigitChars_ten_toDigits
  have hderives : Derives 0 .primary [token] (.literal token.offset (.number n)) := by
    rw [← hvalue]
    exact .number htoken
  exact ⟨fun _ => unnegated_cons (by simp [htoken]) (by simp [htoken]),
    .literal token.offset (.number n), rfl, hderives⟩

theorem isSpelled_text (offset : Nat) (value : String) :
    IsSpelled (.literal offset (.text value)) := by
  intro tokens htokens
  obtain ⟨token, rfl, htoken⟩ := List.map_eq_singleton_iff.mp htokens
  rw [Literal.lexeme] at htoken
  exact ⟨fun _ => unnegated_cons (by simp [htoken]) (by simp [htoken]),
    .literal token.offset (.text value), rfl, .text htoken⟩

theorem isSpelled_literal (offset : Nat) (value : Literal) : IsSpelled (.literal offset value) := by
  cases value with
  | null => exact isSpelled_word offset rfl (by decide +kernel) (by decide +kernel)
  | bool truth =>
      cases truth <;> exact isSpelled_word offset rfl (by decide +kernel) (by decide +kernel)
  | number n => exact isSpelled_number offset n
  | text value => exact isSpelled_text offset value

theorem isSpelled_attribute (offset : Nat) {name : String} (hfree : name.toLower ∉ keywords) :
    IsSpelled (.attribute offset name) := by
  intro tokens htokens
  obtain ⟨token, rfl, htoken⟩ := List.map_eq_singleton_iff.mp htokens
  exact ⟨fun _ => unnegated_cons_of_word htoken (notMem_operatorWords hfree .not),
    .attribute token.offset name, rfl, .named htoken (notMem_valueWords hfree)⟩

theorem isSpelled_property (offset : Nat) {target : Expr} (name : String)
    (htarget : IsSpelled target) : IsSpelled (.property offset target name) := by
  intro tokens htokens
  obtain ⟨before, suffix, rfl, hbefore, hsuffix⟩ := List.map_eq_append_iff.mp htokens
  obtain ⟨dot, others, rfl, hdot, hothers⟩ := List.map_eq_cons_iff.mp hsuffix
  obtain ⟨word, rfl, hword⟩ := List.map_eq_singleton_iff.mp hothers
  have hspelled := htarget.enclosed hbefore
  obtain ⟨found, hbare, hderives⟩ := hspelled.derives
  refine ⟨fun _ => hspelled.unnegated_append (by decide) _,
    .property word.offset found name, ?_, ?_⟩
  · rw [Expr.bare, Expr.bare, hbare]
  · exact .property hderives (.sign hdot) hword

theorem isSpelled_index (offset : Nat) {target key : Expr} (htarget : IsSpelled target)
    (hkey : IsSpelled key) : IsSpelled (.index offset target key) := by
  intro tokens htokens
  obtain ⟨before, suffix, rfl, hbefore, hsuffix⟩ := List.map_eq_append_iff.mp htokens
  obtain ⟨opening, others, rfl, hopening, hothers⟩ := List.map_eq_cons_iff.mp hsuffix
  obtain ⟨between, last, rfl, hbetween, hlast⟩ := List.map_eq_append_iff.mp hothers
  obtain ⟨closing, rfl, hclosing⟩ := List.map_eq_singleton_iff.mp hlast
  have hspelled := htarget.enclosed hbefore
  obtain ⟨found, hbare, hderives⟩ := hspelled.derives
  obtain ⟨inner, hbare', hderives'⟩ := (hkey between hbetween).whole.derives
  refine ⟨fun _ => hspelled.unnegated_append (by decide) _,
    .index inner.offset found inner, ?_, ?_⟩
  · rw [Expr.bare, Expr.bare, hbare, hbare']
  · have htarget := Nat.le_max_left (enclosedDepth target.category .operand target.depth)
      (key.depth + 1)
    obtain ⟨room, hroom, hkey⟩ := exists_eq_succ_of_succ_le
      (Nat.le_max_right (enclosedDepth target.category .operand target.depth) (key.depth + 1))
    rw [hroom] at htarget
    rw [Expr.depth, hroom]
    exact .index (hderives.mono _ htarget) (.sign hopening) (hderives'.mono _ hkey) (.sign hclosing)

theorem isSpelled_not (offset : Nat) {operand : Expr} (hoperand : IsSpelled operand) :
    IsSpelled (.not offset operand) := by
  intro tokens htokens
  obtain ⟨sign, others, rfl, hsign, hothers⟩ := List.map_eq_cons_iff.mp htokens
  obtain ⟨found, hbare, hderives⟩ := (hoperand.enclosed hothers).derives
  have hloose : ¬ Category.comparison.tightness ≤ Category.negation.tightness := by decide
  refine ⟨fun hplace => absurd hplace hloose, .not sign.offset found, ?_, ?_⟩
  · rw [Expr.bare, Expr.bare, hbare]
  · exact .not (.sign hsign) hderives

/-- The rule of the grammar for an operator. -/
theorem derives_binary {room : Nat} {before after : List Token} {left right : Expr} {sign : Token}
    {op : BinaryOp} (hleft : Derives room op.before before left)
    (hsign : sign.Spells op.symbol) (hright : Derives room op.behind after right) :
    Derives room op.category (before ++ sign :: after) (.binary sign.offset left op right) := by
  cases op with
  | and => exact .and hleft hsign hright
  | or => exact .or hleft hsign hright
  | eq | ne | lt | le | gt | ge => exact .compare hleft (by decide) hsign hright
  | add | sub => exact .add hleft (by decide) hsign hright

theorem isSpelled_binary (offset : Nat) {left right : Expr} (op : BinaryOp)
    (hleft : IsSpelled left) (hright : IsSpelled right) :
    IsSpelled (.binary offset left op right) := by
  intro tokens htokens
  obtain ⟨before, others, rfl, hbefore, hothers⟩ := List.map_eq_append_iff.mp htokens
  obtain ⟨sign, after, rfl, hsign, hafter⟩ := List.map_eq_cons_iff.mp hothers
  have hspelled := hleft.enclosed hbefore
  obtain ⟨first, hbare, hderives⟩ := hspelled.derives
  obtain ⟨second, hbare', hderives'⟩ := (hright.enclosed hafter).derives
  refine ⟨?_, .binary sign.offset first op second, ?_, ?_⟩
  · intro hplace
    have hbefore : op.category.tightness ≤ op.before.tightness := by cases op <;> decide
    exact hspelled.unnegated_append (Nat.le_trans hplace hbefore) _
  · rw [Expr.bare, Expr.bare, hbare, hbare']
  · exact derives_binary (hderives.mono _ (Nat.le_max_left _ _)) (.sign hsign)
      (hderives'.mono _ (Nat.le_max_right _ _))

/-! ### Arguments -/

/-- The tokens of arguments are those of each, with commas between them. -/
theorem exists_separated {inner : Nat} : ∀ {args : List Expr}, (∀ arg ∈ args, IsSpelled arg) →
    argumentDepth args ≤ inner + 1 → ∀ tokens : List Token,
      tokens.map Token.lexeme = argumentLexemes args →
        ∃ found : List (List Token × Expr), bareAll (found.map (·.2)) = bareAll args ∧
          (∀ arg ∈ found, Derives inner .disjunction arg.1 arg.2) ∧
          Separated (found.map (·.1)) tokens
  | [], _, _, tokens, htokens => by
      rw [List.map_eq_nil_iff.mp htokens]
      exact ⟨[], rfl, by simp, .none⟩
  | [arg], hargs, hdepth, tokens, htokens => by
      have hroom : arg.depth ≤ inner := by
        simp only [argumentDepth] at hdepth
        omega
      obtain ⟨expr, hbare, hderives⟩ := (hargs arg List.mem_cons_self tokens htokens).whole.derives
      refine ⟨[(tokens, expr)], ?_, ?_, .one⟩
      · simp [bareAll, hbare]
      · simpa using hderives.mono inner hroom
  | arg :: next :: rest, hargs, hdepth, tokens, htokens => by
      obtain ⟨harg, hlater⟩ := List.forall_mem_cons.mp hargs
      have hrooms : arg.depth ≤ inner ∧ argumentDepth (next :: rest) ≤ inner + 1 := by
        rw [argumentDepth] at hdepth
        omega
      obtain ⟨segment, others, rfl, hsegment, hothers⟩ := List.map_eq_append_iff.mp htokens
      obtain ⟨comma, between, rfl, hcomma, hbetween⟩ := List.map_eq_cons_iff.mp hothers
      obtain ⟨expr, hbare, hderives⟩ := (harg segment hsegment).whole.derives
      obtain ⟨found, hbares, hfound, hseparated⟩ :=
        exists_separated hlater hrooms.2 between hbetween
      cases found with
      | nil => cases hbares
      | cons first more =>
          refine ⟨(segment, expr) :: first :: more, ?_, ?_, .more (.sign hcomma) hseparated⟩
          · rw [List.map_cons, bareAll, hbare, hbares]
            rfl
          · exact List.forall_mem_cons.mpr ⟨hderives.mono inner hrooms.1, hfound⟩

/-- Arguments need a level of their own, if there are any. -/
theorem exists_arguments {room : Nat} {args : List Expr} (hargs : ∀ arg ∈ args, IsSpelled arg)
    (hdepth : argumentDepth args ≤ room) {tokens : List Token}
    (htokens : tokens.map Token.lexeme = argumentLexemes args) :
    ∃ (inner : Nat) (found : List (List Token × Expr)), bareAll (found.map (·.2)) = bareAll args ∧
      (∀ arg ∈ found, Derives inner .disjunction arg.1 arg.2) ∧
      (found = [] ∨ room = inner + 1) ∧ Separated (found.map (·.1)) tokens := by
  cases room with
  | succ inner =>
      obtain ⟨found, hbares, hfound, hseparated⟩ := exists_separated hargs hdepth tokens htokens
      exact ⟨inner, found, hbares, hfound, .inr rfl, hseparated⟩
  | zero =>
      cases args with
      | nil =>
          rw [List.map_eq_nil_iff.mp htokens]
          exact ⟨0, [], rfl, by simp, .inl rfl, .none⟩
      | cons arg rest =>
          rw [argumentDepth] at hdepth
          omega

theorem isSpelled_method (offset : Nat) {target : Expr} (name : String) {args : List Expr}
    (htarget : IsSpelled target) (hargs : ∀ arg ∈ args, IsSpelled arg) :
    IsSpelled (.method offset target name args) := by
  intro tokens htokens
  obtain ⟨before, suffix, rfl, hbefore, hsuffix⟩ := List.map_eq_append_iff.mp htokens
  obtain ⟨dot, suffix, rfl, hdot, hsuffix⟩ := List.map_eq_cons_iff.mp hsuffix
  obtain ⟨word, suffix, rfl, hword, hsuffix⟩ := List.map_eq_cons_iff.mp hsuffix
  obtain ⟨opening, suffix, rfl, hopening, hsuffix⟩ := List.map_eq_cons_iff.mp hsuffix
  obtain ⟨between, last, rfl, hbetween, hlast⟩ := List.map_eq_append_iff.mp hsuffix
  obtain ⟨closing, rfl, hclosing⟩ := List.map_eq_singleton_iff.mp hlast
  have hspelled := htarget.enclosed hbefore
  obtain ⟨expr, hbare, hderives⟩ := hspelled.derives
  obtain ⟨inner, found, hbares, hfound, hinner, hseparated⟩ := exists_arguments hargs
    (Nat.le_max_right (enclosedDepth target.category .operand target.depth) _) hbetween
  refine ⟨fun _ => hspelled.unnegated_append (by decide) _,
    .method word.offset expr name (found.map (·.2)), ?_, ?_⟩
  · rw [Expr.bare, Expr.bare, hbare, hbares]
  · exact .method (hderives.mono _ (Nat.le_max_left _ _)) (.sign hdot) hword (.sign hopening) hfound
      hinner hseparated (.sign hclosing)

theorem isSpelled_call (offset : Nat) {name : String} (hfree : name.toLower ∉ keywords)
    {args : List Expr} (hargs : ∀ arg ∈ args, IsSpelled arg) :
    IsSpelled (.call offset name args) := by
  intro tokens htokens
  obtain ⟨word, suffix, rfl, hword, hsuffix⟩ := List.map_eq_cons_iff.mp htokens
  obtain ⟨opening, suffix, rfl, hopening, hsuffix⟩ := List.map_eq_cons_iff.mp hsuffix
  obtain ⟨between, last, rfl, hbetween, hlast⟩ := List.map_eq_append_iff.mp hsuffix
  obtain ⟨closing, rfl, hclosing⟩ := List.map_eq_singleton_iff.mp hlast
  obtain ⟨inner, found, hbares, hfound, hinner, hseparated⟩ :=
    exists_arguments hargs (Nat.le_refl _) hbetween
  refine ⟨fun _ => unnegated_cons_of_word hword (notMem_operatorWords hfree .not),
    .call word.offset name (found.map (·.2)), ?_, ?_⟩
  · rw [Expr.bare, Expr.bare, hbares]
  · exact .call hword (notMem_valueWords hfree) (.sign hopening) hfound hinner hseparated
      (.sign hclosing)

/-! ### The round trip -/

/-- **The lexemes of a condition spell it**, and need as many levels as it nests. -/
theorem isSpelled_of_printable {expr : Expr} (hexpr : expr.Printable) : IsSpelled expr := by
  induction hexpr with
  | literal _ => exact isSpelled_literal _ _
  | named _ hfree => exact isSpelled_attribute _ hfree
  | property _ _ ih => exact isSpelled_property _ _ ih
  | method _ _ _ ih ihargs => exact isSpelled_method _ _ ih ihargs
  | index _ _ ih ihkey => exact isSpelled_index _ ih ihkey
  | call _ hfree _ ihargs => exact isSpelled_call _ hfree ihargs
  | not _ ih => exact isSpelled_not _ ih
  | binary _ _ ihleft ihright => exact isSpelled_binary _ _ ihleft ihright

/-- A text has at least as many tokens as the print of what it is read as. -/
theorem length_lexemes_le_of_parse {text : String} {tokens : List Token} {expr : Expr}
    (htokens : tokenize text.toList = .ok tokens) (hparse : Expr.parse text = .ok expr) :
    expr.lexemes.length ≤ tokens.length := by
  rw [parse_of_tokenize htokens] at hparse
  have hlength := length_enclosed_le_of_derives (derives_of_ofTokens hparse)
  rw [length_enclosed_disjunction] at hlength
  exact hlength

theorem exists_tokenize_print {quote : String → Char}
    (hquote : ∀ value, isQuote (quote value) = true) {expr : Expr} (hexpr : expr.Printable) :
    ∃ tokens, tokenize (expr.print quote).toList = .ok tokens ∧
      tokens.map Token.lexeme = expr.lexemes ∧ Short tokens := by
  have hreadable := isReadable_of_mem_lexemes hexpr
  obtain ⟨tokens, htokens, hlexemes⟩ := exists_tokenize_typedLine hquote
    fun lexeme hlexeme => (hreadable lexeme hlexeme).1
  refine ⟨tokens, ?_, hlexemes, ?_⟩
  · rw [Expr.print, String.toList_ofList]
    exact htokens
  · intro token htoken digits hdigits
    rw [← hlexemes] at hreadable
    exact (hreadable token.lexeme (List.mem_map_of_mem htoken)).2 digits hdigits

/-- **A printed condition is read back as it was, but for offsets**, exactly if it does not nest
deeper than conditions may. No text that is read as the same condition has fewer tokens, so no
parentheses are printed that it could do without. -/
theorem parse_print {quote : String → Char} (hquote : ∀ value, isQuote (quote value) = true)
    {expr : Expr} (hexpr : expr.Printable) :
    ((∃ found, Expr.parse (expr.print quote) = .ok found ∧ found.bare = expr.bare) ↔
      expr.nesting ≤ maxNesting) ∧
    ∀ text tokens found, tokenize text.toList = .ok tokens → Expr.parse text = .ok found →
      found.bare = expr.bare → expr.lexemes.length ≤ tokens.length := by
  obtain ⟨tokens, htokens, hlexemes, hshort⟩ := exists_tokenize_print hquote hexpr
  refine ⟨⟨?_, ?_⟩, ?_⟩
  · rintro ⟨found, hparse, hbare⟩
    rw [parse_of_tokenize htokens] at hparse
    have hlevels := enclosedDepth_le_of_derives (derives_of_ofTokens hparse)
    rw [enclosedDepth_disjunction, ← depth_bare, hbare, depth_bare] at hlevels
    exact Nat.succ_le_of_lt (Nat.lt_of_le_of_lt hlevels (by decide))
  · intro hnesting
    have hspelled := isSpelled_of_printable hexpr tokens hlexemes
    obtain ⟨found, hbare, hderives⟩ := hspelled.whole.derives
    refine ⟨found, ?_, hbare⟩
    rw [parse_of_tokenize htokens]
    exact ofTokens_of_derives hshort (hderives.mono _ (Nat.le_sub_one_of_lt hnesting))
  · intro text others found hothers hparse hbare
    rw [← lexemes_bare expr, ← hbare, lexemes_bare]
    exact length_lexemes_le_of_parse hothers hparse

/-- Parentheses that are needed, a member that is named like an operator, and escaped characters. -/
theorem parse_print_of_grouped_difference :
    ∃ found, Expr.parse "a . not ( 7 ) - ( b - 10 ) == '\\'\\\\\n'" = .ok found ∧
      found.bare = .binary 0
        (.binary 0 (.method 0 (.attribute 0 "a") "not" [.literal 0 (.number 7)]) .sub
          (.binary 0 (.attribute 0 "b") .sub (.literal 0 (.number 10))))
        .eq (.literal 0 (.text "'\\\n")) := by
  have hname : ∀ name ∈ ["a", "b"], isName name = true ∧ name.toLower ∉ keywords := by
    decide +kernel
  have hnumber : ∀ n ∈ [7, 10], (Expr.literal 0 (.number n)).Printable := by
    intro n hn
    refine .literal ?_
    rintro m ⟨⟩
    revert n
    decide +kernel
  have hprintable : (Expr.binary 0
      (.binary 0 (.method 0 (.attribute 0 "a") "not" [.literal 0 (.number 7)]) .sub
        (.binary 0 (.attribute 0 "b") .sub (.literal 0 (.number 10))))
      .eq (.literal 0 (.text "'\\\n"))).Printable := by
    refine .binary (.binary (.method (.named ?_ ?_) (by decide) ?_) (.binary (.named ?_ ?_) ?_))
      (.literal ?_)
    · exact (hname "a" (by decide)).1
    · exact (hname "a" (by decide)).2
    · simpa using hnumber 7 (by decide)
    · exact (hname "b" (by decide)).1
    · exact (hname "b" (by decide)).2
    · exact hnumber 10 (by decide)
    · rintro n ⟨⟩
  have hquote : ∀ value : String, isQuote ((fun _ => '\'') value) = true := fun _ => rfl
  exact (parse_print hquote hprintable).1.mpr (by decide +kernel)

end Archetype.Condition
