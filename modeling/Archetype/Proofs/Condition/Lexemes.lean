import Mathlib.Data.List.TakeWhile
import Archetype.Condition.Token

/-!
# Lexemes and their spellings

How each kind of lexeme is spelled is said here without the scanner. At every place the scanner
takes the longest spelling of a lexeme that starts there, although it only looks at the first
character to choose a kind: no two kinds start alike, and a text between quotes has only one end. A
blank or the end of the text behind a spelling makes it the longest one.
-/

namespace Archetype.Condition

open Archetype.Text

/-- A name starts with a letter or a low line; letters, digits and low lines follow. -/
def isName (name : String) : Bool :=
  match name.toList with
  | [] => false
  | c :: rest => isWordStart c && rest.all isWordPart

/-- What stands between quotes, and the text that is meant. A backslash stands before any character
but a line feed, and the quote stands nowhere else. -/
inductive Body (quote : Char) : List Char → List Char → Prop
  | nil : Body quote [] []
  | plain {c : Char} {spelled value : List Char} (hquote : c ≠ quote) (hescape : c ≠ '\\')
      (hrest : Body quote spelled value) : Body quote (c :: spelled) (c :: value)
  | escaped {c : Char} {spelled value : List Char} (hfeed : c ≠ '\n')
      (hrest : Body quote spelled value) : Body quote ('\\' :: c :: spelled) (c :: value)

/-- How lexemes are spelled. -/
inductive Lexeme.Spelled : Lexeme → List Char → Prop
  | number {digits : List Char} (hne : digits ≠ []) (hdigits : ∀ c ∈ digits, isDigit c = true) :
      Spelled (.number digits) digits
  | text {quote : Char} {spelled value : List Char} (hquote : isQuote quote = true)
      (hbody : Body quote spelled value) :
      Spelled (.text (String.ofList value)) (quote :: (spelled ++ [quote]))
  | word {name : String} (hname : isName name = true) : Spelled (.word name) name.toList
  | symbol (sign : Symbol) : Spelled (.symbol sign) sign.text.toList

/-- A spelling of a lexeme stands in front of the rest of a text, where no lexeme is longer. -/
structure Lexeme.Leads (lexeme : Lexeme) (span rest : List Char) : Prop where
  spelled : lexeme.Spelled span
  longest : ∀ other longer, Lexeme.Spelled other longer → longer <+: span ++ rest →
    longer.length ≤ span.length

/-! ### Characters -/

theorem code_of_isDigit {c : Char} (hc : c.isDigit = true) : 0x30 ≤ c.toNat ∧ c.toNat < 0x3A := by
  simp only [Char.isDigit, Bool.and_eq_true, decide_eq_true_eq, UInt32.le_iff_toNat_le] at hc
  exact ⟨hc.1, Nat.lt_succ_of_le hc.2⟩

theorem code_of_isQuote {c : Char} (hc : isQuote c = true) : c.toNat = 0x22 ∨ c.toNat = 0x27 := by
  simp only [isQuote, Bool.or_eq_true, beq_iff_eq] at hc
  rcases hc with rfl | rfl
  · exact .inl rfl
  · exact .inr rfl

theorem isBlank_eq_false {c : Char} (hc : 0x21 ≤ c.toNat) (hbasic : c.toNat < 0x80) :
    isBlank c = false := by
  simp only [isBlank, Bool.or_eq_false_iff, Bool.and_eq_false_iff, decide_eq_false_iff_not,
    beq_eq_false_iff_ne]
  omega

theorem digitValue?_of_isDigit {c : Char} (hc : c.isDigit = true) :
    digitValue? c = some (c.toNat - '0'.toNat) := by
  have hrange := code_of_isDigit hc
  have hzeros : zeros = 0x30 :: zeros.tail := rfl
  rw [digitValue?, hzeros, List.find?_cons_of_pos (by simp [hrange])]
  rfl

theorem isDigit_of_isDigit {c : Char} (hc : c.isDigit = true) : isDigit c = true := by
  rw [isDigit, digitValue?_of_isDigit hc]
  rfl

/-- The other scripts have their digits behind the whole basic alphabet. -/
theorem isDigit_eq_false {c : Char} (hc : c.toNat < 0x30 ∨ 0x3A ≤ c.toNat)
    (hbasic : c.toNat < 0x80) : isDigit c = false := by
  have hzeros : ∀ first ∈ zeros, first = 0x30 ∨ 0x80 ≤ first := by decide
  have hnone : zeros.find? (fun first => first ≤ c.toNat && c.toNat < first + 10) = none := by
    rw [List.find?_eq_none]
    intro first hfirst
    have hrange := hzeros first hfirst
    simp only [Bool.and_eq_true, decide_eq_true_eq, not_and]
    omega
  rw [isDigit, digitValue?, hnone]
  rfl

theorem code_of_isWordStart {c : Char} (hc : isWordStart c = true) :
    0x41 ≤ c.toNat ∧ c.toNat < 0x80 := by
  change (decide (c.val ≥ 'A'.val ∧ c.val ≤ 'Z'.val) ||
    (decide (c.val ≥ 'a'.val) && decide (c.val ≤ 'z'.val)) || c == '_') = true at hc
  simp only [Bool.or_eq_true, Bool.and_eq_true, decide_eq_true_eq, ge_iff_le,
    UInt32.le_iff_toNat_le, beq_iff_eq] at hc
  rcases hc with (⟨hfirst, hlast⟩ | ⟨hfirst, hlast⟩) | rfl
  · exact ⟨hfirst, Nat.lt_of_le_of_lt hlast (by decide)⟩
  · exact ⟨Nat.le_trans (by decide) hfirst, Nat.lt_of_le_of_lt hlast (by decide)⟩
  · decide

theorem code_of_isWordPart {c : Char} (hc : isWordPart c = true) :
    0x30 ≤ c.toNat ∧ c.toNat < 0x80 := by
  have hkinds : (isWordStart c || c.isDigit) = true := by
    rw [isWordStart, Bool.or_right_comm]
    exact hc
  rcases Bool.or_eq_true_iff.mp hkinds with hstart | hdigit
  · have hcode := code_of_isWordStart hstart
    omega
  · have hcode := code_of_isDigit hdigit
    omega

theorem isBlank_of_isDigit {c : Char} (hc : isDigit c = true) : isBlank c = false := by
  have hzeros : ∀ first ∈ zeros, (0x20 < first ∧ first + 10 ≤ 0x85) ∨
      (0xA0 < first ∧ first + 10 ≤ 0x1680) ∨ (0x1680 < first ∧ first + 10 ≤ 0x2000) ∨
      0x3000 < first := by decide
  obtain ⟨value, hvalue⟩ := Option.isSome_iff_exists.mp hc
  obtain ⟨first, hfirst, -⟩ := Option.map_eq_some_iff.mp hvalue
  have hplace := hzeros first (List.mem_of_find?_eq_some hfirst)
  have hinside := List.find?_some hfirst
  simp only [Bool.and_eq_true, decide_eq_true_eq] at hinside
  simp only [isBlank, Bool.or_eq_false_iff, Bool.and_eq_false_iff, decide_eq_false_iff_not,
    beq_eq_false_iff_ne]
  omega

theorem isDigit_of_isQuote {c : Char} (hc : isQuote c = true) : isDigit c = false := by
  have hcode := code_of_isQuote hc
  exact isDigit_eq_false (.inl (by omega)) (by omega)

theorem isQuote_of_isDigit {c : Char} (hc : isDigit c = true) : isQuote c = false := by
  refine Bool.eq_false_iff.mpr fun hquote => ?_
  rw [isDigit_of_isQuote hquote] at hc
  cases hc

theorem isDigit_of_isWordStart {c : Char} (hc : isWordStart c = true) : isDigit c = false := by
  have hcode := code_of_isWordStart hc
  exact isDigit_eq_false (.inr (by omega)) hcode.2

theorem isQuote_of_isWordStart {c : Char} (hc : isWordStart c = true) : isQuote c = false := by
  have hcode := code_of_isWordStart hc
  refine Bool.eq_false_iff.mpr fun hquote => ?_
  have hother := code_of_isQuote hquote
  omega

theorem ne_escape_of_isQuote {quote : Char} (hquote : isQuote quote = true) : quote ≠ '\\' := by
  rintro rfl
  exact absurd hquote (by decide)

theorem exists_cons_of_isName {name : String} (hname : isName name = true) :
    ∃ c more, name.toList = c :: more ∧ isWordStart c = true ∧ ∀ d ∈ more, isWordPart d = true := by
  unfold isName at hname
  cases hchars : name.toList with
  | nil =>
      rw [hchars] at hname
      cases hname
  | cons c more =>
      rw [hchars, Bool.and_eq_true, List.all_eq_true] at hname
      exact ⟨c, more, rfl, hname⟩

theorem isName_ofList {c : Char} {more : List Char} (hc : isWordStart c = true)
    (hmore : ∀ d ∈ more, isWordPart d = true) : isName (String.ofList (c :: more)) = true := by
  rw [isName, String.toList_ofList]
  exact Bool.and_eq_true_iff.mpr ⟨hc, List.all_eq_true.mpr hmore⟩

/-! ### Texts between quotes -/

theorem quotedValue?_of_body {quote : Char} (hquote : quote ≠ '\\') {spelled value : List Char}
    (hbody : Body quote spelled value) (rest : List Char) :
    quotedValue? quote (spelled ++ quote :: rest) = some (value, spelled.length + 1) := by
  induction hbody with
  | nil =>
      rw [List.nil_append, quotedValue?]
      · rw [if_pos rfl]
        rfl
      · exact fun c others hsame => absurd hsame hquote
  | plain hother hescape _ ih =>
      rw [List.cons_append, quotedValue?]
      · rw [if_neg hother, if_neg hescape, ih]
        rfl
      · exact fun c others hsame => absurd hsame hescape
  | escaped hfeed _ ih =>
      rw [List.cons_append, List.cons_append, quotedValue?, if_neg hfeed, ih]
      rfl

theorem exists_body_of_quotedValue? {quote : Char} {text value : List Char} {length : Nat}
    (hvalue : quotedValue? quote text = some (value, length)) : ∃ spelled rest,
      text = spelled ++ quote :: rest ∧ length = spelled.length + 1 ∧ Body quote spelled value := by
  fun_induction quotedValue? quote text generalizing value length with
  | case1 => cases hvalue
  | case2 => cases hvalue
  | case3 c rest hfeed ih =>
      obtain ⟨⟨others, more⟩, hothers, hpair⟩ := Option.map_eq_some_iff.mp hvalue
      cases hpair
      obtain ⟨spelled, later, rfl, rfl, hbody⟩ := ih hothers
      exact ⟨_, later, rfl, rfl, .escaped hfeed hbody⟩
  | case4 rest =>
      cases hvalue
      exact ⟨[], rest, rfl, rfl, .nil⟩
  | case5 => cases hvalue
  | case6 c rest _ hother hescape ih =>
      obtain ⟨⟨others, more⟩, hothers, hpair⟩ := Option.map_eq_some_iff.mp hvalue
      cases hpair
      obtain ⟨spelled, later, rfl, rfl, hbody⟩ := ih hothers
      exact ⟨_, later, rfl, rfl, .plain hother hescape hbody⟩

/-- A text has one end: the first quote without a backslash. -/
theorem length_eq_of_bodies {quote : Char} (hquote : isQuote quote = true)
    {spelled value rest way meant later : List Char} (hbody : Body quote spelled value)
    (hother : Body quote way meant) (hsame : way ++ quote :: later = spelled ++ quote :: rest) :
    way.length = spelled.length := by
  have hescape := ne_escape_of_isQuote hquote
  have hvalue := quotedValue?_of_body hescape hbody rest
  rw [← hsame, quotedValue?_of_body hescape hother later] at hvalue
  exact Nat.succ.inj (congrArg Prod.snd (Option.some.inj hvalue))

/-! ### The front of a text -/

theorem exists_append_of_front?_symbol {text : List Char} {sign : Symbol} {more : Nat}
    (hfront : Symbol.front? text = some (sign, more)) :
    ∃ rest, text = sign.text.toList ++ rest ∧ sign.text.toList.length = more + 1 := by
  unfold Symbol.front? at hfront
  split at hfront <;> cases hfront <;> exact ⟨_, rfl, rfl⟩

/-- A sign is found, or a longer one that starts with it. -/
theorem exists_front?_symbol_append (sign : Symbol) (rest : List Char) : ∃ other more,
    Symbol.front? (sign.text.toList ++ rest) = some (other, more) ∧
      sign.text.toList.length ≤ more + 1 ∧
      (sign.text.toList.length = more + 1 → other = sign) := by
  by_cases hequals : ∃ others, rest = '=' :: others
  · obtain ⟨others, rfl⟩ := hequals
    cases sign <;> exact ⟨_, _, rfl, by decide, by decide⟩
  · have hnext : ∀ others, rest ≠ '=' :: others := not_exists.mp hequals
    refine ⟨sign, sign.text.toList.length - 1, ?_, ?_, fun _ => rfl⟩
    · cases sign with
      | not =>
          change Symbol.front? ('!' :: rest) = _
          rw [Symbol.front?]
          · rfl
          · exact hnext
      | lt =>
          change Symbol.front? ('<' :: rest) = _
          rw [Symbol.front?]
          · rfl
          · exact hnext
      | gt =>
          change Symbol.front? ('>' :: rest) = _
          rw [Symbol.front?]
          · rfl
          · exact hnext
      | _ => rfl
    · exact Nat.sub_le_iff_le_add.mp (Nat.le_refl _)

theorem exists_cons_of_symbol (sign : Symbol) : ∃ c more, sign.text.toList = c :: more ∧
    isBlank c = false ∧ isDigit c = false ∧ isQuote c = false ∧ isWordStart c = false := by
  cases sign <;> exact ⟨_, _, rfl, by decide +kernel⟩

/-- What is found at the front of a text is spelled there. -/
theorem exists_spelled_of_front? {text : List Char} {lexeme : Lexeme} {more : Nat}
    (hfront : Lexeme.front? text = some (lexeme, more)) :
    ∃ span rest, text = span ++ rest ∧ span.length = more + 1 ∧ lexeme.Spelled span := by
  cases text with
  | nil => cases hfront
  | cons c rest =>
      rw [Lexeme.front?] at hfront
      split at hfront
      · next hdigit =>
        cases hfront
        refine ⟨c :: rest.takeWhile isDigit, rest.dropWhile isDigit, ?_, rfl, ?_⟩
        · rw [List.cons_append, List.takeWhile_append_dropWhile]
        · refine .number (List.cons_ne_nil _ _) (List.forall_mem_cons.mpr ⟨hdigit, ?_⟩)
          exact fun d hd => List.mem_takeWhile_imp hd
      · split at hfront
        · next hquote =>
          obtain ⟨⟨value, length⟩, hvalue, hpair⟩ := Option.map_eq_some_iff.mp hfront
          cases hpair
          obtain ⟨spelled, later, rfl, rfl, hbody⟩ := exists_body_of_quotedValue? hvalue
          exact ⟨c :: (spelled ++ [c]), later, by simp, by simp, .text hquote hbody⟩
        · split at hfront
          · next hword =>
            cases hfront
            refine ⟨c :: rest.takeWhile isWordPart, rest.dropWhile isWordPart, ?_, rfl, ?_⟩
            · rw [List.cons_append, List.takeWhile_append_dropWhile]
            · have hname := isName_ofList hword fun d (hd : d ∈ rest.takeWhile isWordPart) =>
                List.mem_takeWhile_imp hd
              have hspelled := Lexeme.Spelled.word hname
              rwa [String.toList_ofList] at hspelled
          · obtain ⟨⟨sign, length⟩, hsign, hpair⟩ := Option.map_eq_some_iff.mp hfront
            cases hpair
            obtain ⟨later, hlater, hlength⟩ := exists_append_of_front?_symbol hsign
            exact ⟨_, later, hlater, hlength, .symbol sign⟩

/-- Where a lexeme is spelled, it is found or a longer one is. -/
theorem exists_front?_of_spelled {lexeme : Lexeme} {span : List Char}
    (hspelled : lexeme.Spelled span) (rest : List Char) : ∃ other more,
      Lexeme.front? (span ++ rest) = some (other, more) ∧ span.length ≤ more + 1 ∧
        (span.length = more + 1 → other = lexeme) := by
  cases hspelled with
  | number hne hdigits =>
      obtain ⟨c, more, rfl⟩ := List.exists_cons_of_ne_nil hne
      obtain ⟨hc, hmore⟩ := List.forall_mem_cons.mp hdigits
      have htake : (more ++ rest).takeWhile isDigit = more ++ rest.takeWhile isDigit :=
        List.takeWhile_append_of_pos hmore
      refine ⟨.number (c :: (more ++ rest.takeWhile isDigit)),
        (more ++ rest.takeWhile isDigit).length, ?_, by simp, ?_⟩
      · rw [List.cons_append, Lexeme.front?, if_pos hc]
        dsimp only
        rw [htake]
      · intro hlength
        have hnothing : rest.takeWhile isDigit = [] := by
          simpa using hlength
        rw [hnothing, List.append_nil]
  | @text quote spelled value hquote hbody =>
      have hvalue := quotedValue?_of_body (ne_escape_of_isQuote hquote) hbody rest
      refine ⟨_, spelled.length + 1, ?_, by simp, fun _ => rfl⟩
      rw [List.cons_append, List.append_assoc, List.singleton_append, Lexeme.front?,
        if_neg (by simp [isDigit_of_isQuote hquote]), if_pos hquote, hvalue]
      rfl
  | @word name hname =>
      obtain ⟨c, more, hchars, hc, hmore⟩ := exists_cons_of_isName hname
      have htake : (more ++ rest).takeWhile isWordPart = more ++ rest.takeWhile isWordPart :=
        List.takeWhile_append_of_pos hmore
      rw [hchars]
      refine ⟨.word (String.ofList (c :: (more ++ rest.takeWhile isWordPart))),
        (more ++ rest.takeWhile isWordPart).length, ?_, by simp, ?_⟩
      · rw [List.cons_append, Lexeme.front?, if_neg (by simp [isDigit_of_isWordStart hc]),
          if_neg (by simp [isQuote_of_isWordStart hc]), if_pos hc]
        dsimp only
        rw [htake]
      · intro hlength
        have hnothing : rest.takeWhile isWordPart = [] := by
          simpa using hlength
        rw [hnothing, List.append_nil, ← hchars, String.ofList_toList]
  | symbol sign =>
      obtain ⟨other, more, hfront, hlength, hsame⟩ := exists_front?_symbol_append sign rest
      obtain ⟨c, others, hchars, -, hdigit, hquote, hword⟩ := exists_cons_of_symbol sign
      refine ⟨.symbol other, more, ?_, hlength, fun hequal => by rw [hsame hequal]⟩
      rw [hchars, List.cons_append] at hfront ⊢
      rw [Lexeme.front?, if_neg (by simp [hdigit]), if_neg (by simp [hquote]),
        if_neg (by simp [hword]), hfront]
      rfl

/-- **The scanner finds the longest lexeme at the front of a text.** -/
theorem front?_eq_some_iff {text : List Char} {lexeme : Lexeme} {more : Nat} :
    Lexeme.front? text = some (lexeme, more) ↔
      ∃ span rest, text = span ++ rest ∧ span.length = more + 1 ∧ lexeme.Leads span rest := by
  constructor
  · intro hfront
    obtain ⟨span, rest, rfl, hlength, hspelled⟩ := exists_spelled_of_front? hfront
    refine ⟨span, rest, rfl, hlength, hspelled, ?_⟩
    rintro other longer hother ⟨later, hlater⟩
    obtain ⟨found, count, hfound, hbound, -⟩ := exists_front?_of_spelled hother later
    rw [hlater, hfront] at hfound
    cases hfound
    omega
  · rintro ⟨span, rest, rfl, hlength, hleads⟩
    obtain ⟨other, count, hfront, hbound, hsame⟩ := exists_front?_of_spelled hleads.spelled rest
    obtain ⟨longer, later, hsplit, hlonger, hother⟩ := exists_spelled_of_front? hfront
    have hshort := hleads.longest other longer hother ⟨later, hsplit.symm⟩
    have hequal : count = more := by omega
    rw [hfront, hequal, hsame (by omega)]

/-- **It finds nothing only where no lexeme starts.** -/
theorem front?_eq_none_iff {text : List Char} :
    Lexeme.front? text = none ↔
      ∀ lexeme span, Lexeme.Spelled lexeme span → ¬ span <+: text := by
  constructor
  · rintro hnone lexeme span hspelled ⟨rest, rfl⟩
    obtain ⟨other, more, hfront, -⟩ := exists_front?_of_spelled hspelled rest
    rw [hnone] at hfront
    cases hfront
  · intro hall
    cases hfront : Lexeme.front? text with
    | none => rfl
    | some found =>
        obtain ⟨span, rest, rfl, -, hspelled⟩ := exists_spelled_of_front? hfront
        exact absurd ⟨rest, rfl⟩ (hall _ span hspelled)

/-! ### Spellings that stay apart -/

/-- A spelling is a text between quotes, or it starts with no quote and has no blanks in it. -/
theorem quoted_or_plain_of_spelled {lexeme : Lexeme} {span : List Char}
    (hspelled : lexeme.Spelled span) :
    (∃ quote spelled value, span = quote :: (spelled ++ [quote]) ∧ isQuote quote = true ∧
      Body quote spelled value) ∨
      ∃ c more, span = c :: more ∧ isQuote c = false ∧ ∀ d ∈ span, isBlank d = false := by
  cases hspelled with
  | number hne hdigits =>
      obtain ⟨c, more, rfl⟩ := List.exists_cons_of_ne_nil hne
      have hquote := isQuote_of_isDigit (hdigits c List.mem_cons_self)
      exact .inr ⟨c, more, rfl, hquote, fun d hd => isBlank_of_isDigit (hdigits d hd)⟩
  | text hquote hbody => exact .inl ⟨_, _, _, rfl, hquote, hbody⟩
  | word hname =>
      obtain ⟨c, more, hchars, hc, hmore⟩ := exists_cons_of_isName hname
      refine .inr ⟨c, more, hchars, isQuote_of_isWordStart hc, ?_⟩
      rw [hchars, List.forall_mem_cons]
      constructor
      · have hcode := code_of_isWordStart hc
        exact isBlank_eq_false (by omega) hcode.2
      · intro d hd
        have hcode := code_of_isWordPart (hmore d hd)
        exact isBlank_eq_false (by omega) hcode.2
  | symbol sign =>
      obtain ⟨c, more, hchars, -, -, hquote, -⟩ := exists_cons_of_symbol sign
      have hsign : sign.text.toList.any isBlank = false := by cases sign <;> decide
      refine .inr ⟨c, more, hchars, hquote, fun d hd => ?_⟩
      exact Bool.eq_false_iff.mpr (List.any_eq_false.mp hsign d hd)

theorem exists_cons_of_spelled {lexeme : Lexeme} {span : List Char}
    (hspelled : lexeme.Spelled span) : ∃ c more, span = c :: more ∧ isBlank c = false := by
  rcases quoted_or_plain_of_spelled hspelled with
    ⟨quote, _, _, hspan, hquote, -⟩ | ⟨c, more, hspan, -, hplain⟩
  · have hcode := code_of_isQuote hquote
    exact ⟨quote, _, hspan, isBlank_eq_false (by omega) (by omega)⟩
  · exact ⟨c, more, hspan, hplain c (by rw [hspan]; exact List.mem_cons_self)⟩

theorem length_pos_of_spelled {lexeme : Lexeme} {span : List Char}
    (hspelled : lexeme.Spelled span) : 0 < span.length := by
  obtain ⟨c, more, rfl, -⟩ := exists_cons_of_spelled hspelled
  exact Nat.succ_pos _

/-- What is cut off behind a text takes nothing from the lexeme at its front. -/
theorem Lexeme.Leads.of_append {lexeme : Lexeme} {span rest tail : List Char}
    (hleads : lexeme.Leads span (rest ++ tail)) : lexeme.Leads span rest where
  spelled := hleads.spelled
  longest other longer hother hfront := by
    refine hleads.longest other longer hother (hfront.trans ?_)
    rw [← List.append_assoc]
    exact List.prefix_append _ _

/-- **A lexeme stays apart from a blank behind it**, and from the end of the text. -/
theorem leads_of_blank {lexeme : Lexeme} {span rest : List Char} (hspelled : lexeme.Spelled span)
    (hrest : ∀ c, rest.head? = some c → isBlank c = true) : lexeme.Leads span rest := by
  refine ⟨hspelled, ?_⟩
  rintro other longer hother ⟨later, hlater⟩
  rcases quoted_or_plain_of_spelled hother with
    ⟨quote, way, meant, rfl, hquote, hmeant⟩ | ⟨_, _, -, -, hplain⟩
  · rcases quoted_or_plain_of_spelled hspelled with
      ⟨c, spelled, value, rfl, -, hbody⟩ | ⟨c, more, rfl, hc, -⟩
    · obtain ⟨rfl, -⟩ := List.cons.inj hlater
      have hsame : way ++ quote :: later = spelled ++ quote :: rest := by simpa using hlater
      have hlength := length_eq_of_bodies hquote hbody hmeant hsame
      simp [hlength]
    · obtain ⟨rfl, -⟩ := List.cons.inj hlater
      rw [hquote] at hc
      cases hc
  · -- A longer lexeme would have the blank in it.
    rcases List.append_eq_append_iff.mp hlater with
      ⟨between, hshort, -⟩ | ⟨between, hlong, hbehind⟩
    · rw [hshort, List.length_append]
      omega
    · cases between with
      | nil => rw [hlong, List.append_nil]
      | cons e es =>
          have hblank := hrest e (by rw [hbehind]; rfl)
          rw [hplain e (by rw [hlong]; simp)] at hblank
          cases hblank

/-! ### One step of the scan -/

theorem scan_skip (more rest : List Char) (offset : Nat) :
    scan (more ++ rest) offset more.length = scan rest (offset + more.length) 0 := by
  induction more generalizing offset with
  | nil => rfl
  | cons c others ih =>
      rw [List.cons_append, List.length_cons, scan, ih, Nat.add_assoc, Nat.add_comm 1]

section Leads

variable {lexeme : Lexeme} {span rest : List Char} (hleads : lexeme.Leads span rest)
include hleads

theorem exists_front?_of_leads : ∃ c more, span = c :: more ∧ ¬ isBlank c = true ∧
    Lexeme.front? (c :: (more ++ rest)) = some (lexeme, more.length) := by
  obtain ⟨c, more, rfl, hblank⟩ := exists_cons_of_spelled hleads.spelled
  exact ⟨c, more, rfl, Bool.eq_false_iff.mp hblank,
    front?_eq_some_iff.mpr ⟨c :: more, rest, rfl, rfl, hleads⟩⟩

/-- **A lexeme that leads a text is the first token, and the scan goes on behind it.** -/
theorem scan_of_leads (offset : Nat) : scan (span ++ rest) offset 0 =
    (scan rest (offset + span.length) 0).map (⟨lexeme, offset⟩ :: ·) := by
  obtain ⟨c, more, rfl, hblank, hfront⟩ := exists_front?_of_leads hleads
  rw [List.cons_append, scan, if_neg hblank, hfront]
  dsimp only
  rw [scan_skip, List.length_cons, Nat.add_assoc, Nat.add_comm 1]

end Leads

/-- A spelling on its own has one token. -/
theorem scan_of_spelled {lexeme : Lexeme} {span : List Char} (hspelled : lexeme.Spelled span)
    (offset : Nat) : scan span offset 0 = .ok [⟨lexeme, offset⟩] := by
  have hleads : lexeme.Leads span [] := leads_of_blank hspelled (by simp)
  have hscan := scan_of_leads hleads offset
  rwa [List.append_nil] at hscan

theorem scan_blank {gap : List Char} (hgap : isBlankText gap = true) (rest : List Char)
    (offset : Nat) : scan (gap ++ rest) offset 0 = scan rest (offset + gap.length) 0 := by
  induction gap generalizing offset with
  | nil => rfl
  | cons c others ih =>
      obtain ⟨hc, hothers⟩ := Bool.and_eq_true_iff.mp hgap
      rw [List.cons_append, scan, if_pos hc, ih hothers, List.length_cons, Nat.add_assoc,
        Nat.add_comm 1]

end Archetype.Condition
