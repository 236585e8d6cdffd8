import Mathlib.Data.List.Basic
import Archetype.Proofs.Condition.Lexemes

/-!
# Typed tokens

Tokens that are typed with a space between each two are found again. Each is typed in one of the
spellings of its lexeme, for a quote within a text has a backslash in front; and a space behind a
spelling keeps it apart from what was typed next.
-/

namespace Archetype.Condition

open Archetype.Text

/-- A character of a text as it is typed between quotes. -/
def escaped (quote c : Char) : List Char :=
  if c = quote ∨ c = '\\' then ['\\', c] else [c]

/-- A lexeme as it is typed. Which quotes stand around a text may depend on the text. -/
def Lexeme.typed (quote : String → Char) : Lexeme → List Char
  | .number digits => digits
  | .text value => quote value :: (value.toList.flatMap (escaped (quote value)) ++ [quote value])
  | .word name => name.toList
  | .symbol sign => sign.text.toList

/-- Lexemes with a space between each two. -/
def typedLine (quote : String → Char) : List Lexeme → List Char
  | [] => []
  | [lexeme] => lexeme.typed quote
  | lexeme :: rest => lexeme.typed quote ++ ' ' :: typedLine quote rest

/-- Lexemes that are found again as they are typed: any text and sign, digits of the basic alphabet
and names. -/
def Lexeme.IsTypable : Lexeme → Prop
  | .number digits => digits ≠ [] ∧ ∀ c ∈ digits, c.isDigit = true
  | .text _ => True
  | .word name => isName name = true
  | .symbol _ => True

/-- The value of digits of the basic alphabet. -/
theorem numeralValue_eq_ofDigitChars {digits : List Char}
    (hdigits : ∀ c ∈ digits, c.isDigit = true) :
    numeralValue digits = Nat.ofDigitChars 10 digits 0 := by
  rw [numeralValue, Nat.ofDigitChars]
  refine List.foldl_ext _ _ _ ?_
  intro value c hc
  rw [digitValue?_of_isDigit (hdigits c hc)]
  rfl

/-! ### Typed lexemes are spelled -/

theorem body_escaped {quote : Char} (hquote : isQuote quote = true) (value : List Char) :
    Body quote (value.flatMap (escaped quote)) value := by
  induction value with
  | nil => exact .nil
  | cons c others ih =>
      rw [List.flatMap_cons]
      by_cases hc : c = quote ∨ c = '\\'
      · have hfeed : c ≠ '\n' := by
          rintro rfl
          rcases hc with rfl | hescape
          · exact absurd hquote (by decide)
          · exact absurd hescape (by decide)
        rw [escaped, if_pos hc]
        exact .escaped hfeed ih
      · obtain ⟨hother, hescape⟩ := not_or.mp hc
        rw [escaped, if_neg hc]
        exact .plain hother hescape ih

section Typed

variable {quote : String → Char} (hquote : ∀ value, isQuote (quote value) = true)
include hquote

theorem spelled_typed {lexeme : Lexeme} (hlexeme : lexeme.IsTypable) :
    lexeme.Spelled (lexeme.typed quote) := by
  cases lexeme with
  | number digits =>
      obtain ⟨hne, hdigits⟩ := hlexeme
      exact .number hne fun c hc => isDigit_of_isDigit (hdigits c hc)
  | text value =>
      have hspelled := Lexeme.Spelled.text (hquote value) (body_escaped (hquote value) value.toList)
      rwa [String.ofList_toList] at hspelled
  | word name => exact .word hlexeme
  | symbol sign => exact .symbol sign

/-- **Typed lexemes are the tokens of the text that they make.** -/
theorem exists_scan_typedLine {lexemes : List Lexeme}
    (hlexemes : ∀ lexeme ∈ lexemes, lexeme.IsTypable) : ∀ offset,
      ∃ tokens, scan (typedLine quote lexemes) offset 0 = .ok tokens ∧
        tokens.map (·.lexeme) = lexemes := by
  induction lexemes with
  | nil =>
      intro offset
      exact ⟨[], rfl, rfl⟩
  | cons lexeme rest ih =>
      intro offset
      obtain ⟨hlexeme, hlater⟩ := List.forall_mem_cons.mp hlexemes
      have hspelled := spelled_typed hquote hlexeme
      cases rest with
      | nil => exact ⟨_, scan_of_spelled hspelled offset, rfl⟩
      | cons next others =>
          obtain ⟨tokens, htokens, hsame⟩ := ih hlater (offset + (lexeme.typed quote).length + 1)
          have hspace : isBlank ' ' = true := by decide
          have hleads : lexeme.Leads (lexeme.typed quote)
              (' ' :: typedLine quote (next :: others)) :=
            leads_of_blank hspelled (by simpa using hspace)
          refine ⟨⟨lexeme, offset⟩ :: tokens, ?_, by rw [List.map_cons, hsame]⟩
          rw [typedLine, scan_of_leads hleads, scan, if_pos hspace, htokens]
          · rfl
          · exact List.cons_ne_nil next others

theorem exists_tokenize_typedLine {lexemes : List Lexeme}
    (hlexemes : ∀ lexeme ∈ lexemes, lexeme.IsTypable) :
    ∃ tokens, tokenize (typedLine quote lexemes) = .ok tokens ∧ tokens.map (·.lexeme) = lexemes :=
  exists_scan_typedLine hquote hlexemes 0

end Typed

end Archetype.Condition
