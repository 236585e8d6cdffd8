import Archetype.Condition.Issue
import Archetype.Text.Blank
import Archetype.Text.Digit

/-!
Tokens of a condition. Each is the longest lexeme at its place; blanks separate tokens and are not
tokens themselves.
-/

namespace Archetype.Condition

open Archetype.Text

inductive Lexeme where
  /-- A run of digits as it is written. -/
  | number (digits : List Char)
  /-- A quoted text, without its quotes and with its escapes resolved. -/
  | text (value : String)
  | word (name : String)
  | symbol (sign : Symbol)
deriving DecidableEq, Repr

structure Token where
  lexeme : Lexeme
  offset : Nat
deriving DecidableEq, Repr

/-- A lexeme as messages show it. -/
def Lexeme.shown : Lexeme → String
  | .number digits => String.ofList digits
  | .text value => value
  | .word name => name
  | .symbol sign => sign.text

def isQuote (c : Char) : Bool :=
  c == '"' || c == '\''

/-- Words are written in the basic alphabet. -/
def isWordStart (c : Char) : Bool :=
  c.isAlpha || c == '_'

def isWordPart (c : Char) : Bool :=
  c.isAlphanum || c == '_'

/-- The value of a quoted text, read after its opening quote, with the number of characters up to
and including the closing quote. A backslash stands before a character that is meant literally, but
not before a line feed. -/
def quotedValue? (quote : Char) : List Char → Option (List Char × Nat)
  | [] => none
  | '\\' :: c :: rest =>
    if c = '\n' then none
    else (quotedValue? quote rest).map fun (value, length) => (c :: value, length + 2)
  | c :: rest =>
    if c = quote then some ([], 1)
    else if c = '\\' then none
    else (quotedValue? quote rest).map fun (value, length) => (c :: value, length + 1)

/-- The lexeme at the front of a text, with the number of its characters after the first. -/
def Lexeme.front? : List Char → Option (Lexeme × Nat)
  | [] => none
  | c :: rest =>
    if isDigit c then
      let more := rest.takeWhile isDigit
      some (.number (c :: more), more.length)
    else if isQuote c then
      (quotedValue? c rest).map fun (value, length) => (.text (String.ofList value), length)
    else if isWordStart c then
      let more := rest.takeWhile isWordPart
      some (.word (String.ofList (c :: more)), more.length)
    else
      (Symbol.front? (c :: rest)).map fun (sign, length) => (.symbol sign, length)

/-- Why no lexeme starts with this character. -/
def noLexeme (c : Char) : Cause :=
  if isQuote c then .unterminatedText else .unexpectedCharacter c

/-- The tokens of a text that starts at `offset`, passing over its first `skip` characters. -/
def scan : List Char → (offset skip : Nat) → Except Issue (List Token)
  | [], _, _ => .ok []
  | _ :: rest, offset, skip + 1 => scan rest (offset + 1) skip
  | c :: rest, offset, 0 =>
    if isBlank c then
      scan rest (offset + 1) 0
    else
      match Lexeme.front? (c :: rest) with
      | none => .error ⟨noLexeme c, offset⟩
      | some (lexeme, more) => (scan rest (offset + 1) more).map (⟨lexeme, offset⟩ :: ·)

/-- The tokens of a condition, in the order of their offsets. -/
def tokenize (text : List Char) : Except Issue (List Token) :=
  scan text 0 0

end Archetype.Condition
