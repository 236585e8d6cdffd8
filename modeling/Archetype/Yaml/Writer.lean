import Archetype.Decimal.Text
import Archetype.Yaml.Timestamp

/-!
Documents written in block style with sorted keys. A text is written plain where that reads back as
the same text, else in single quotes, and in double quotes where it holds what cannot be seen. A key
that is empty, long or takes several lines stands behind a question mark on lines of its own.
-/

namespace Archetype.Yaml

/-- Line breaks inside a written text. A carriage return is no break there. -/
def isWrittenBreak (c : Char) : Bool :=
  c == '\n' || c == '\x85' || c == '\u2028' || c == '\u2029'

/-- Characters that stand for themselves outside double quotes. -/
def isWritable (c : Char) : Bool :=
  let n := c.toNat
  n == 0x0A || (0x20 ≤ n && n ≤ 0x7E) || n == 0x85 || (0xA0 ≤ n && n ≤ 0xD7FF) ||
    (0xE000 ≤ n && n ≤ 0xFFFD && n != 0xFEFF) || (0x10000 ≤ n && n < 0x10FFFF)

/-- Neighbours of a text that satisfy a relation. -/
def hasPair (related : Char → Char → Bool) : List Char → Bool
  | a :: b :: rest => related a b || hasPair related (b :: rest)
  | _ => false

def isSeparator (c : Char) : Bool :=
  c == '\x00' || c == ' ' || c == '\t' || c == '\r' || isWrittenBreak c

/-- Whether a text would be taken for structure if it were written plain: by how it starts, or by a
colon before a space or a sharp after one. -/
def looksLikeStructure (cs : List Char) : Bool :=
  let marks (mark : Char) : Bool := cs.take 3 == [mark, mark, mark]
  let startsBadly : Bool := match cs with
    | [] => false
    | c :: rest =>
      "#,[]\x7b\x7d&*!|>'\"%@\x60".toList.contains c ||
        ("?:-".toList.contains c && (match rest with
          | [] => true
          | d :: _ => isSeparator d))
  let endsWithColon : Bool := cs.length > 1 && cs.getLast? == some ':'
  marks '-' || marks '.' || startsBadly || endsWithColon ||
    hasPair (fun a b => a == ':' && isSeparator b) (cs.drop 1) ||
    hasPair (fun a b => isSeparator a && b == '#') cs

/-- Spaces or breaks at the ends of a text. -/
def hasLooseEnds (cs : List Char) : Bool :=
  let isLoose (c : Option Char) : Bool := c.any fun c => c == ' ' || isWrittenBreak c
  isLoose cs.head? || isLoose cs.getLast?

/-- Whether a text reads back when it is written plain. -/
def allowsPlain (cs : List Char) : Bool :=
  cs.all isWritable && !cs.any isWrittenBreak && !hasLooseEnds cs && !looksLikeStructure cs &&
    !isTimestamp cs && (match resolve (String.ofList cs) with
      | .ok (.text _) => true
      | _ => false)

/-- Whether a text reads back when it is written in single quotes. -/
def allowsSingleQuotes (cs : List Char) : Bool :=
  cs.all isWritable &&
    !hasPair (fun a b => a == ' ' && isWrittenBreak b || isWrittenBreak a && b == ' ') cs

/-- Longer lines are broken at the next space. -/
def lineWidth : Nat := 80

def spaces (count : Nat) : List Char :=
  List.replicate count ' '

/-- Writes a text from a column on. If lines are broken, a lone space behind the width of a line
becomes a line break. A single quote is written `quote` times. -/
def writeFolded (breaksLines : Bool) (indent : Nat) (quote : List Char) :
    (column : Nat) → (before : Option Char) → List Char → List Char
  | _, _, [] => []
  | column, before, c :: rest =>
    let continueAt (column : Nat) : List Char :=
      writeFolded breaksLines indent quote column (some c) rest
    if c = '\'' then
      quote ++ continueAt (column + quote.length)
    else
      let isLone := before.any (· != ' ') && rest.head?.any (· != ' ')
      let isLate := breaksLines && column > lineWidth
      if c = ' ' ∧ isLone ∧ isLate ∧ !(before.any isWrittenBreak) then
        '\n' :: spaces indent ++ continueAt indent
      else if isWrittenBreak c then
        let isFirst := !(before.any isWrittenBreak)
        let isLast := !(rest.head?.any isWrittenBreak)
        (if isFirst && c == '\n' then ['\n'] else []) ++ c ::
          (if isLast then spaces indent ++ continueAt indent else continueAt 0)
      else
        c :: continueAt (column + 1)

def escapeName? (c : Char) : Option Char :=
  match c with
  | '\x00' => some '0'
  | '\x07' => some 'a'
  | '\x08' => some 'b'
  | '\t' => some 't'
  | '\n' => some 'n'
  | '\x0b' => some 'v'
  | '\x0c' => some 'f'
  | '\r' => some 'r'
  | '\x1b' => some 'e'
  | '"' => some '"'
  | '\\' => some '\\'
  | '\x85' => some 'N'
  | '\xa0' => some '_'
  | '\u2028' => some 'L'
  | '\u2029' => some 'P'
  | _ => none

/-- A number in upper-case hexadecimal of a width. -/
def codeDigits (width n : Nat) : List Char :=
  let digits := (Nat.toDigits 16 n).map Char.toUpper
  List.replicate (width - digits.length) '0' ++ digits

/-- The code of what does not stand for itself: two, four or eight digits. -/
def codeName (n : Nat) : List Char :=
  if n ≤ 0xFF then 'x' :: codeDigits 2 n
  else if n ≤ 0xFFFF then 'u' :: codeDigits 4 n
  else 'U' :: codeDigits 8 n

/-- How a character stands between double quotes. -/
def doubleQuotedChar (c : Char) : List Char :=
  let n := c.toNat
  let isPlain := c != '"' && c != '\\' && n != 0xFEFF && n != 0x2028 && n != 0x2029 &&
    ((0x20 ≤ n && n ≤ 0x7E) || (0xA0 ≤ n && n ≤ 0xD7FF) || (0xE000 ≤ n && n ≤ 0xFFFD))
  if isPlain then [c]
  else match escapeName? c with
    | some name => ['\\', name]
    | none => '\\' :: codeName n

def doubleQuotedPoint : CodePoint → List Char
  | .char c => doubleQuotedChar c
  | .half h => '\\' :: codeName (CodePoint.half h).code

/-- The end of a line between double quotes, and the start of the next one before `next`: a space
there has a backslash in front. -/
def brokenLine (indent : Nat) (next : Option CodePoint) : List Char :=
  '\\' :: '\n' :: spaces indent ++ if next == some (.char ' ') then ['\\'] else []

/-- Writes what stands between double quotes. If lines are broken, a backslash breaks one behind its
width: before a space, before what follows an escape, or after an escape. The first and the last
code point are not cut off. -/
def writeDoubleQuoted (breaksLines : Bool) (indent : Nat) :
    (column : Nat) → (isFirst afterEscape : Bool) → List CodePoint → List Char
  | _, _, _, [] => []
  | column, isFirst, afterEscape, point :: rest =>
    let written := doubleQuotedPoint point
    let isInner := breaksLines && !isFirst && !rest.isEmpty
    let continueAt (column : Nat) (isEscape : Bool) : List Char :=
      writeDoubleQuoted breaksLines indent column false isEscape rest
    if written.length > 1 then
      let column := column + written.length
      if isInner && column > lineWidth + 1 then
        let line := brokenLine indent rest.head?
        written ++ line ++
          continueAt (indent + if rest.head? == some (.char ' ') then 1 else 0) true
      else
        written ++ continueAt column true
    else if isInner && (point == .char ' ' || afterEscape) && column > lineWidth then
      brokenLine indent (some point) ++ written ++
        continueAt (indent + if point == .char ' ' then 2 else 1) false
    else
      written ++ continueAt (column + 1) false

/-- A text from a column on; continued lines are indented. -/
def writeText (breaksLines : Bool) (indent column : Nat) (text : Text) : List Char :=
  let doubleQuoted :=
    '"' :: writeDoubleQuoted breaksLines indent (column + 1) true false text.points ++ ['"']
  match text.chars? with
  | none => doubleQuoted
  | some cs =>
    if allowsPlain cs then
      writeFolded breaksLines indent ['\''] column none cs
    else if allowsSingleQuotes cs then
      '\'' :: writeFolded breaksLines indent ['\'', '\''] (column + 1) none cs ++ ['\'']
    else
      doubleQuoted

/-- A number with a point; the mantissa of an exponent has one too. -/
def writeFloat (x : Float) : List Char :=
  match Decimal.Binary64.ofFloat x with
  | .nan => ".nan".toList
  | .infinite negative => (if negative then "-.inf" else ".inf").toList
  | number =>
    let written := number.write
    if written.contains '.' then written
    else written.flatMap fun c => if c = 'e' then ['.', '0', 'e'] else [c]

def writeScalar (breaksLines : Bool) (indent column : Nat) : Datum → List Char
  | .null => "null".toList
  | .bool true => "true".toList
  | .bool false => "false".toList
  | .int n => (toString n).toList
  | .float x => writeFloat x
  | .text s => writeText breaksLines indent column s
  | .list _ => "[]".toList
  | .map _ => "\x7b\x7d".toList

/-- The content of a scalar without quotes and line breaks. -/
def scalarContent : Datum → Text
  | .text text => text
  | datum => .ofChars (writeScalar false 0 0 datum)

/-- The tag of a scalar, which counts as part of a key. -/
def scalarTag : Datum → String
  | .null => "!!null"
  | .bool _ => "!!bool"
  | .int _ => "!!int"
  | .float _ => "!!float"
  | _ => "!!str"

/-- A key that stands on a line with its value is shorter than this together with its tag. -/
def keyWidth : Nat := 128

/-- Whether a key stands on a line with its value. -/
def isSimpleKey (key : Datum) : Bool :=
  let content := (scalarContent key).points
  !content.isEmpty && !content.any (fun point => point.char?.any isWrittenBreak) &&
    (scalarTag key).length + content.length < keyWidth

/-- Whether a datum takes lines of its own. -/
def isBlock : Datum → Bool
  | .list items => !items.isEmpty
  | .map entries => !entries.isEmpty
  | _ => false

/-- Whether one text stands before another or is the same. -/
def textAtMost (a b : Datum × Datum) : Bool :=
  match a.1, b.1 with
  | .text x, .text y => !y.isBefore x
  | _, _ => true

/-- Whether one number is not above another. -/
def numberAtMost (a b : Datum × Datum) : Bool :=
  match a.1.number?, b.1.number? with
  | some x, some y => !y.less x
  | _, _ => true

/-- Entries sorted by their keys. Keys that are not all texts or all numbers keep their order. -/
def sortEntries (entries : List (Datum × Datum)) : List (Datum × Datum) :=
  let isText : Datum → Bool
    | .text _ => true
    | _ => false
  if entries.all fun (key, _) => isText key then entries.mergeSort textAtMost
  else if entries.all fun (key, _) => key.number?.isSome then entries.mergeSort numberAtMost
  else entries

mutual

/-- The same datum with the entries of all its mappings sorted. -/
def sortKeys : Datum → Datum
  | .list items => .list (sortAll items)
  | .map entries => .map (sortEntries (sortValues entries))
  | datum => datum

def sortAll : List Datum → List Datum
  | [] => []
  | item :: rest => sortKeys item :: sortAll rest

def sortValues : List (Datum × Datum) → List (Datum × Datum)
  | [] => []
  | (key, value) :: rest => (key, sortKeys value) :: sortValues rest

end

mutual

/-- The lines of a datum whose first line starts at the column of its indentation. -/
def writeLines (indent : Nat) : Datum → List Char
  | .list items => writeItems indent items
  | .map entries => writeEntries indent entries
  | datum => writeScalar true (indent + 2) indent datum ++ ['\n']

/-- A nonempty sequence: its items behind dashes, the first of which is indented already. -/
def writeItems (indent : Nat) : List Datum → List Char
  | [] => []
  | item :: rest =>
    let content :=
      if isBlock item then writeLines (indent + 2) item
      else writeScalar true (indent + 2) (indent + 2) item ++ ['\n']
    let others := if rest.isEmpty then [] else spaces indent ++ writeItems indent rest
    '-' :: ' ' :: content ++ others

/-- A nonempty mapping: its entries, the first of which is indented already. -/
def writeEntries (indent : Nat) : List (Datum × Datum) → List Char
  | [] => []
  | (key, value) :: rest =>
    let isSimple := isSimpleKey key
    let front :=
      if isSimple then writeScalar false (indent + 2) indent key
      else '?' :: ' ' :: writeScalar true (indent + 2) (indent + 2) key ++ '\n' :: spaces indent
    let content :=
      if isBlock value && isSimple then
        let inner := match value with
          | .map _ => indent + 2
          | _ => indent
        '\n' :: spaces inner ++ writeLines inner value
      else if isBlock value then
        ' ' :: writeLines (indent + 2) value
      else
        let column := if isSimple then indent + front.length else indent
        ' ' :: writeScalar true (indent + 2) (column + 2) value ++ ['\n']
    let others := if rest.isEmpty then [] else spaces indent ++ writeEntries indent rest
    front ++ ':' :: content ++ others

end

/-- The document of a datum. -/
def write (datum : Datum) : String :=
  String.ofList (writeLines 0 (sortKeys datum))

end Archetype.Yaml
