import Archetype.Yaml.Scalar
import Archetype.Yaml.Source

/-!
Tokens of a document in YAML 1.1. Indentation opens and closes block collections. Whether a scalar
or a flow collection is a key is known only at the colon behind it, so the tokens of a key are put
in front of it then; a key stands on one line and is not long.

A fault stands among the tokens as the last one, at the place up to which tokens were settled before
it: the tokens behind a place where a key may have started wait for its colon.

The documents read here use block and flow collections, plain and quoted scalars and comments.
Anchors, aliases, tags, directives and block scalars are refused.
-/

namespace Archetype.Yaml

inductive Token where
  | plain (value : String)
  | quoted (value : Text)
  | blockSequence | blockMapping | blockEnd
  | flowSequence | flowSequenceEnd | flowMapping | flowMappingEnd
  /-- The dash of a block sequence. -/
  | dash
  | comma
  | key | value
  | documentStart | documentEnd
  /-- Why there are no more tokens before the end. -/
  | fault (fault : Fault)
deriving DecidableEq, Repr

/-- A place where a key may have started. -/
structure KeyStart where
  /-- How many tokens stand before the key. -/
  position : Nat
  /-- In a block mapping the line must turn out to be a key. -/
  required : Bool
  index : Nat
  line : Nat
  column : Nat

/-- The longest distance between a key and its colon. -/
def maxKeyLength : Nat := 1024

structure Scanner where
  source : Source
  rest : List Char
  /-- How many characters the whole text has. -/
  size : Nat
  index : Nat := 0
  line : Nat := 0
  column : Nat := 0
  /-- The tokens found so far, the newest first. -/
  tokens : List Token := []
  count : Nat := 0
  flowLevel : Nat := 0
  /-- The column of the innermost block collection; outside of all it is `-1`. -/
  indent : Int := -1
  outerIndents : List Int := []
  keyAllowed : Bool := true
  /-- The possible keys, one at most for each flow level. -/
  keys : List (Nat × KeyStart) := []

def isBreak (c : Char) : Bool :=
  c == '\n' || c == '\r' || c == '\x85' || c == '\u2028' || c == '\u2029'

def isSpaceOrBreak (c : Char) : Bool :=
  c == ' ' || c == '\t' || isBreak c

/-- Whether a text is at its end or goes on with a space or a line break. -/
def endsWord (cs : List Char) : Bool :=
  match cs with
  | [] => true
  | c :: _ => isSpaceOrBreak c

/-- A line of three dashes or three points that separates documents. -/
def startsDocumentMark (mark : Char) (cs : List Char) : Bool :=
  match cs with
  | a :: b :: c :: rest => a == mark && b == mark && c == mark && endsWord rest
  | _ => false

namespace Scanner

/-- How many characters are left. -/
def left (s : Scanner) : Nat :=
  s.size - s.index

/-- What is wrong where the text ends too early: the defect at which it breaks off, if it does. -/
def endFault (s : Scanner) : Fault :=
  s.source.defect.getD .malformed

/-- Passes over characters that hold no line break. A byte order mark takes no column. -/
def skip (s : Scanner) (count : Nat) : Scanner :=
  let columns := (s.rest.take count).countP (· != '\uFEFF')
  { s with rest := s.rest.drop count, index := s.index + count, column := s.column + columns }

/-- The line break in front, as it counts in a text, and the scanner behind it. -/
def lineBreak? (s : Scanner) : Option (Char × Scanner) :=
  let next (rest : List Char) (count : Nat) : Scanner :=
    { s with rest, index := s.index + count, line := s.line + 1, column := 0 }
  match s.rest with
  | '\r' :: '\n' :: rest => some ('\n', next rest 2)
  | c :: rest =>
    if c == '\u2028' || c == '\u2029' then some (c, next rest 1)
    else if isBreak c then some ('\n', next rest 1)
    else none
  | [] => none

def emit (s : Scanner) (token : Token) : Scanner :=
  { s with tokens := token :: s.tokens, count := s.count + 1 }

def inFlow (s : Scanner) : Bool :=
  s.flowLevel != 0

def atDocumentMark (s : Scanner) : Bool :=
  startsDocumentMark '-' s.rest || startsDocumentMark '.' s.rest

/-- Passes over spaces, comments and line breaks in front of a token. -/
def skipToToken : (fuel : Nat) → Scanner → Scanner
  | 0, s => s
  | fuel + 1, s =>
    let s := s.skip (s.rest.takeWhile (· == ' ')).length
    let s := if s.rest.head? == some '#' then
        s.skip (s.rest.takeWhile (!isBreak ·)).length
      else s
    match s.lineBreak? with
    | some (_, s) => skipToToken fuel (if s.inFlow then s else { s with keyAllowed := true })
    | none => s

/-- A possible key is given up at the end of its line or when it gets long; a required one must not
be given up. -/
def dropStaleKeys (s : Scanner) : Except Fault Scanner :=
  let isStale (key : KeyStart) : Bool :=
    key.line != s.line || s.index - key.index > maxKeyLength
  if s.keys.any fun (_, key) => isStale key && key.required then throw .malformed
  else return { s with keys := s.keys.filter fun (_, key) => !isStale key }

def keyHere? (s : Scanner) : Option KeyStart :=
  s.keys.lookup s.flowLevel

def forgetKey (s : Scanner) : Except Fault Scanner :=
  match s.keyHere? with
  | some key =>
    if key.required then throw .malformed
    else return { s with keys := s.keys.filter fun (level, _) => level != s.flowLevel }
  | none => return s

/-- Remembers that a key may start here. -/
def saveKey (s : Scanner) : Except Fault Scanner := do
  if s.keyAllowed then
    let required := !s.inFlow && s.indent == (s.column : Int)
    let s ← s.forgetKey
    let key : KeyStart := ⟨s.count, required, s.index, s.line, s.column⟩
    return { s with keys := (s.flowLevel, key) :: s.keys }
  else
    return s

/-- Closes the block collections that are further in than a column. -/
def unwind (s : Scanner) (column : Int) : Scanner :=
  if s.inFlow then s
  else
    let rec go (s : Scanner) : List Int → Scanner
      | [] => { s with outerIndents := [] }
      | outer :: rest =>
        if s.indent > column then
          go { s.emit .blockEnd with indent := outer, outerIndents := rest } rest
        else s
    go s s.outerIndents

/-- Opens a block collection at a column, unless one is open there. -/
def indentTo (s : Scanner) (column : Nat) : Bool × Scanner :=
  if s.indent < (column : Int) then
    (true, { s with indent := column, outerIndents := s.indent :: s.outerIndents })
  else
    (false, s)

/-- Puts tokens in front of those after the first `position` ones. -/
def insertAt (s : Scanner) (position : Nat) (inserted : List Token) : Scanner :=
  let behind := s.count - position
  { s with
    tokens := s.tokens.take behind ++ inserted.reverse ++ s.tokens.drop behind
    count := s.count + inserted.length }

def documentMark (s : Scanner) (token : Token) : Except Fault Scanner := do
  let s ← (s.unwind (-1)).forgetKey
  return ({ s with keyAllowed := false }.skip 3).emit token

def flowStart (s : Scanner) (token : Token) : Except Fault Scanner := do
  let s ← s.saveKey
  return ({ s with flowLevel := s.flowLevel + 1, keyAllowed := true }.skip 1).emit token

def flowEnd (s : Scanner) (token : Token) : Except Fault Scanner := do
  let s ← s.forgetKey
  if s.inFlow then
    return ({ s with flowLevel := s.flowLevel - 1, keyAllowed := false }.skip 1).emit token
  else
    throw .malformed

def comma (s : Scanner) : Except Fault Scanner := do
  let s ← { s with keyAllowed := true }.forgetKey
  return (s.skip 1).emit .comma

/-- Opens a block collection for a token that stands in one. -/
def openBlock (s : Scanner) (token : Token) : Except Fault Scanner :=
  if s.inFlow then return s
  else if s.keyAllowed then
    let (opened, s) := s.indentTo s.column
    return if opened then s.emit token else s
  else
    throw .malformed

def dash (s : Scanner) : Except Fault Scanner := do
  let s ← s.openBlock .blockSequence
  let s ← { s with keyAllowed := true }.forgetKey
  return (s.skip 1).emit .dash

def explicitKey (s : Scanner) : Except Fault Scanner := do
  let s ← s.openBlock .blockMapping
  let s ← { s with keyAllowed := !s.inFlow }.forgetKey
  return (s.skip 1).emit .key

/-- The colon after a key: the key may have started before, or may be left out. -/
def colon (s : Scanner) : Except Fault Scanner := do
  match s.keyHere? with
  | some key =>
    let s := { s with keys := s.keys.filter fun (level, _) => level != s.flowLevel }
    let (opened, s) := if s.inFlow then (false, s) else s.indentTo key.column
    let s := s.insertAt key.position (if opened then [.blockMapping, .key] else [.key])
    return ({ s with keyAllowed := false }.skip 1).emit .value
  | none =>
    let s ← s.openBlock .blockMapping
    let s ← { s with keyAllowed := !s.inFlow }.forgetKey
    return (s.skip 1).emit .value

/-- Whether a plain scalar can start here. -/
def startsPlain (s : Scanner) : Bool :=
  match s.rest with
  | [] => false
  | c :: rest =>
    let isIndicator := "-?:,[]\x7b\x7d#&*!|>'\"%@\x60".toList.contains c
    (!isSpaceOrBreak c && !isIndicator) ||
      (!endsWord rest && (c == '-' || (!s.inFlow && (c == '?' || c == ':'))))

/-- How many characters of a plain scalar follow without a space. -/
def plainLength (inFlow : Bool) : List Char → Nat
  | [] => 0
  | c :: rest =>
    let closesFlow := inFlow && (match rest with
      | d :: _ => ",[]\x7b\x7d".toList.contains d
      | [] => false)
    if isSpaceOrBreak c then 0
    else if c == ':' && (endsWord rest || closesFlow) then 0
    else if inFlow && ",?[]\x7b\x7d".toList.contains c then 0
    else plainLength inFlow rest + 1

/-- The line breaks and spaces in front, where a document mark ends the text. -/
def blankLines : (fuel : Nat) → Scanner → Option (List Char × Scanner)
  | 0, s => some ([], s)
  | fuel + 1, s =>
    match s.rest with
    | ' ' :: _ => blankLines fuel (s.skip 1)
    | _ =>
      match s.lineBreak? with
      | some (c, s) =>
        if s.atDocumentMark then none
        else (blankLines fuel s).map fun (breaks, s) => (c :: breaks, s)
      | none => some ([], s)

/-- A line break and those after it as they count in a text: one is a space, more are as many but
one. -/
def foldBreaks (first : Char) (others : List Char) : List Char :=
  if first != '\n' then first :: others
  else if others.isEmpty then [' ']
  else others

/-- What stands between two parts of a plain scalar. -/
def plainSpaces (s : Scanner) : List Char × Scanner :=
  let spaces := s.rest.takeWhile (· == ' ')
  let s := s.skip spaces.length
  match s.lineBreak? with
  | none => (spaces, s)
  | some (first, s) =>
    let s := { s with keyAllowed := true }
    if s.atDocumentMark then ([], s)
    else
      match blankLines s.left s with
      | none => ([], s)
      | some (others, s) => (foldBreaks first others, s)

/-- The parts of a plain scalar, with what stands between them. -/
def plainParts : (fuel : Nat) → (between : List Char) → Scanner → List Char × Scanner
  | 0, _, s => ([], s)
  | fuel + 1, between, s =>
    let length := if s.rest.head? == some '#' then 0 else plainLength s.inFlow s.rest
    if length = 0 then ([], s)
    else
      let part := s.rest.take length
      let (spaces, next) := plainSpaces ({ s with keyAllowed := false }.skip length)
      let ends := spaces.isEmpty || next.rest.head? == some '#' ||
        (!s.inFlow && (next.column : Int) < s.indent + 1)
      if ends then (between ++ part, next)
      else
        let (more, last) := plainParts fuel spaces next
        (between ++ part ++ more, last)

def plain (s : Scanner) : Except Fault Scanner := do
  let s ← s.saveKey
  let (value, s) := plainParts s.left [] { s with keyAllowed := false }
  return s.emit (.plain (String.ofList value))

def namedEscape? (c : Char) : Option Char :=
  match c with
  | '0' => some '\x00'
  | 'a' => some '\x07'
  | 'b' => some '\x08'
  | 't' | '\t' => some '\t'
  | 'n' => some '\n'
  | 'v' => some '\x0b'
  | 'f' => some '\x0c'
  | 'r' => some '\r'
  | 'e' => some '\x1b'
  | ' ' => some ' '
  | '"' => some '"'
  | '\\' => some '\\'
  | '/' => some '/'
  | 'N' => some '\x85'
  | '_' => some '\xa0'
  | 'L' => some '\u2028'
  | 'P' => some '\u2029'
  | _ => none

/-- How many hexadecimal digits follow the letter of an escape. -/
def escapeLength? (c : Char) : Option Nat :=
  match c with
  | 'x' => some 2
  | 'u' => some 4
  | 'U' => some 8
  | _ => none

/-- The code point of a code, which may be a half. Two halves that follow each other stay two. -/
def escapedPoint (code : Nat) : Except Fault CodePoint :=
  match CodePoint.ofCode? code with
  | some point => return point
  | none => throw (if code ≥ Nat.pow 2 31 then .escapeTooLarge else .noSuchCharacter)

/-- What a backslash with the characters behind it stands for, and how many they are. Nothing is
named if a line break must follow the backslash. -/
def escape? (s : Scanner) (behind : List Char) : Except Fault (Option (CodePoint × Nat)) :=
  match behind with
  | [] => throw s.endFault
  | letter :: digits =>
    match namedEscape? letter, escapeLength? letter with
    | some c, _ => return some (.char c, 2)
    | none, some length =>
      let code := digits.take length
      if !code.all isHex then throw .malformed
      else if code.length < length then throw s.endFault
      else return some (← escapedPoint (numberOf 16 code), 2 + length)
    | none, none => return none

/-- The line breaks inside a quoted text, with the spaces and tabs around them. -/
def quotedBreaks : (fuel : Nat) → Scanner → Except Fault (List Char × Scanner)
  | 0, s => return ([], s)
  | fuel + 1, s => do
    if s.atDocumentMark then throw .malformed
    let s := s.skip (s.rest.takeWhile fun c => c == ' ' || c == '\t').length
    match s.lineBreak? with
    | some (c, s) =>
      let (breaks, s) ← quotedBreaks fuel s
      return (c :: breaks, s)
    | none => return ([], s)

/-- A quoted text up to and including its closing quote. -/
def quotedParts (quote : Char) : (fuel : Nat) → Scanner → Except Fault (List CodePoint × Scanner)
  | 0, _ => throw .malformed
  | fuel + 1, s => do
    let continueAfter (front : List CodePoint) (s : Scanner) :=
      (quotedParts quote fuel s).map fun (more, s) => (front ++ more, s)
    let continueWith (front : List Char) (s : Scanner) := continueAfter (front.map .char) s
    match s.rest with
    | [] => throw s.endFault
    | c :: rest =>
      if c == quote then
        if quote == '\'' && rest.head? == some '\'' then continueWith ['\''] (s.skip 2)
        else return ([], s.skip 1)
      else if c == '\\' && quote == '"' then
        match ← s.escape? rest with
        | some (point, length) => continueAfter [point] (s.skip length)
        | none =>
          match (s.skip 1).lineBreak? with
          | none => throw .malformed
          | some (_, s) =>
            let (breaks, s) ← quotedBreaks s.left s
            continueWith breaks s
      else if isSpaceOrBreak c then
        let spaces := s.rest.takeWhile fun c => c == ' ' || c == '\t'
        let s := s.skip spaces.length
        match s.lineBreak? with
        | none => continueWith spaces s
        | some (first, s) =>
          let (others, s) ← quotedBreaks (s.left + 1) s
          continueWith (foldBreaks first others) s
      else
        continueWith [c] (s.skip 1)

def quoted (s : Scanner) (quote : Char) : Except Fault Scanner := do
  let s ← s.saveKey
  let (value, s) ← quotedParts quote (s.left + 1) ({ s with keyAllowed := false }.skip 1)
  return s.emit (.quoted ⟨value⟩)

/-- The scanner behind the token that starts with `c`. -/
def token (s : Scanner) (c : Char) (rest : List Char) : Except Fault Scanner :=
  if s.column = 0 && startsDocumentMark '-' s.rest then s.documentMark .documentStart
  else if s.column = 0 && startsDocumentMark '.' s.rest then s.documentMark .documentEnd
  else if c = '[' then s.flowStart .flowSequence
  else if c = '\x7b' then s.flowStart .flowMapping
  else if c = ']' then s.flowEnd .flowSequenceEnd
  else if c = '\x7d' then s.flowEnd .flowMappingEnd
  else if c = ',' then s.comma
  else if c = '-' && endsWord rest then s.dash
  else if c = '?' && (s.inFlow || endsWord rest) then s.explicitKey
  else if c = ':' && (s.inFlow || endsWord rest) then s.colon
  else if c = '\'' || c = '"' then s.quoted c
  else if s.startsPlain then s.plain
  else throw .malformed

/-- The scanner behind the next token, or all tokens at their end. A token that reaches the end of a
text that breaks off is not whole. -/
def next (s : Scanner) : Except Fault (Scanner ⊕ List Token) := do
  let s ← s.dropStaleKeys
  let s := s.skipToToken (s.left + 1)
  match s.rest, s.source.defect with
  | [], some defect => throw defect
  | [], none =>
    let s ← s.dropStaleKeys
    let s ← (s.unwind (-1)).forgetKey
    if s.inFlow then throw .malformed else return .inr s.tokens.reverse
  | c :: rest, defect =>
    let s ← s.dropStaleKeys
    let s ← (s.unwind s.column).token c rest
    match s.rest, defect with
    | [], some defect => throw defect
    | _, _ => return .inl s

/-- The tokens that are settled: those before the first place where a key may have started. -/
def settled (s : Scanner) : List Token :=
  let keys := (s.dropStaleKeys.toOption.getD s).keys
  let position := (keys.map fun (_, key) => key.position).foldl min s.count
  s.tokens.reverse.take position

def run : (fuel : Nat) → Scanner → List Token
  | 0, s => s.settled ++ [.fault .malformed]
  | fuel + 1, s =>
    match s.next with
    | .error fault => s.settled ++ [.fault fault]
    | .ok (.inl s) => run fuel s
    | .ok (.inr tokens) => tokens

end Scanner

/-- The tokens of a document. A byte order mark may stand in front. -/
def tokenize (source : Source) : List Token :=
  let start : Scanner := { source, rest := source.text, size := source.text.length }
  let start := if source.text.head? == some '\uFEFF' then start.skip 1 else start
  start.run (start.size + 2)

end Archetype.Yaml
