import Archetype.Yaml.Token

/-!
The nodes of a document read from its tokens. A node that is left out is an empty plain scalar.
-/

namespace Archetype.Yaml

inductive Node where
  | plain (value : String)
  | quoted (value : Text)
  | sequence (items : List Node)
  | mapping (entries : List (Node × Node))
deriving Inhabited

/-- The fault of tokens that do not go on as they must. -/
def stop {α : Type} (tokens : List Token) : Except Fault α :=
  match tokens with
  | .fault fault :: _ => throw fault
  | _ => throw .malformed

/-- Whether one of the tokens `ends` follows, or nothing. -/
def startsNothing (ends : List Token) (tokens : List Token) : Bool :=
  match tokens with
  | [] => true
  | token :: _ => ends.contains token

mutual

/-- A node. In a block mapping a sequence may stand at the column of its key. -/
def node (indentless : Bool) : (fuel : Nat) → List Token → Except Fault (Node × List Token)
  | 0, tokens => stop tokens
  | fuel + 1, tokens =>
    match tokens with
    | .plain value :: rest => return (.plain value, rest)
    | .quoted value :: rest => return (.quoted value, rest)
    | .flowSequence :: rest => do
      let (items, rest) ← flowItems fuel true rest
      return (.sequence items, rest)
    | .flowMapping :: rest => do
      let (entries, rest) ← flowEntries fuel true rest
      return (.mapping entries, rest)
    | .blockSequence :: rest => do
      let (items, rest) ← blockItems fuel rest
      return (.sequence items, rest)
    | .blockMapping :: rest => do
      let (entries, rest) ← blockEntries fuel rest
      return (.mapping entries, rest)
    | .dash :: _ => do
      if indentless then
        let (items, rest) ← plainItems fuel tokens
        return (.sequence items, rest)
      else
        stop tokens
    | _ => stop tokens

/-- A node that may be left out before one of the tokens `ends`. -/
def optionalNode (indentless : Bool) (ends : List Token) : (fuel : Nat) → List Token →
    Except Fault (Node × List Token)
  | 0, tokens => stop tokens
  | fuel + 1, tokens =>
    if startsNothing ends tokens then return (.plain "", tokens) else node indentless fuel tokens

/-- The items of a block sequence up to its end. -/
def blockItems : (fuel : Nat) → List Token → Except Fault (List Node × List Token)
  | 0, tokens => stop tokens
  | fuel + 1, tokens =>
    match tokens with
    | .dash :: rest => do
      let (item, rest) ← optionalNode false [.dash, .blockEnd] fuel rest
      let (items, rest) ← blockItems fuel rest
      return (item :: items, rest)
    | .blockEnd :: rest => return ([], rest)
    | _ => stop tokens

/-- The items of a sequence that ends where something other than a dash follows. -/
def plainItems : (fuel : Nat) → List Token → Except Fault (List Node × List Token)
  | 0, tokens => stop tokens
  | fuel + 1, tokens =>
    match tokens with
    | .dash :: rest => do
      let (item, rest) ← optionalNode false [.dash, .key, .value, .blockEnd] fuel rest
      let (items, rest) ← plainItems fuel rest
      return (item :: items, rest)
    | _ => return ([], tokens)

/-- The value behind a key, which may be left out with its colon. -/
def entryValue (indentless : Bool) (ends : List Token) : (fuel : Nat) → List Token →
    Except Fault (Node × List Token)
  | 0, tokens => stop tokens
  | fuel + 1, tokens =>
    match tokens with
    | .value :: rest => optionalNode indentless ends fuel rest
    | _ => return (.plain "", tokens)

/-- The entries of a block mapping up to its end. -/
def blockEntries : (fuel : Nat) → List Token → Except Fault (List (Node × Node) × List Token)
  | 0, tokens => stop tokens
  | fuel + 1, tokens =>
    match tokens with
    | .key :: rest => do
      let (key, rest) ← optionalNode true [.key, .value, .blockEnd] fuel rest
      let (value, rest) ← entryValue true [.key, .value, .blockEnd] fuel rest
      let (entries, rest) ← blockEntries fuel rest
      return ((key, value) :: entries, rest)
    | .blockEnd :: rest => return ([], rest)
    | _ => stop tokens

/-- The items of a flow sequence up to its bracket. A lone entry is a mapping of its own. -/
def flowItems : (fuel : Nat) → (first : Bool) → List Token → Except Fault (List Node × List Token)
  | 0, _, tokens => stop tokens
  | fuel + 1, first, tokens =>
    match first, tokens with
    | _, .flowSequenceEnd :: rest => return ([], rest)
    | false, .comma :: rest =>
      match rest with
      | .flowSequenceEnd :: rest => return ([], rest)
      | _ => flowItem fuel rest
    | false, tokens => stop tokens
    | true, tokens => flowItem fuel tokens

/-- One item of a flow sequence and those after it. -/
def flowItem : (fuel : Nat) → List Token → Except Fault (List Node × List Token)
  | 0, tokens => stop tokens
  | fuel + 1, tokens =>
    match tokens with
    | .key :: rest => do
      let (key, rest) ← optionalNode false [.value, .comma, .flowSequenceEnd] fuel rest
      let (value, rest) ← entryValue false [.comma, .flowSequenceEnd] fuel rest
      let (items, rest) ← flowItems fuel false rest
      return (.mapping [(key, value)] :: items, rest)
    | _ => do
      let (item, rest) ← node false fuel tokens
      let (items, rest) ← flowItems fuel false rest
      return (item :: items, rest)

/-- The entries of a flow mapping up to its brace. -/
def flowEntries : (fuel : Nat) → (first : Bool) → List Token →
    Except Fault (List (Node × Node) × List Token)
  | 0, _, tokens => stop tokens
  | fuel + 1, first, tokens =>
    match first, tokens with
    | _, .flowMappingEnd :: rest => return ([], rest)
    | false, .comma :: rest =>
      match rest with
      | .flowMappingEnd :: rest => return ([], rest)
      | _ => flowEntry fuel rest
    | false, tokens => stop tokens
    | true, tokens => flowEntry fuel tokens

/-- One entry of a flow mapping and those after it. A node without a colon is a key of nothing. -/
def flowEntry : (fuel : Nat) → List Token → Except Fault (List (Node × Node) × List Token)
  | 0, tokens => stop tokens
  | fuel + 1, tokens =>
    match tokens with
    | .key :: rest => do
      let (key, rest) ← optionalNode false [.value, .comma, .flowMappingEnd] fuel rest
      let (value, rest) ← entryValue false [.comma, .flowMappingEnd] fuel rest
      let (entries, rest) ← flowEntries fuel false rest
      return ((key, value) :: entries, rest)
    | _ => do
      let (key, rest) ← node false fuel tokens
      let (entries, rest) ← flowEntries fuel false rest
      return ((key, .plain "") :: entries, rest)

end

/-- Marks that end a document. -/
def dropDocumentEnds (tokens : List Token) : List Token :=
  tokens.dropWhile (· == .documentEnd)

/-- Nothing may follow the one document of a text. -/
def onlyDocument (node : Node) (rest : List Token) : Except Fault Node :=
  match dropDocumentEnds rest with
  | [] => return node
  | rest => stop rest

/-- The node of the one document of a text. A text without a document is an empty one. -/
def Node.read (source : Source) : Except Fault Node := do
  let tokens := tokenize source
  let fuel := 4 * tokens.length + 4
  match tokens with
  | [] => return .plain ""
  | .documentStart :: rest =>
    let (found, rest) ← optionalNode false [.documentStart, .documentEnd] fuel rest
    onlyDocument found rest
  | rest =>
    let (found, rest) ← node false fuel rest
    onlyDocument found rest

end Archetype.Yaml
