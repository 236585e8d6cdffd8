import Archetype.Bytes.Utf8
import Archetype.Text.Lines

/-!
Files of UTF-8 text that are read piece by piece. A piece has a fixed number of characters. For it
blocks of bytes are decoded, each together with the bytes of a character that the block before cut
off; positions of defects count from there. A line end that may be cut off waits for the next block.
-/

namespace Archetype.Bytes

/-- The whole pieces of a text before its first defect, if it has one. -/
structure Stream where
  pieces : List (List Char)
  defect : Option Fault
deriving DecidableEq, Repr

/-- A file that is being read. -/
structure Reader where
  /-- The bytes that were not read yet. -/
  bytes : Bytes
  /-- The bytes of a character that is not whole. -/
  unfinished : Bytes := []
  /-- A carriage return was read last, and a line feed may follow. -/
  awaitsLineFeed : Bool := false
  /-- The characters that were decoded and belong to no piece yet. -/
  ready : List Char := []
  /-- How many bytes and characters the last block had. -/
  lastBlock : Nat × Nat := (0, 0)
  ended : Bool := false

namespace Reader

/-- How many characters a piece has; only the last one has fewer. -/
def pieceSize : Nat := 4096

/-- How many bytes a block has at least. -/
def leastBlock : Nat := 8192

/-- How many bytes to read for a number of characters, judged by the last block. -/
def blockSize (reader : Reader) (wanted : Nat) : Nat :=
  let (bytes, characters) := reader.lastBlock
  max leastBlock (bytes * wanted / characters)

/-- Reads one more block; at the end of the file nothing may be left over. -/
def readBlock (reader : Reader) : Except Fault Reader := do
  let size := reader.blockSize (pieceSize - reader.ready.length)
  let block := reader.bytes.take size
  let ended := block.isEmpty
  let bytes := reader.unfinished ++ block
  let (text, unfinished) ←
    if ended then (Utf8.decode bytes).map (·, []) else Utf8.decodePart bytes
  let completes := reader.awaitsLineFeed && (ended || !text.isEmpty)
  let text := if completes then '\r' :: text else text
  let awaits := !ended && text.getLast? == some '\r'
  let text := Text.unifyLineEnds (if awaits then text.dropLast else text)
  return {
    bytes := reader.bytes.drop size
    unfinished
    awaitsLineFeed := awaits || (reader.awaitsLineFeed && !completes)
    ready := reader.ready ++ text
    lastBlock := (block.length, text.length)
    ended }

/-- Reads blocks until there are enough characters for a piece. -/
def fill : (fuel : Nat) → Reader → Except Fault Reader
  | 0, reader => .ok reader
  | fuel + 1, reader =>
    if reader.ended || reader.ready.length ≥ pieceSize then .ok reader
    else do fill fuel (← reader.readBlock)

/-- The pieces that are left. -/
def stream : (fuel : Nat) → Reader → Stream
  | 0, _ => ⟨[], none⟩
  | fuel + 1, reader =>
    match reader.fill (reader.bytes.length + 2) with
    | .error fault => ⟨[], some fault⟩
    | .ok reader =>
      if reader.ready.isEmpty then ⟨[], none⟩
      else
        let rest := stream fuel { reader with ready := reader.ready.drop pieceSize }
        { rest with pieces := reader.ready.take pieceSize :: rest.pieces }

end Reader

/-- The text of a file. -/
def Stream.ofBytes (bytes : Bytes) : Stream :=
  Reader.stream (bytes.length + 1) { bytes }

end Archetype.Bytes
