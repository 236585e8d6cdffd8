import Archetype.Bytes.Stream
import Archetype.Yaml.Fault

/-!
The text of a document, which may break off at a defect of its file. Reading a document looks at
two pieces of the file to begin with and at one more whenever it gets that far, so faults of the
document before a defect of the file win.
-/

namespace Archetype.Yaml

structure Source where
  text : List Char
  /-- What is wrong behind the text, if it breaks off. -/
  defect : Option Fault := none
deriving DecidableEq, Repr

/-- Documents hold no control characters but tabs and line breaks. -/
def isDocumentChar (c : Char) : Bool :=
  let n := c.toNat
  n == 0x09 || n == 0x0A || n == 0x0D || (0x20 ≤ n && n ≤ 0x7E) || n == 0x85 ||
    (0xA0 ≤ n && n ≤ 0xD7FF) || (0xE000 ≤ n && n ≤ 0xFFFD) || (0x10000 ≤ n && n ≤ 0x10FFFF)

namespace Source

/-- The first two pieces are one. If the second cannot be read, neither is there. -/
def joinFirst (stream : Bytes.Stream) : List (List Char) :=
  match stream.pieces, stream.defect with
  | first :: second :: rest, _ => (first ++ second) :: rest
  | [_], some _ => []
  | pieces, _ => pieces

/-- The text of pieces up to the first that holds what documents do not hold. -/
def ofPieces (defect : Option Fault) : List (List Char) → Source
  | [] => ⟨[], defect⟩
  | piece :: rest =>
    if piece.all isDocumentChar then
      let later := ofPieces defect rest
      { later with text := piece ++ later.text }
    else
      ⟨[], some .malformed⟩

def ofBytes (bytes : Bytes) : Source :=
  let stream := Bytes.Stream.ofBytes bytes
  ofPieces (stream.defect.map .text) (joinFirst stream)

end Source

end Archetype.Yaml
