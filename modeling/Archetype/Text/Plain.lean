import Archetype.Text.Basic

/-!
Texts without the sequences by which a terminal changes colours and the like.
-/

namespace Archetype.Text

def escapePoint : CodePoint := .char '\x1b'

/-- What may stand between the bracket and the letter of a terminal sequence. -/
def isSequenceParameter (point : CodePoint) : Bool :=
  point.char?.any fun c => c.isDigit || c == ';' || c == '?'

/-- How long the terminal sequence is that starts after an escape character; zero if there is
none. -/
def sequenceLength (rest : List CodePoint) : Nat :=
  match rest with
  | .char '[' :: rest =>
    match rest.dropWhile isSequenceParameter with
    | .char last :: _ =>
      if last.isAlpha then (rest.takeWhile isSequenceParameter).length + 2 else 0
    | _ => 0
  | _ => 0

/-- What stands outside terminal sequences, passing over the first `skip` code points. -/
def plainFrom : (skip : Nat) → List CodePoint → List CodePoint
  | _, [] => []
  | skip + 1, _ :: rest => plainFrom skip rest
  | 0, point :: rest =>
    if point = escapePoint && sequenceLength rest != 0 then plainFrom (sequenceLength rest) rest
    else point :: plainFrom 0 rest

def plain (text : Text) : Text :=
  ⟨plainFrom 0 text.points⟩

end Archetype.Text
