import Archetype.Text.Quoted

/-!
Halves of characters where a text is to be shown or stored. They are refused, or they are shown by
their codes.
-/

namespace Archetype.Text

/-- Halves of a text that stand side by side. -/
structure Halves where
  /-- How many code points stand before the first. -/
  position : Nat
  first : Half
  /-- How many halves follow the first. -/
  more : Nat
deriving DecidableEq, Repr

def isHalf : CodePoint → Bool
  | .char _ => false
  | .half _ => true

/-- The halves in what follows `position` code points, from the first one that is not allowed to the
end of its run. -/
def halvesFrom (isAllowed : Half → Bool) (position : Nat) : List CodePoint → Option Halves
  | [] => none
  | .char _ :: rest => halvesFrom isAllowed (position + 1) rest
  | .half first :: rest =>
    if isAllowed first then halvesFrom isAllowed (position + 1) rest
    else some ⟨position, first, (rest.takeWhile isHalf).length⟩

def halves? (text : Text) : Option Halves :=
  halvesFrom (fun _ => false) 0 text.points

def Halves.message (halves : Halves) : String :=
  let code := String.ofList (codeEscape (CodePoint.half halves.first).code)
  let last := halves.position + halves.more
  let place :=
    if halves.more = 0 then s!"character '{code}' in position {last}"
    else s!"characters in position {halves.position}-{last}"
  s!"'utf-8' codec can't encode {place}: surrogates not allowed"

/-- A text without halves as a string, and otherwise its first halves. -/
def whole (text : Text) : Except Halves String :=
  match text.halves? with
  | some halves => .error halves
  | none => .ok (String.ofList (text.points.filterMap CodePoint.char?))

def spelledPoint : CodePoint → List Char
  | .char c => [c]
  | .half h => codeEscape (CodePoint.half h).code

/-- A text with codes in place of its halves. -/
def spelled (text : Text) : String :=
  String.ofList (text.points.flatMap spelledPoint)

end Archetype.Text
