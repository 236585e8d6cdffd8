/-!
Texts as sequences of code points. A character beyond the basic plane takes two halves where code
points have sixteen bits, and a document can name one half alone. Such a half is part of a text, but
it is no character: it can be neither shown nor stored. A text without halves is a string.
-/

namespace Archetype

/-- The code points that are halves of characters. -/
abbrev Half := Fin 0x800

/-- The code of the first half. -/
def firstHalf : Nat := 0xD800

inductive CodePoint where
  | char (c : Char)
  | half (h : Half)
deriving DecidableEq, Repr, Inhabited

namespace CodePoint

def code : CodePoint → Nat
  | .char c => c.toNat
  | .half h => firstHalf + h

/-- The code point of a code; beyond the last plane there is none. -/
def ofCode? (code : Nat) : Option CodePoint :=
  if code.isValidChar then some (.char (Char.ofNat code))
  else if h : code - firstHalf < 0x800 then some (.half ⟨code - firstHalf, h⟩)
  else none

def char? : CodePoint → Option Char
  | .char c => some c
  | .half _ => none

end CodePoint

structure Text where
  points : List CodePoint
deriving DecidableEq, Repr, Inhabited

namespace Text

def ofChars (cs : List Char) : Text :=
  ⟨cs.map .char⟩

def ofString (s : String) : Text :=
  ofChars s.toList

instance : Coe String Text := ⟨ofString⟩

instance : Append Text := ⟨fun a b => ⟨a.points ++ b.points⟩⟩

def isEmpty (text : Text) : Bool :=
  text.points.isEmpty

/-- The characters of a text without halves. -/
def chars? (text : Text) : Option (List Char) :=
  text.points.mapM CodePoint.char?

/-- A text without halves as a string. -/
def string? (text : Text) : Option String :=
  text.chars?.map String.ofList

/-- The order of texts: that of the codes where they first differ. -/
def isBefore (a b : Text) : Bool :=
  let rec go : List CodePoint → List CodePoint → Bool
    | [], rest => !rest.isEmpty
    | _ :: _, [] => false
    | p :: ps, q :: qs => p.code < q.code || (p == q && go ps qs)
  go a.points b.points

def join (separator : Text) (texts : List Text) : Text :=
  ⟨separator.points.intercalate (texts.map (·.points))⟩

theorem chars?_ofChars (cs : List Char) : (ofChars cs).chars? = some cs := by
  induction cs with
  | nil => rfl
  | cons c rest ih =>
    simp only [chars?, ofChars, List.map_cons, List.mapM_cons] at ih ⊢
    simp [ih, CodePoint.char?]

theorem string?_ofString (s : String) : (ofString s).string? = some s := by
  simp [string?, ofString, chars?_ofChars]

end Text

end Archetype
