/-!
How alike two texts are. The longest block that both share is matched first, then what stands
before it in both and what stands after it in both.
-/

namespace Archetype.Text

/-- How many characters two texts begin alike with. -/
def sharedStart : List Char → List Char → Nat
  | a :: as, b :: bs => if a = b then sharedStart as bs + 1 else 0
  | _, _ => 0

/-- A block of a length that stands at two positions. -/
structure Block where
  first : Nat
  second : Nat
  length : Nat
deriving DecidableEq, Repr

/-- The longest block that two texts share; the one that starts first of several. -/
def longestBlock (a b : List Char) : Block :=
  let candidates := (List.range a.length).flatMap fun i =>
    (List.range b.length).map fun j => ⟨i, j, sharedStart (a.drop i) (b.drop j)⟩
  candidates.foldl (fun best next => if next.length > best.length then next else best) ⟨0, 0, 0⟩

/-- How many characters of two texts are matched, in at most `fuel` rounds. -/
def matchedFrom : (fuel : Nat) → List Char → List Char → Nat
  | 0, _, _ => 0
  | fuel + 1, a, b =>
    let block := longestBlock a b
    if block.length = 0 then 0
    else
      matchedFrom fuel (a.take block.first) (b.take block.second) + block.length +
        matchedFrom fuel (a.drop (block.first + block.length))
          (b.drop (block.second + block.length))

def matched (a b : List Char) : Nat :=
  matchedFrom a.length a b

/-- The share of matched characters in both texts together, as a fraction. -/
structure Likeness where
  part : Nat
  whole : Nat
deriving DecidableEq, Repr

def likeness (a b : List Char) : Likeness :=
  ⟨2 * matched a b, a.length + b.length⟩

/-- Texts are alike if three fifths of their characters are matched. -/
def Likeness.isClose (l : Likeness) : Bool :=
  3 * l.whole ≤ 5 * l.part

def Likeness.isLess (l m : Likeness) : Bool :=
  l.part * m.whole < m.part * l.whole

/-- The more alike of two texts comes first, and of two equally alike ones the greater. -/
def comesFirst (a b : Likeness × String) : Bool :=
  b.1.isLess a.1 || (!a.1.isLess b.1 && b.2 ≤ a.2)

/-- How many similar texts are told at most. -/
def maxSimilar : Nat := 3

/-- The texts that are most like a given one, in the order of the alphabet. -/
def similar (text : String) (among : List String) : List String :=
  let rated := among.map fun other => (likeness other.toList text.toList, other)
  let close := (rated.filter (·.1.isClose)).mergeSort comesFirst
  ((close.take maxSimilar).map (·.2)).mergeSort

end Archetype.Text
