/-!
Searching a list, such as a text, for another, and taking it apart.
-/

namespace Archetype.Text

variable {α : Type} [DecidableEq α]

/-- What follows a given beginning, if a list begins so. -/
def after? : List α → List α → Option (List α)
  | [], text => some text
  | _ :: _, [] => none
  | p :: ps, c :: cs => if p = c then after? ps cs else none

/-- The parts of a list before and after the first occurrence of a separator. -/
def cut? (separator : List α) : List α → Option (List α × List α)
  | [] => (after? separator []).map ([], ·)
  | c :: cs =>
    match after? separator (c :: cs) with
    | some rest => some ([], rest)
    | none => (cut? separator cs).map fun (before, rest) => (c :: before, rest)

/-- The parts of a list between the members that divide it, empty ones included. -/
def divide (divider : α) : List α → List (List α)
  | [] => [[]]
  | c :: rest =>
    if c = divider then [] :: divide divider rest
    else match divide divider rest with
      | [] => [[c]]
      | part :: parts => (c :: part) :: parts

end Archetype.Text
