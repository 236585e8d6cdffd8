/-!
Lines of a text. A line ends at a carriage return, a line feed, or the pair of both.
-/

namespace Archetype.Text

/-- The lines of a text without their ends. The last one is what follows the last line end, so a
text that ends with a line end has an empty last line. -/
def splitLines : List Char → List (List Char)
  | [] => [[]]
  | '\r' :: '\n' :: rest => [] :: splitLines rest
  | c :: rest =>
    if c = '\r' ∨ c = '\n' then
      [] :: splitLines rest
    else
      match splitLines rest with
      | [] => [[c]]
      | line :: lines => (c :: line) :: lines

/-- The lines of a text, not counting an empty last one. -/
def lines (text : List Char) : List (List Char) :=
  let parts := splitLines text
  if parts.getLast? = some [] then parts.dropLast else parts

/-- The same text with every line end written as a line feed. -/
def unifyLineEnds : List Char → List Char
  | [] => []
  | '\r' :: '\n' :: rest => '\n' :: unifyLineEnds rest
  | c :: rest => (if c = '\r' then '\n' else c) :: unifyLineEnds rest

end Archetype.Text
