import Archetype.Yaml.Node

/-!
Documents as data. A repeated key keeps its place and its last value. Of several faults in the nodes
of a document the one that counts is the first of the level nearest to the top: all scalars right
inside the collections of a level come before those further in. Mappings are not merged.
-/

namespace Archetype.Yaml

namespace Node

/-- What a scalar stands for; a collection stands for nothing yet. -/
def scalar : Node → Except Fault Datum
  | .plain value => resolve value
  | .quoted value => return .text value
  | .sequence _ | .mapping _ => return .null

/-- What a key stands for. Collections are no keys, and an equals sign is one. -/
def key : Node → Except Fault Datum
  | .plain "=" => return .text "="
  | .sequence _ | .mapping _ => throw .malformed
  | node => node.scalar

def fault? {α : Type} : Except Fault α → Option Fault
  | .error fault => some fault
  | .ok _ => none

/-- Whether a key asks for the entries of another mapping. -/
def isMerge : Node → Bool
  | .plain value => value == "<<"
  | _ => false

/-- The first fault right inside a collection. -/
def firstFault? : Node → Option Fault
  | .sequence items => items.findSome? fun item => fault? item.scalar
  | .mapping entries =>
    if entries.any fun (key, _) => key.isMerge then some .malformed
    else entries.findSome? fun (key, value) => (fault? key.key).or (fault? value.scalar)
  | _ => none

/-- The nodes right inside a collection that may be collections themselves. -/
def inner : Node → List Node
  | .sequence items => items
  | .mapping entries => entries.map (·.2)
  | _ => []

/-- The first fault of the nodes of one level, and else of those inside them. -/
def faultFrom : (fuel : Nat) → List Node → Option Fault
  | 0, _ => none
  | fuel + 1, level =>
    if level.isEmpty then none
    else (level.findSome? firstFault?).or (faultFrom fuel (level.flatMap inner))

mutual

/-- How many levels of nodes there are. -/
def depth : Node → Nat
  | .plain _ | .quoted _ => 1
  | .sequence items => itemsDepth items + 1
  | .mapping entries => entriesDepth entries + 1

def itemsDepth : List Node → Nat
  | [] => 0
  | item :: rest => max item.depth (itemsDepth rest)

def entriesDepth : List (Node × Node) → Nat
  | [] => 0
  | (_, value) :: rest => max value.depth (entriesDepth rest)

end

mutual

/-- The data of a node without faults. -/
def datum : Node → Datum
  | .plain value => (resolve value).toOption.getD .null
  | .quoted value => .text value
  | .sequence items => .list (itemsData items)
  | .mapping entries => .map (entriesData [] entries)

def itemsData : List Node → List Datum
  | [] => []
  | item :: rest => item.datum :: itemsData rest

/-- The entries of a mapping, put behind those that are there already. -/
def entriesData (before : List (Datum × Datum)) : List (Node × Node) → List (Datum × Datum)
  | [] => before
  | (name, value) :: rest =>
    entriesData (Datum.put before (name.key.toOption.getD .null) value.datum) rest

end

/-- What a node stands for. -/
def toDatum (node : Node) : Except Fault Datum :=
  match faultFrom (node.depth + 1) [.sequence [node]] with
  | some fault => throw fault
  | none => return node.datum

end Node

/-- The data of the one document of a text. -/
def read (source : Source) : Except Fault Datum := do
  (← Node.read source).toDatum

end Archetype.Yaml
