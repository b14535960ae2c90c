import CrudScaffold.Yaml.PlainValue

/-!
# CrudScaffold.Yaml.Node — the nodes of a YAML document, and their value

A node is a scalar, a list or a map as it is written, its aliases replaced by what they stand for.  Only an alias inside
of the collection that it stands for is kept, as `within`.  `settle` takes the entries of merged maps over, so that the
keys of a map are the keys of its value.

A node has no value if it is malformed or if one of its scalars stands for nothing.  Of several faults the one that is
least deep in the document counts (`firstFault`), and of those equally deep the first one.
-/

namespace CrudScaffold.Yaml

open CrudScaffold.Data

/-- A node of a document. -/
inductive Node where
  | plain (text : String)
  /-- A scalar that is a text whatever it looks like. -/
  | quoted (text : String)
  | list (items : List Node)
  | map (entries : List (Node × Node))
  /-- The collection of this name, inside of itself. -/
  | within (name : String)
  /-- A map that takes over the entries of something else than maps. -/
  | broken

namespace Node

/-- The entries of a settled map.  A collection inside of itself adds none. -/
def entries? : Node → Option (List (Node × Node))
  | .map entries => some entries
  | .within _ => some []
  | _ => none

/-- The entries that a settled node stands for under a merging key: those of a map, or those of the maps in a list, the
last one first. -/
def mergedEntries : Node → Option (List (Node × Node))
  | .list items => (items.mapM entries?).map fun parts => parts.reverse.flatten
  | node => node.entries?

/-- A scalar as a key. -/
def asKey : Node → Node
  | .plain text => if text = valueKey then .quoted text else .plain text
  | key => key

/-- The key of merged entries. -/
def isMergeKey : Node → Bool
  | .plain text => text == mergeKey
  | _ => false

mutual

/-- The node with the entries of merged maps in front of the entries of each map.  `named` are the settled collections
that a collection inside of itself stands for. -/
def settle (named : List (String × Node)) : Node → Node
  | .list items => .list (settleItems named items)
  | .map entries => match settleEntries named entries with
    | some (merged, own) => .map (merged ++ own)
    | none => .broken
  | .within name => (named.lookup name).getD (.within name)
  | node => node

/-- Settles the elements of a list. -/
def settleItems (named : List (String × Node)) : List Node → List Node
  | [] => []
  | item :: items => item.settle named :: settleItems named items

/-- Settles the entries of a map: the merged ones and its own. -/
def settleEntries (named : List (String × Node)) :
    List (Node × Node) → Option (List (Node × Node) × List (Node × Node))
  | [] => some ([], [])
  | (key, value) :: entries => do
    let settled := value.settle named
    let front ← if key.isMergeKey then settled.mergedEntries else some []
    let (merged, own) ← settleEntries named entries
    return (front ++ merged, if key.isMergeKey then own else (key.asKey, settled) :: own)

end

/-- The fault of a scalar. -/
def scalarFault : Node → Option ReadError
  | .plain text => match plainValue text with
    | .ok _ => none
    | .error e => some e
  | _ => none

/-- The node is a scalar. -/
def isScalar : Node → Bool
  | .plain _ => true
  | .quoted _ => true
  | _ => false

/-- The fault of a key, which must be a scalar. -/
def keyFault (key : Node) : Option ReadError := if key.isScalar then key.scalarFault else some .malformed

/-- The first fault among the parts of a settled collection. -/
def partFault : Node → Option ReadError
  | .list items => items.findSome? scalarFault
  | .map entries => entries.findSome? fun (key, value) => (keyFault key).or value.scalarFault
  | .broken => some .malformed
  | _ => none

/-- The collections in a settled collection. -/
def collections : Node → List Node
  | .list items => items.filter (!·.isScalar)
  | .map entries => (entries.map (·.2)).filter (!·.isScalar)
  | _ => []

/-- The first fault of settled collections equally deep in a document, or of what is deeper; `depth` bounds how deep
that can be. -/
def levelFault : Nat → List Node → Option ReadError
  | 0, _ => none
  | _, [] => none
  | depth + 1, level => (level.findSome? partFault).or (levelFault depth (level.flatMap collections))

/-- The fault of a settled node that counts. -/
def firstFault (depth : Nat) (node : Node) : Option ReadError := node.scalarFault.or (levelFault depth [node])

mutual

/-- The value of a settled node without faults. -/
def value : Node → Value
  | .plain text => (plainValue text).toOption.getD .null
  | .quoted text => .text text
  | .list items => .list (valueItems items)
  | .map entries => Value.mapOf (valueEntries entries)
  | .within _ => .list []
  | .broken => .null

/-- The values of the elements of a list. -/
def valueItems : List Node → List Value
  | [] => []
  | item :: items => item.value :: valueItems items

/-- The keys and values of the entries of a map. -/
def valueEntries : List (Node × Node) → List (Value × Value)
  | [] => []
  | (key, v) :: entries => (key.value, v.value) :: valueEntries entries

end

end Node

end CrudScaffold.Yaml
