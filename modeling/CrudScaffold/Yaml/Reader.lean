import CrudScaffold.Yaml.Node
import CrudScaffold.Yaml.Token

/-!
# CrudScaffold.Yaml.Reader — reading a YAML document

A text holds one document: block and flow collections, scalars, and anchors with their aliases.  Tags and directives
are not read.  An empty document is null.  In a map the last one of equal keys counts, a key cannot be a collection,
and the entries of the maps under a plain key `<<` are taken in front of the map's own.

This is the reader a host has when it brings none of its own; the settings are read through whichever it has.
-/

namespace CrudScaffold.Yaml

open CrudScaffold.Data

/-- The tokens that are still to be read, and the anchored nodes. -/
structure Feed where
  tokens : Tokens
  anchors : List (String × Node)

/-- Reads a part of a document. -/
abbrev Read (α : Type) := StateT Feed (Except ReadError) α

/-- The next token; past the last one, the fault that stands there. -/
def peek : Read (Option Token) := do
  let ts := (← get).tokens
  match ts.items, ts.fault? with
  | t :: _, _ => return some t
  | [], some e => throw e
  | [], none => return none

/-- Skips a token. -/
def advance : Read Unit := modify fun f => { f with tokens := { f.tokens with items := f.tokens.items.drop 1 } }

/-- The text breaks the grammar. -/
def malformed {α : Type} : Read α := throw .malformed

/-- The next token is one of these. -/
def nextIs (expected : List Token) : Read Bool := do
  match ← peek with
  | some t => return expected.contains t
  | none => return false

/-- Gives a name to a node. -/
def setAnchor (name : String) (node : Node) : Read Unit :=
  modify fun f => { f with anchors := (name, node) :: f.anchors }

/-- The node where nothing is written. -/
def emptyNode : Node := .plain ""

mutual

/-- Reads a node, with its anchor if it has one.  `block` allows block collections, `bare` allows a block list that
is not indented.  Each call hands on a smaller `fuel`. -/
def readNode (fuel : Nat) (block bare : Bool) : Read Node :=
  match fuel with
  | 0 => malformed
  | fuel + 1 => do
    match ← peek with
    | some (.alias name) =>
      advance
      match (← get).anchors.lookup name with
      | some v => return v
      | none => malformed
    | some (.anchor name) =>
      advance
      let _ ← peek
      if ((← get).anchors.lookup name).isSome then malformed
      setAnchor name (.within name)
      let node ← readContent fuel block bare true
      setAnchor name node
      return node
    | _ => readContent fuel block bare false

/-- Reads a node without its anchor; after an anchor the node may be empty. -/
def readContent (fuel : Nat) (block bare anchored : Bool) : Read Node :=
  match fuel with
  | 0 => malformed
  | fuel + 1 => do
    let absent : Read Node := if anchored then return emptyNode else malformed
    match ← peek with
    | some .entry => if bare then return .list (← readBareItems fuel) else absent
    | some (.plain text) =>
      advance
      return .plain text
    | some (.quoted text) =>
      advance
      return .quoted text
    | some .listOpen =>
      advance
      return .list (← readFlowItems fuel true)
    | some .mapOpen =>
      advance
      return .map (← readFlowEntries fuel true)
    | some .blockList =>
      if block then
        advance
        return .list (← readBlockItems fuel)
      else absent
    | some .blockMap =>
      if block then
        advance
        return .map (← readBlockEntries fuel)
      else absent
    | _ => absent

/-- Reads a node, or nothing if one of the tokens in `ends` follows. -/
def readOptional (fuel : Nat) (block bare : Bool) (ends : List Token) : Read Node :=
  match fuel with
  | 0 => malformed
  | fuel + 1 => do if ← nextIs ends then return emptyNode else readNode fuel block bare

/-- Reads the elements of a block list up to its end. -/
def readBlockItems (fuel : Nat) : Read (List Node) :=
  match fuel with
  | 0 => malformed
  | fuel + 1 => do
    match ← peek with
    | some .entry =>
      advance
      let v ← readOptional fuel true false [.entry, .blockEnd]
      return v :: (← readBlockItems fuel)
    | some .blockEnd =>
      advance
      return []
    | _ => malformed

/-- Reads the elements of a block list that is not indented. -/
def readBareItems (fuel : Nat) : Read (List Node) :=
  match fuel with
  | 0 => malformed
  | fuel + 1 => do
    match ← peek with
    | some .entry =>
      advance
      let v ← readOptional fuel true false [.entry, .key, .value, .blockEnd]
      return v :: (← readBareItems fuel)
    | _ => return []

/-- Reads a key after its mark, and the value that belongs to it; `ends` are the tokens that may stand in place of
either. -/
def readPair (fuel : Nat) (block : Bool) (ends : List Token) : Read (Node × Node) :=
  match fuel with
  | 0 => malformed
  | fuel + 1 => do
    let key ← readOptional fuel block block (.value :: ends)
    if ← nextIs [.value] then
      advance
      let value ← readOptional fuel block block ends
      return (key, value)
    else return (key, emptyNode)

/-- Reads the entries of a block map up to its end. -/
def readBlockEntries (fuel : Nat) : Read (List (Node × Node)) :=
  match fuel with
  | 0 => malformed
  | fuel + 1 => do
    match ← peek with
    | some .key =>
      advance
      let e ← readPair fuel true [.key, .value, .blockEnd]
      return e :: (← readBlockEntries fuel)
    | some .blockEnd =>
      advance
      return []
    | _ => malformed

/-- Reads the elements of a flow list up to its end; a pair is a map with one entry. -/
def readFlowItems (fuel : Nat) (first : Bool) : Read (List Node) :=
  match fuel with
  | 0 => malformed
  | fuel + 1 => do
    if ← nextIs [.listClose] then
      advance
      return []
    if !first then
      if ← nextIs [.comma] then advance else malformed
    match ← peek with
    | some .listClose =>
      advance
      return []
    | some .key =>
      advance
      let e ← readPair fuel false [.comma, .listClose]
      return .map [e] :: (← readFlowItems fuel false)
    | _ =>
      let v ← readNode fuel false false
      return v :: (← readFlowItems fuel false)

/-- Reads the entries of a flow map up to its end; a key may stand alone. -/
def readFlowEntries (fuel : Nat) (first : Bool) : Read (List (Node × Node)) :=
  match fuel with
  | 0 => malformed
  | fuel + 1 => do
    if ← nextIs [.mapClose] then
      advance
      return []
    if !first then
      if ← nextIs [.comma] then advance else malformed
    match ← peek with
    | some .mapClose =>
      advance
      return []
    | some .key =>
      advance
      let e ← readPair fuel false [.comma, .mapClose]
      return e :: (← readFlowEntries fuel false)
    | _ =>
      let key ← readNode fuel false false
      return (key, emptyNode) :: (← readFlowEntries fuel false)

end

/-- Skips the marks at the end of a document. -/
def skipEnds : Nat → Read Unit
  | 0 => return
  | fuel + 1 => do
    if ← nextIs [.documentEnd] then
      advance
      skipEnds fuel

/-- Reads the one document of a text. -/
def readDocument (fuel : Nat) : Read Node := do
  let node ← match ← peek with
    | none => return emptyNode
    | some .documentStart =>
      advance
      if (← peek).isNone then pure emptyNode else readOptional fuel true false [.documentStart, .documentEnd]
    | _ => readNode fuel true false
  skipEnds fuel
  if (← peek).isSome then malformed else return node

/-- Reads a YAML text. -/
def read (s : String) : Except ReadError Value := do
  let ts := tokensOf s.toList
  let size := 4 * ts.items.length + 4
  let (written, feed) ← (readDocument size).run ⟨ts, []⟩
  let node := written.settle (feed.anchors.map fun (name, anchored) => (name, anchored.settle []))
  match node.firstFault (2 * size) with
  | some e => throw e
  | none => return node.value

end CrudScaffold.Yaml
