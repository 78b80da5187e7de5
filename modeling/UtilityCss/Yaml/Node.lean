import UtilityCss.Yaml.Token
import UtilityCss.Yaml.Value

/-!
# Nodes of a Document

The tree that a document's tokens spell, before its scalars are read as
values.

Who reads a document may ask for the text of a scalar, whatever it looks like,
so a node keeps the text and whether it was written plainly. `Node.value?`
reads the whole tree as a value.

A document may be empty, which is different from one that says `null`. It may
name nodes and repeat them by name; a repeated node is the same subtree. More
than one document in a text is an error, and so is a tree deeper than 128
collections.

## Main definitions

* `Yaml.Node`: A scalar, a sequence or a mapping.
* `Yaml.Node.value?`: The value of a node.
* `Yaml.Document`: A node, or nothing.
* `Yaml.read?`: The document that a text spells.
-/

namespace UtilityCss

namespace Yaml

/-- A scalar, a sequence or a mapping of a document. -/
inductive Node where
  /-- A scalar; `plain` if it is neither in quotes nor a block. -/
  | scalar (text : String) (plain : Bool)
  /-- A sequence. -/
  | sequence (items : List Node)
  /-- A mapping, in document order. -/
  | mapping (entries : List (Node × Node))
deriving Repr, Inhabited

namespace Node

/-- The node where nothing is written. -/
def empty : Node := .scalar "" true

mutual

/-- The value of a node. It has none if an integer in it cannot be stored. -/
def value? : Node → Option Value
  | .scalar text plain => if plain then Value.ofPlain? text else some (.text text)
  | .sequence items => (values? items).map .sequence
  | .mapping entries => (entryValues? entries).map .mapping

/-- The values of nodes. -/
def values? : List Node → Option (List Value)
  | [] => some []
  | n :: rest =>
    match value? n, values? rest with
    | some v, some vs => some (v :: vs)
    | _, _ => none

/-- The values of keys and nodes. -/
def entryValues? : List (Node × Node) → Option (List (Value × Value))
  | [] => some []
  | (k, n) :: rest =>
    match value? k, value? n, entryValues? rest with
    | some k, some v, some vs => some ((k, v) :: vs)
    | _, _, _ => none

end

mutual

/-- How many collections stand inside each other. -/
def depth : Node → Nat
  | .scalar _ _ => 0
  | .sequence items => itemsDepth items + 1
  | .mapping entries => entriesDepth entries + 1

/-- The greatest depth of some nodes. -/
def itemsDepth : List Node → Nat
  | [] => 0
  | n :: rest => max (depth n) (itemsDepth rest)

/-- The greatest depth of some keys and nodes. -/
def entriesDepth : List (Node × Node) → Nat
  | [] => 0
  | (k, n) :: rest => max (max (depth k) (depth n)) (entriesDepth rest)

end

/-- The deepest tree that is read. -/
def maxDepth : Nat := 128

end Node

/-- What reading nodes has left, and the nodes named so far. -/
structure Stream where
  /-- The tokens ahead. -/
  tokens : List Token
  /-- The named nodes, the latest first. -/
  anchors : List (List Char × Node)

/-- A step of reading nodes, which may fail. -/
abbrev Reading := StateT Stream Option

namespace Reading

/-- The next token. -/
def peek : Reading (Option Token) := do return (← get).tokens.head?

/-- The next token is passed. -/
def skip : Reading Unit := modify fun s => { s with tokens := s.tokens.tail }

/-- The next token is one of these. -/
def nextIs (ts : List Token) : Reading Bool := do
  match ← peek with
  | some t => return ts.contains t
  | none => return false

/-- A name for a node. -/
def name (a : List Char) (n : Node) : Reading Unit :=
  modify fun s => { s with anchors := (a, n) :: s.anchors }

mutual

/-- A node. `block` tells that it may be a collection by indentation, and
    `indentless` that items may follow at the indentation of their key. -/
def node : Nat → Bool → Bool → Reading Node
  | 0, _, _ => failure
  | fuel + 1, block, indentless => do
    match ← peek with
    | some (.reference a) =>
      skip
      match (← get).anchors.lookup a with
      | some n => return n
      | none => failure
    | some (.anchor a) =>
      skip
      match ← peek with
      | some (.anchor _) | some (.reference _) => failure
      | _ => pure ()
      let n ← (content fuel block indentless) <|> pure Node.empty
      name a n
      return n
    | _ => content fuel block indentless

/-- A node without a name. -/
def content : Nat → Bool → Bool → Reading Node
  | 0, _, _ => failure
  | fuel + 1, block, indentless => do
    match ← peek with
    | some (.scalar text plain) => skip; return .scalar (String.ofList text) plain
    | some .openSequence => skip; return .sequence (← flowItems fuel true)
    | some .openMapping => skip; return .mapping (← flowEntries fuel true)
    | some .item => if indentless then return .sequence (← items fuel false) else failure
    | some .blockSequence =>
      if block then skip; return .sequence (← items fuel true) else failure
    | some .blockMapping =>
      if block then skip; return .mapping (← entries fuel) else failure
    | _ => failure

/-- The items of a sequence by indentation. One that is `closed` ends with its
    own end token, one at the indentation of its key with the last item. -/
def items : Nat → Bool → Reading (List Node)
  | 0, _ => failure
  | fuel + 1, closed => do
    if ← nextIs [.item] then
      skip
      let ends : List Token :=
        if closed then [.item, .blockEnd] else [.item, .key, .value, .blockEnd]
      let first ← if ← nextIs ends then pure Node.empty else node fuel true false
      return first :: (← items fuel closed)
    else if closed then
      if ← nextIs [.blockEnd] then skip; return [] else failure
    else return []

/-- The entries of a mapping by indentation. -/
def entries : Nat → Reading (List (Node × Node))
  | 0 => failure
  | fuel + 1 => do
    if ← nextIs [.key] then
      skip
      let ends : List Token := [.key, .value, .blockEnd]
      let k ← if ← nextIs ends then pure Node.empty else node fuel true true
      let v ←
        if ← nextIs [.value] then
          skip
          if ← nextIs ends then pure Node.empty else node fuel true true
        else pure Node.empty
      return (k, v) :: (← entries fuel)
    else if ← nextIs [.blockEnd] then skip; return []
    else failure

/-- The items between brackets. An item that starts like an entry is a mapping of
    that one entry. -/
def flowItems : Nat → Bool → Reading (List Node)
  | 0, _ => failure
  | fuel + 1, first => do
    if ← nextIs [.closeSequence] then skip; return []
    else
      if !first then
        if ← nextIs [.comma] then skip else failure
      if ← nextIs [.closeSequence] then
        if first then failure else skip; return []
      else if ← nextIs [.key] then
        skip
        let ends : List Token := [.comma, .closeSequence]
        let k ←
          if ← nextIs (.value :: ends) then skip; pure Node.empty
          else node fuel false false
        let v ←
          if ← nextIs [.value] then
            skip
            if ← nextIs ends then pure Node.empty else node fuel false false
          else pure Node.empty
        return .mapping [(k, v)] :: (← flowItems fuel false)
      else
        let n ← node fuel false false
        return n :: (← flowItems fuel false)

/-- The entries between braces. An entry without a colon has no value. -/
def flowEntries : Nat → Bool → Reading (List (Node × Node))
  | 0, _ => failure
  | fuel + 1, first => do
    if ← nextIs [.closeMapping] then skip; return []
    else
      if !first then
        if ← nextIs [.comma] then skip else failure
      if ← nextIs [.closeMapping] then skip; return []
      else if ← nextIs [.key] then
        skip
        let ends : List Token := [.comma, .closeMapping]
        let k ←
          if ← nextIs (.value :: ends) then pure Node.empty else node fuel false false
        let v ←
          if ← nextIs [.value] then
            skip
            if ← nextIs ends then pure Node.empty else node fuel false false
          else pure Node.empty
        return (k, v) :: (← flowEntries fuel false)
      else
        let k ← node fuel false false
        return (k, Node.empty) :: (← flowEntries fuel false)

end

end Reading

/-- What a text spells: a node, or nothing at all. -/
abbrev Document := Option Node

/-- The document of a list of tokens. After the node nothing but document end
    markers may follow. -/
def ofTokens? (tokens : List Token) : Option Document :=
  match tokens with
  | [] => some none
  | t :: rest =>
    let fuel := 4 * tokens.length + 4
    let explicit := t = .documentStart
    let tokens := if explicit then rest else tokens
    let result? :=
      if explicit && (match tokens.head? with
          | some .documentStart | some .documentEnd | none => true
          | _ => false) then some (Node.empty, tokens)
      else ((Reading.node fuel true false).run ⟨tokens, []⟩).map fun (n, s) => (n, s.tokens)
    match result? with
    | some (n, rest) =>
      if rest.all (· = .documentEnd) && n.depth ≤ Node.maxDepth then some (some n) else none
    | none => none

/-- The document that a text spells, or `none` if it is malformed. -/
def read? (text : String) : Option Document :=
  match tokens? text with
  | some tokens => ofTokens? tokens
  | none => none

end Yaml

end UtilityCss
