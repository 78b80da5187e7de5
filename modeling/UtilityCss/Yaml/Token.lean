import UtilityCss.Yaml.Scalar

/-!
# Tokens of a Document

A document as a list of tokens, in which structure given by indentation has
become explicit.

Indentation opens and closes block collections, so reading keeps a stack of
columns and adds start and end tokens where they change. A mapping's key is only
known to be one when its colon arrives: until then the place where a key *may*
have started is remembered, and the key token is put there afterwards. Such a
place is given up after the end of its line or 1024 characters; giving it up is
an error where the indentation allows nothing but a key.

Anchors and aliases are read. Left out are tags (`!name` before a node) and
directives (`%YAML`, `%TAG` before a document): a document with one of them is
refused here, although it could be read. No configuration that is written by
discovery has any.

## Main definitions

* `Yaml.Token`: A token.
* `Yaml.KeyPlace`: Where a key may have started.
* `Yaml.Lexer`: The state of reading.
* `Yaml.tokens?`: The tokens of a document.
-/

namespace UtilityCss

namespace Yaml

/-- A token of a document. -/
inductive Token where
  /-- A line of three hyphens. -/
  | documentStart
  /-- A line of three dots. -/
  | documentEnd
  /-- A sequence by indentation starts. -/
  | blockSequence
  /-- A mapping by indentation starts. -/
  | blockMapping
  /-- A collection by indentation ends. -/
  | blockEnd
  /-- An opening bracket. -/
  | openSequence
  /-- A closing bracket. -/
  | closeSequence
  /-- An opening brace. -/
  | openMapping
  /-- A closing brace. -/
  | closeMapping
  /-- The hyphen before an item. -/
  | item
  /-- A comma between items. -/
  | comma
  /-- A key follows. -/
  | key
  /-- The colon before a value. -/
  | value
  /-- A name for the node that follows. -/
  | anchor (name : List Char)
  /-- A node named before. -/
  | reference (name : List Char)
  /-- A scalar; `plain` if it is not in quotes and no block. -/
  | scalar (text : List Char) (plain : Bool)
deriving DecidableEq, Repr

/-- Where a key may have started. -/
structure KeyPlace where
  /-- Nothing but a key may stand there. -/
  required : Bool
  /-- How many tokens stand before it. -/
  token : Nat
  /-- The cursor's index, line and column there. -/
  index : Nat
  line : Nat
  column : Nat

/-- The state of reading. -/
structure Lexer where
  /-- The unread part. -/
  cur : Cursor
  /-- The tokens read. -/
  tokens : Array Token
  /-- The column of the open collection, `-1` outside of all. -/
  indent : Int
  /-- The columns of the collections around it. -/
  outer : List Int
  /-- Where a key may have started, outside brackets or inside the innermost. -/
  place : Option KeyPlace
  /-- The same for the brackets around, innermost first. -/
  around : List (Option KeyPlace)
  /-- A key may start here. -/
  keyAllowed : Bool

namespace Lexer

/-- The start of a document. -/
def start (cs : List Char) : Lexer :=
  ⟨Cursor.start cs, #[], -1, [], none, [], true⟩

/-- The cursor is inside brackets or braces. -/
def inFlow (lx : Lexer) : Bool := !lx.around.isEmpty

/-- One token more. -/
def push (lx : Lexer) (t : Token) : Lexer := { lx with tokens := lx.tokens.push t }

/-- The characters after which something can start: spaces, line ends and
    comments are passed, and tabs where they are no indentation. After a line
    end outside brackets a key may start. -/
def skipFrom (flow : Bool) : Nat → Bool → Bool → Cursor → Cursor × Bool
  | 0, _, keyAllowed, cur => (cur, keyAllowed)
  | fuel + 1, comment, keyAllowed, cur =>
    match cur.rest with
    | [] => (cur, keyAllowed)
    | c :: _ =>
      if isBreak c then
        skipFrom flow fuel false (keyAllowed || !flow) cur.nextLine.1
      else if comment then skipFrom flow fuel true keyAllowed (cur.next 1)
      else if c = ' ' || (c = '\t' && (flow || !keyAllowed)) then
        skipFrom flow fuel false keyAllowed (cur.next 1)
      else if c = '#' then skipFrom flow fuel true keyAllowed (cur.next 1)
      else (cur, keyAllowed)

/-- The reader at the next place where something can start. -/
def skip (lx : Lexer) : Lexer :=
  let (cur, keyAllowed) :=
    skipFrom lx.inFlow (lx.cur.rest.length + 1) false lx.keyAllowed lx.cur
  { lx with cur := cur, keyAllowed := keyAllowed }

/-- A place that has gone out of reach is given up. -/
def expire? (cur : Cursor) (place : Option KeyPlace) : Option (Option KeyPlace) :=
  match place with
  | none => some none
  | some p =>
    if p.line < cur.line || p.index + 1024 < cur.index then
      if p.required then none else some none
    else some (some p)

/-- All places that have gone out of reach are given up. -/
def expireAll? (lx : Lexer) : Option Lexer :=
  match expire? lx.cur lx.place, lx.around.mapM (expire? lx.cur) with
  | some place, some around => some { lx with place := place, around := around }
  | _, _ => none

/-- The place is given up; an error where a key was required. -/
def dropPlace? (lx : Lexer) : Option Lexer :=
  match lx.place with
  | some p => if p.required then none else some { lx with place := none }
  | none => some lx

/-- A key may start here, if it may at all. -/
def savePlace? (lx : Lexer) : Option Lexer :=
  if lx.keyAllowed then
    let required := !lx.inFlow && lx.indent = (lx.cur.column : Int)
    let place : KeyPlace :=
      ⟨required, lx.tokens.size, lx.cur.index, lx.cur.line, lx.cur.column⟩
    (lx.dropPlace?).map fun lx => { lx with place := some place }
  else some lx

/-- A collection by indentation opens at a column, unless it is open already.
    Its start token goes before the token with the given number. -/
def openBlock (lx : Lexer) (column : Nat) (before : Nat) (t : Token) : Lexer :=
  if !lx.inFlow && lx.indent < (column : Int) then
    { lx with
      outer := lx.indent :: lx.outer, indent := column,
      tokens := lx.tokens.insertIdxIfInBounds before t }
  else lx

/-- The columns left when every collection deeper than `column` is closed, and
    how many those are. -/
def closeFrom (column : Int) : Int → List Int → Nat → Int × List Int × Nat
  | indent, [], closed => (indent, [], closed)
  | indent, up :: outer, closed =>
    if column < indent then closeFrom column up outer (closed + 1)
    else (indent, up :: outer, closed)

/-- The collections deeper than a column close. -/
def closeBlocks (lx : Lexer) (column : Int) : Lexer :=
  if lx.inFlow then lx
  else
    let (indent, outer, closed) := closeFrom column lx.indent lx.outer 0
    { lx with
      indent := indent, outer := outer,
      tokens := lx.tokens ++ Array.replicate closed Token.blockEnd }

/-- The reader after some characters. -/
def advance (lx : Lexer) (count : Nat) : Lexer := { lx with cur := lx.cur.next count }

/-- A document marker. -/
def marker? (lx : Lexer) (t : Token) : Option Lexer :=
  match (lx.closeBlocks (-1)).dropPlace? with
  | some lx => some (({ lx with keyAllowed := false }.advance 3).push t)
  | none => none

/-- An opening bracket or brace. -/
def openFlow? (lx : Lexer) (t : Token) : Option Lexer :=
  match lx.savePlace? with
  | some lx =>
    some (({ lx with
      around := lx.place :: lx.around, place := none, keyAllowed := true }.advance 1).push t)
  | none => none

/-- A closing bracket or brace. -/
def closeFlow? (lx : Lexer) (t : Token) : Option Lexer :=
  match lx.dropPlace? with
  | some lx =>
    let lx := match lx.around with
      | place :: around => { lx with place := place, around := around }
      | [] => lx
    some (({ lx with keyAllowed := false }.advance 1).push t)
  | none => none

/-- A comma. -/
def comma? (lx : Lexer) : Option Lexer :=
  match lx.dropPlace? with
  | some lx => some (({ lx with keyAllowed := true }.advance 1).push .comma)
  | none => none

/-- The hyphen before an item. -/
def item? (lx : Lexer) : Option Lexer :=
  if !lx.inFlow && !lx.keyAllowed then none
  else
    match (lx.openBlock lx.cur.column lx.tokens.size .blockSequence).dropPlace? with
    | some lx => some (({ lx with keyAllowed := true }.advance 1).push .item)
    | none => none

/-- The question mark before a key. -/
def key? (lx : Lexer) : Option Lexer :=
  if !lx.inFlow && !lx.keyAllowed then none
  else
    match (lx.openBlock lx.cur.column lx.tokens.size .blockMapping).dropPlace? with
    | some lx => some (({ lx with keyAllowed := !lx.inFlow }.advance 1).push .key)
    | none => none

/-- The colon before a value. If a key may have started before it, it has. -/
def value? (lx : Lexer) : Option Lexer :=
  match lx.place with
  | some p =>
    let lx := { lx with
      tokens := lx.tokens.insertIdxIfInBounds p.token .key, place := none,
      keyAllowed := false }
    some (((lx.openBlock p.column p.token .blockMapping).advance 1).push .value)
  | none =>
    if !lx.inFlow && !lx.keyAllowed then none
    else
      let lx := lx.openBlock lx.cur.column lx.tokens.size .blockMapping
      some (({ lx with keyAllowed := !lx.inFlow }.advance 1).push .value)

/-- The name after the sign of an anchor or alias, and the reader after it. -/
def name? (lx : Lexer) : Option (List Char × Lexer) :=
  match lx.savePlace? with
  | some lx =>
    let (name, cur) := (lx.cur.next 1).span fun c => c.isAlphanum || c = '-' || c = '_'
    let ends := startsBlank cur.rest ||
      (cur.rest.head?.map fun c => ['?', ':', ',', ']', '}', '%', '@', '`'].contains c).getD
        false
    if name.isEmpty || !ends then none
    else some (name, { lx with cur := cur, keyAllowed := false })
  | none => none

/-- A scalar in a line of its own reading, where a key may start. -/
def inline? (lx : Lexer) (plain : Bool) (read? : Cursor → Option ScalarRead) :
    Option Lexer :=
  match lx.savePlace? with
  | some lx =>
    match read? lx.cur with
    | some s =>
      some ({ lx with cur := s.after, keyAllowed := s.crossed }.push (.scalar s.text plain))
    | none => none
  | none => none

/-- A block scalar. -/
def block? (lx : Lexer) : Option Lexer :=
  match lx.dropPlace? with
  | some lx =>
    match readBlock? lx.indent lx.cur with
    | some s => some ({ lx with cur := s.after, keyAllowed := true }.push (.scalar s.text false))
    | none => none
  | none => none

/-- The character starts no plain scalar. -/
def isIndicator (c : Char) : Bool :=
  ['-', '?', ':', ',', '[', ']', '{', '}', '#', '&', '*', '!', '|', '>', '\'', '"', '%',
   '@', '`'].contains c

/-- The token that starts where the cursor stands, or the tokens that close everything at the end
    of the document. The answer tells whether the document goes on. -/
def token? (lx : Lexer) : Option (Bool × Lexer) :=
  match lx.cur.rest with
  | [] => ((lx.closeBlocks (-1)).dropPlace?).map fun lx => (false, lx)
  | c :: rest =>
    let flow := lx.inFlow
    let blank := startsBlank rest
    let next? :=
      if lx.cur.column = 0 && c = '%' then none
      else if lx.cur.atMarker then
        lx.marker? (if c = '-' then .documentStart else .documentEnd)
      else if c = '[' then lx.openFlow? .openSequence
      else if c = '{' then lx.openFlow? .openMapping
      else if c = ']' then lx.closeFlow? .closeSequence
      else if c = '}' then lx.closeFlow? .closeMapping
      else if c = ',' then lx.comma?
      else if c = '-' && blank then lx.item?
      else if c = '?' && (flow || blank) then lx.key?
      else if c = ':' && (flow || blank) then lx.value?
      else if c = '*' then (lx.name?).map fun (name, lx) => lx.push (.reference name)
      else if c = '&' then (lx.name?).map fun (name, lx) => lx.push (.anchor name)
      else if (c = '|' || c = '>') && !flow then lx.block?
      else if c = '\'' || c = '"' then lx.inline? false (readQuoted? c)
      else if isGap c then none
      else if !isIndicator c || (c = '-' && !(rest.head?.map isGap).getD false)
          || (!flow && (c = '?' || c = ':') && !blank) then
        lx.inline? true (readPlain? flow (lx.indent + 1))
      else none
    next?.map fun lx => (true, lx)

/-- One token from where something can start, with what is closed before it. -/
def step? (lx : Lexer) : Option (Bool × Lexer) :=
  match lx.skip.expireAll? with
  | none => none
  | some lx => token? (lx.closeBlocks lx.cur.column)

/-- Tokens until the end of the document. -/
def run? : Nat → Lexer → Option (List Token)
  | 0, _ => none
  | fuel + 1, lx =>
    match lx.step? with
    | some (true, lx) => run? fuel lx
    | some (false, lx) => some lx.tokens.toList
    | none => none

end Lexer

/-- The tokens of a document, or `none` if it is malformed. A byte order mark at
    its start is passed over. -/
def tokens? (text : String) : Option (List Token) :=
  let cs := match text.toList with
    | '\uFEFF' :: rest => rest
    | cs => cs
  if cs.all isPrintable then (Lexer.start cs).run? (cs.length + 2) else none

end Yaml

end UtilityCss
