import UtilityCss.Text.Cut

/-!
# Class Tokens

A class token such as `md:hover:!-mt-4`, taken apart.

A token is a chain of variant names, each followed by a colon, then an
optional `!` for importance, an optional `-` for a negated value, and the
core, which starts with a lower-case letter. A colon inside brackets is part
of a bracketed value and separates nothing.

The core in turn is read as a utility's name alone or as a name, a hyphen and a
value. There can be several such readings; `readings` lists them, longest name
first, which is the order in which they are tried. A bracketed value is never
cut inside.

## Main definitions

* `Token`: The parts of a class token.
* `Token.groups`: The pieces between colons outside brackets.
* `Token.parse?`: The parts of a token text.
* `Token.readings`: The ways to read a core as name and value.
* `Token.escape`: A token as an identifier in a selector.
-/

namespace UtilityCss

/-- The parts of a class token. -/
structure Token where
  /-- The variant names, in order. -/
  variants : List String
  /-- The token is marked important with `!`. -/
  important : Bool
  /-- The value is to be negated. -/
  negative : Bool
  /-- The utility's name, with its value if it has one. -/
  core : String
deriving DecidableEq, Repr, Inhabited

namespace Token

/-- One character more at the start of the first piece. -/
def onFirst (c : Char) : List (List Char) → List (List Char)
  | [] => [[c]]
  | piece :: pieces => (c :: piece) :: pieces

/-- The pieces between the colons that stand outside brackets, given how many
    brackets are open. There are none if brackets do not pair up. -/
def groups : Nat → List Char → Option (List (List Char))
  | 0, [] => some [[]]
  | _ + 1, [] => none
  | depth, c :: cs =>
    if c = '[' then (groups (depth + 1) cs).map (onFirst c)
    else if c = ']' then
      match depth with
      | 0 => none
      | depth + 1 => (groups depth cs).map (onFirst c)
    else if c = ':' ∧ depth = 0 then (groups 0 cs).map ([] :: ·)
    else (groups depth cs).map (onFirst c)

/-- One character taken off the start, if it is there. -/
def strip (c : Char) : List Char → Bool × List Char
  | [] => (false, [])
  | d :: cs => if d = c then (true, cs) else (false, d :: cs)

/-- The text starts with a lower-case ASCII letter. -/
def startsLower : List Char → Bool
  | [] => false
  | c :: _ => c.isLower

/-- The parts of a token, or `none` for a text that is no class token. -/
def parse? (token : String) : Option Token :=
  match groups 0 token.toList with
  | none => none
  | some pieces =>
    let variants := pieces.dropLast
    let (important, rest) := strip '!' (pieces.getLastD [])
    let (negative, core) := strip '-' rest
    if variants.any List.isEmpty || !startsLower core then none
    else some ⟨variants.map String.ofList, important, negative, String.ofList core⟩

/-- A way to read a core: a utility's name, and the value if there is one. -/
structure Reading where
  /-- The utility's name. -/
  stem : String
  /-- The value after the name, brackets included. -/
  value : Option String
deriving DecidableEq, Repr, Inhabited

/-- Both sides of every hyphen, from left to right. -/
def hyphenCuts : List Char → List (List Char × List Char)
  | [] => []
  | c :: cs =>
    let later := (hyphenCuts cs).map fun (a, b) => (c :: a, b)
    if c = '-' then ([], cs) :: later else later

/-- The text before the first `-[`, and the text from its bracket on. -/
def cutBracket : List Char → Option (List Char × List Char)
  | [] => none
  | c :: cs =>
    match c, cs with
    | '-', '[' :: _ => some ([], cs)
    | _, _ => (cutBracket cs).map fun (a, b) => (c :: a, b)

/-- The ways to read a core, longest name first: the whole core as a name, then
    every cut at a hyphen with text on both sides. A core that ends in `]` is
    only cut before its bracketed value. -/
def readings (core : String) : List Reading :=
  let cs := core.toList
  if cs.getLast? = some ']' then
    match cutBracket cs with
    | some (stem, value) => [⟨String.ofList stem, some (String.ofList value)⟩]
    | none => []
  else
    ⟨core, none⟩ ::
      ((hyphenCuts cs).reverse.filter fun (a, b) => !a.isEmpty && !b.isEmpty).map
        fun (a, b) => ⟨String.ofList a, some (String.ofList b)⟩

/-- The character can stand in an identifier as it is. -/
def isPlain (c : Char) : Bool :=
  c.isAlphanum || c = '-' || c = '_' || 0x80 ≤ c.toNat

/-- A character of an identifier, with a backslash where one is needed. -/
def escapeChar (c : Char) : List Char :=
  if isPlain c then [c] else ['\\', c]

/-- The characters of a token as an identifier. An identifier cannot start with
    a digit, so a leading digit is written by its code point, which a space
    ends. -/
def escapeChars : List Char → List Char
  | [] => []
  | c :: cs =>
    (if c.isDigit then ['\\', '3', c, ' '] else escapeChar c) ++ cs.flatMap escapeChar

/-- A token as an identifier in a selector. -/
def escape (token : String) : String :=
  String.ofList (escapeChars token.toList)

end Token

end UtilityCss
