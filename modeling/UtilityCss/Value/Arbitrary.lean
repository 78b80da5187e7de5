import UtilityCss.Text.Blank
import UtilityCss.Text.Cut
import UtilityCss.Decimal.Reading

/-!
# Bracketed Values

The value between the brackets of a token such as `p-[3px]`.

A bracketed value is copied into the stylesheet, so it is checked instead of
trusted: a bounded length, a small set of characters, balanced parentheses, and
a fixed list of functions. Underscores stand for spaces.

The kind of the value decides which property of a utility it may fill. It is
told from the text, unless a hint before a colon says it: `color:var(--x)`.

## Main definitions

* `ArbitraryKind`: What a value looks like.
* `ArbitraryValue`: A checked value with its kind.
* `ArbitraryValue.parse?`: The value between two brackets.
* `ValueKind`: What a utility accepts.
* `ValueKind.admits`: A value fits what is accepted.
-/

namespace UtilityCss

/-- What a bracketed value looks like. -/
inductive ArbitraryKind where
  /-- A colour. -/
  | color
  /-- A number with a unit. -/
  | length
  /-- A number. -/
  | number
  /-- A function such as `var` that can give anything. -/
  | ambiguous
  /-- Keywords and compound values. -/
  | other
deriving DecidableEq, Repr, Inhabited

/-- A checked bracketed value. -/
structure ArbitraryValue where
  /-- The text that goes into the stylesheet. -/
  value : String
  /-- What it looks like. -/
  kind : ArbitraryKind
deriving DecidableEq, Repr, Inhabited

namespace ArbitraryValue

/-- The longest value, in bytes. -/
def maxBytes : Nat := 128

/-- The functions that may be called. -/
def functions : List String :=
  ["calc", "min", "max", "clamp", "var", "env", "rgb", "rgba", "hsl", "hsla",
   "minmax", "repeat", "fit-content"]

/-- The starts of values that are colours. -/
def colorStarts : List String := ["rgb(", "rgba(", "hsl(", "hsla("]

/-- The starts of values that can be anything. -/
def ambiguousStarts : List String := ["var(", "calc(", "min(", "max(", "clamp(", "env("]

/-- The units of lengths, angles and durations. -/
def lengthUnits : List String :=
  ["px", "rem", "em", "%", "vh", "vw", "vmin", "vmax", "dvh", "dvw", "svh", "svw",
   "ch", "ex", "fr", "deg", "turn", "ms", "s", "pt", "cm", "mm", "in"]

/-- The kind that a hint before the colon pins. -/
def hintKind? (hint : String) : Option ArbitraryKind :=
  if hint = "color" then some .color
  else if hint = "length" ∨ hint = "percentage" then some .length
  else if hint = "number" then some .number
  else if hint = "any" then some .other
  else none

/-- The character may stand in a bracketed value. -/
def isAllowed (c : Char) : Bool :=
  c.isAlphanum || [' ', '#', '.', '%', '-', '+', '*', '/', '(', ')', ','].contains c

/-- The character can be part of a function's name. -/
def isNameChar (c : Char) : Bool := c.isAlpha || c = '-'

/-- The name of the function called at an opening parenthesis, given the
    name characters before it: signs and operators in front are no part of it. -/
def calledName (run : List Char) : List Char :=
  run.dropWhile fun c => ['-', '+', '*', '/', ' '].contains c

/-- The name may be called: it is empty or listed, in any letter case. -/
def isCallable (name : List Char) : Bool :=
  name.isEmpty || functions.contains (String.ofList (name.map Char.toLower))

/-- Parentheses balance and only listed functions are called, given the number
    of open parentheses and the name characters just read, last one first. -/
def callsAllowed : Nat → List Char → List Char → Bool
  | depth, _, [] => depth = 0
  | depth, run, c :: cs =>
    if c = '(' then
      isCallable (calledName run.reverse) && callsAllowed (depth + 1) [] cs
    else if c = ')' then
      match depth with
      | 0 => false
      | depth + 1 => callsAllowed depth [] cs
    else if isNameChar c then callsAllowed depth (c :: run) cs
    else callsAllowed depth [] cs

/-- A hexadecimal colour: `#` and three, four, six or eight digits. -/
def isHexColor : List Char → Bool
  | '#' :: hex =>
    [3, 4, 6, 8].contains hex.length
      && hex.all fun c => c.isDigit || ('a' ≤ c && c ≤ 'f') || ('A' ≤ c && c ≤ 'F')
  | _ => false

/-- A number with the text after it: an optional sign, then digits with at most
    one point. -/
def cutNumber? (cs : List Char) : Option (List Char × List Char) :=
  let (sign, body) := match cs with
    | '-' :: rest => (['-'], rest)
    | '+' :: rest => (['+'], rest)
    | _ => ([], cs)
  let isPart := fun c : Char => c.isDigit || c = '.'
  let number := body.takeWhile isPart
  if (Decimal.readDouble? number).isSome then some (sign ++ number, body.dropWhile isPart)
  else none

/-- The kind told from the text, which must be in lower case. -/
def classifyLower (cs : List Char) : ArbitraryKind :=
  let startsWithAny := fun words : List String =>
    words.any fun w => (Text.dropWord? w.toList cs).isSome
  if isHexColor cs || cs = "transparent".toList || cs = "currentcolor".toList
      || startsWithAny colorStarts then .color
  else if startsWithAny ambiguousStarts then .ambiguous
  else match cutNumber? cs with
    | some (_, []) => .number
    | some (_, rest) => if lengthUnits.contains (String.ofList rest) then .length else .other
    | none => .other

/-- The kind told from the text, in any letter case. -/
def classify (cs : List Char) : ArbitraryKind :=
  classifyLower (cs.map Char.toLower)

/-- The text with spaces for underscores and without outer blanks. -/
def spaced (cs : List Char) : List Char :=
  Text.trimBlank (cs.map fun c => if c = '_' then ' ' else c)

/-- The text may be copied into the stylesheet. -/
def isSafe (cs : List Char) : Bool :=
  !cs.isEmpty && (String.ofList cs).utf8ByteSize ≤ maxBytes
    && cs.all isAllowed && callsAllowed 0 [] cs

/-- A text without hint as a value, of a pinned kind if there is one. -/
def ofBody? (pinned : Option ArbitraryKind) (body : List Char) : Option ArbitraryValue :=
  let cs := spaced body
  if isSafe cs then some ⟨String.ofList cs, pinned.getD (classify cs)⟩ else none

/-- The value that the text between two brackets stands for. -/
def parse? (raw : String) : Option ArbitraryValue :=
  match Text.cutFirst ':' raw.toList with
  | none => ofBody? none raw.toList
  | some (hint, body) =>
    match hintKind? (String.ofList hint) with
    | some kind => ofBody? (some kind) body
    | none => none

end ArbitraryValue

/-- What a utility accepts between brackets. -/
inductive ValueKind where
  /-- Everything. -/
  | any
  /-- Lengths, and zero. -/
  | length
  /-- Colours. -/
  | color
  /-- Numbers. -/
  | number
deriving DecidableEq, Repr, Inhabited

/-- A bracketed value fits what is accepted. What can be anything fits
    everywhere, and `0` is a length without a unit. -/
def ValueKind.admits (accepted : ValueKind) (v : ArbitraryValue) : Bool :=
  match accepted, v.kind with
  | .any, _ => true
  | .length, .length | .length, .ambiguous => true
  | .length, .number => v.value = "0"
  | .color, .color | .color, .ambiguous => true
  | .number, .number | .number, .ambiguous => true
  | _, _ => false

end UtilityCss
