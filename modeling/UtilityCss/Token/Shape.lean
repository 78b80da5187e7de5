import UtilityCss.Text.Blank

/-!
# The Shape of a Class Token

Which texts look like class tokens.

Scanning decides by shape alone, before anything is known about utilities: a
text has the shape if it is a chain of variant groups, then optionally `!` and
`-`, then a stem of letters, digits, dots and hyphens, and at the end nothing,
a slash with digits, or a hyphen with a bracketed value.

A variant group starts with a letter, a digit or `@`, continues with those and
hyphens, and ends in a colon. No later part can hold a colon except a bracketed
value, so the groups are found by taking characters greedily and looking for
the colon; `groupsOf` needs no way back.

## Main definitions

* `Shape`: The parts that the shape distinguishes.
* `shape?`: The shape of a text.
* `isToken`: The text has the shape and is not too long.
-/

namespace UtilityCss

namespace Token

/-- What ends a token of the right shape. -/
inductive Tail where
  /-- Nothing follows the stem. -/
  | none
  /-- A slash and digits. -/
  | slash (digits : List Char)
  /-- A hyphen and a bracketed value; the value without its brackets. -/
  | bracket (value : List Char)
deriving DecidableEq, Repr

/-- The parts that the shape of a token distinguishes. -/
structure Shape where
  /-- The variant groups, without their colons. -/
  groups : List (List Char)
  /-- There is a `!`. -/
  important : Bool
  /-- There is a `-` before the stem. -/
  negative : Bool
  /-- The stem, without what the tail takes from it. -/
  stem : List Char
  /-- The end of the token. -/
  tail : Tail
deriving DecidableEq, Repr

/-- The longest token that is looked at, in bytes. -/
def maxBytes : Nat := 256

/-- The character can start a variant group. -/
def isGroupStart (c : Char) : Bool := c.isLower || c.isDigit || c = '@'

/-- The character can continue a variant group. -/
def isGroupChar (c : Char) : Bool := isGroupStart c || c = '-'

/-- The character can continue a stem. -/
def isStemChar (c : Char) : Bool := c.isLower || c.isDigit || c = '.' || c = '-'

/-- The character can stand in a bracketed value. -/
def isInnerChar (c : Char) : Bool := !Text.isBlank c && c ≠ '[' && c ≠ ']'

/-- The variant groups at the start of a text, and the text after them.
    `pending` holds the characters of the group being read, last one first,
    and `here` is the text from its start. -/
def groupsOf (here : List Char) (pending : List Char) :
    List Char → List (List Char) × List Char
  | [] => ([], here)
  | c :: cs =>
    if c = ':' ∧ pending ≠ [] then
      let (groups, rest) := groupsOf cs [] cs
      (pending.reverse :: groups, rest)
    else if (if pending = [] then isGroupStart c else isGroupChar c) then
      groupsOf here (c :: pending) cs
    else ([], here)

/-- The tail that the text after a stem is, given the stem's characters after
    its first one. Gives what is left of them, and the tail. -/
def tailOf (stem : List Char) : List Char → Option (List Char × Tail)
  | [] => some (stem, .none)
  | '/' :: digits =>
    if digits.isEmpty || !digits.all Char.isDigit then none
    else some (stem, .slash digits)
  | '[' :: cs =>
    let inner := cs.dropLast
    if stem.getLast? = some '-' && cs.getLast? = some ']' && !inner.isEmpty
        && inner.all isInnerChar then
      some (stem.dropLast, .bracket inner)
    else none
  | _ :: _ => none

/-- The shape of a text, or `none` for a text of another shape. -/
def shape? (cs : List Char) : Option Shape :=
  let (groups, rest) := groupsOf cs [] cs
  let (important, rest) := match rest with
    | '!' :: rest => (true, rest)
    | _ => (false, rest)
  let (negative, rest) := match rest with
    | '-' :: rest => (true, rest)
    | _ => (false, rest)
  match rest with
  | [] => none
  | c :: rest =>
    if c.isLower then
      (tailOf (rest.takeWhile isStemChar) (rest.dropWhile isStemChar)).map
        fun (stem, tail) => ⟨groups, important, negative, c :: stem, tail⟩
    else none

/-- The text has the shape of a class token and is not too long for one. -/
def isToken (s : String) : Bool :=
  s.utf8ByteSize ≤ maxBytes && (shape? s.toList).isSome

end Token

end UtilityCss
