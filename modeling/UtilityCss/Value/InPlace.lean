import UtilityCss.Text.Slice
import UtilityCss.Value.Arbitrary

/-!
# Bracketed Values in Place

Checking a bracketed value without copying it.

The name of a called function is cut out of the value at each opening parenthesis. It starts
behind the last character that cannot be part of a name, and its start is taken to be one byte
further than that character. This is right only because all characters of the value have been
checked before, and every allowed character is a single byte; the check of the calls alone would
end in a fault at `é(`.

## Main definitions

* `ArbitraryValue.callsInPlace`: Parentheses balance and only listed functions are called.
* `ArbitraryValue.cutNumberInPlace`: A number with the text after it.
* `ArbitraryValue.parseInPlace`: The value between two brackets.
-/

namespace UtilityCss

namespace ArbitraryValue

/-- Parentheses balance and only listed functions are called, from the characters that are left.
    Some parentheses are open, and a name can start at a position. -/
def callsInPlace (value : String) (depth start : Nat) :
    List (Nat × Char) → Except Text.Fault Bool
  | [] => return depth = 0
  | (i, c) :: rest =>
    if c = '(' then do
      let run ← Text.slice value start i
      if isCallable (calledName run.toList) then callsInPlace value (depth + 1) (i + 1) rest
      else return false
    else if c = ')' then
      if depth = 0 then return false
      else do
        let depth ← Text.oneLess depth
        callsInPlace value depth (i + 1) rest
    else if isNameChar c then callsInPlace value depth start rest
    else callsInPlace value depth (i + 1) rest

/-- The character can be part of a number. -/
def isNumberPart (c : Char) : Bool := c.isDigit || c = '.'

/-- The number of bytes of the sign that a value starts with. -/
def signWidth (value : String) : Nat :=
  if value.toList.head? = some '-' ∨ value.toList.head? = some '+' then 1 else 0

/-- The position behind the number that a value starts with. -/
def numberEnd (value : String) : Except Text.Fault Nat := do
  let body ← Text.sliceFrom value (signWidth value)
  match Text.positionOf? (fun c => !isNumberPart c) body with
  | some i => return i + signWidth value
  | none => return value.utf8ByteSize

/-- A number with the text after it: an optional sign, then digits with at most one point. -/
def cutNumberInPlace (value : String) : Except Text.Fault (Option (String × String)) := do
  let stop ← numberEnd value
  let number ← Text.sliceTo value stop
  let digits ← Text.sliceFrom number (signWidth value)
  if digits.isEmpty || (Decimal.readDouble? digits.toList).isNone then return none
  else
    let rest ← Text.sliceFrom value stop
    return some (number, rest)

/-- The kind told from the text, which must be in lower case. -/
def classifyLowerInPlace (value : String) : Except Text.Fault ArbitraryKind :=
  let startsWithAny := fun words : List String =>
    words.any fun w => (Text.dropWord? w.toList value.toList).isSome
  if isHexColor value.toList || value = "transparent" || value = "currentcolor"
      || startsWithAny colorStarts then return .color
  else if startsWithAny ambiguousStarts then return .ambiguous
  else do
    match ← cutNumberInPlace value with
    | some (_, unit) =>
      return if unit = "" then .number else if lengthUnits.contains unit then .length else .other
    | none => return .other

/-- A text without hint as a value, of a pinned kind if there is one. The characters are checked
    before the calls. -/
def ofBodyInPlace (pinned : Option ArbitraryKind) (body : List Char) :
    Except Text.Fault (Option ArbitraryValue) :=
  let value := String.ofList (spaced body)
  if value.isEmpty || maxBytes < value.utf8ByteSize || !value.toList.all isAllowed then return none
  else do
    if ← callsInPlace value 0 0 (Text.positioned value) then
      match pinned with
      | some kind => return some ⟨value, kind⟩
      | none =>
        let kind ← classifyLowerInPlace (String.ofList (value.toList.map Char.toLower))
        return some ⟨value, kind⟩
    else return none

/-- The value that the text between two brackets stands for. -/
def parseInPlace (raw : String) : Except Text.Fault (Option ArbitraryValue) :=
  match Text.cutFirst ':' raw.toList with
  | none => ofBodyInPlace none raw.toList
  | some (hint, body) =>
    match hintKind? (String.ofList hint) with
    | some kind => ofBodyInPlace (some kind) body
    | none => return none

end ArbitraryValue

end UtilityCss
