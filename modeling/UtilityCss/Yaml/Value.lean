import UtilityCss.Decimal.Shortest
import UtilityCss.Decimal.Reading

/-!
# Values of a Configuration

The values that a YAML document holds, and how plain text is read as one.

A scalar written without quotes is null, a truth value, a number or text,
decided by the YAML 1.2 core rules in that order. A scalar in quotes is text.
Integers keep their exact value; other numbers are doubles, and a number used
as text is printed from its value, with the fewest digits that read back.

A value can stand under a tag of its own. It is then none of the others,
whatever the tag is put on.

Mappings keep the order of the document and may hold one key twice; whether
that is an error depends on who reads the mapping, and `hasDistinctKeys` is
the test.

## Main definitions

* `Yaml.Number`: An integer or a double.
* `Yaml.Number.text`: A number as text.
* `Yaml.Value`: What a document holds.
* `Yaml.Value.ofPlain?`: The value of a scalar without quotes.
* `Yaml.Value.scalarText?`: A scalar used as text.
* `Yaml.Value.hasDistinctKeys`: No mapping holds a key twice.
-/

namespace UtilityCss

namespace Yaml

/-- A number of a document. -/
inductive Number where
  /-- An integer. -/
  | integer (value : Int)
  /-- A double. -/
  | double (value : Binary64)
deriving DecidableEq, Repr

namespace Number

/-- Numbers are positional while the point stands within the first sixteen
    digits, or up to four zeros follow it. -/
def layout : Decimal.Layout := ⟨16, -5⟩

/-- A double as text: the fewest digits that read back, always with a point or
    an exponent; `.inf`, `-.inf` and `.nan` for the other doubles. -/
def doubleText (x : Binary64) : String :=
  if x.isNaN then ".nan"
  else if x.isInfinite then if x.negative then "-.inf" else ".inf"
  else
    let sign := if x.negative then ['-'] else []
    let digits :=
      if x.magnitude = 0 then ['0', '.', '0']
      else Decimal.layOut layout (Decimal.shortest x.magnitude)
    String.ofList (sign ++ digits)

/-- A number as text. -/
def text : Number → String
  | .integer n => toString n
  | .double x => doubleText x

/-- Two numbers are the same key. A double is never an integer, the two zeros
    are one key, and so are all not-a-numbers. -/
def same : Number → Number → Bool
  | .integer a, .integer b => a = b
  | .double a, .double b =>
    (a.isNaN && b.isNaN) || (a.magnitude = 0 && b.magnitude = 0) || a = b
  | _, _ => false

end Number

/-- What a document holds. -/
inductive Value where
  /-- Nothing. -/
  | null
  /-- A truth value. -/
  | bool (value : Bool)
  /-- A number. -/
  | number (value : Number)
  /-- Text. -/
  | text (value : String)
  /-- A sequence. -/
  | sequence (items : List Value)
  /-- A mapping, in document order. -/
  | mapping (entries : List (Value × Value))
  /-- A value under a tag of its own. -/
  | tagged (tag : String) (value : Value)
deriving Repr, Inhabited

namespace Value

/-- The value of an integer literal's digits, in a base up to sixteen. -/
def digitsInBase? (base : Nat) (cs : List Char) : Option Nat :=
  if cs.isEmpty then none
  else cs.foldlM (fun n c =>
    let d :=
      if c.isDigit then c.toNat - '0'.toNat
      else if 'a' ≤ c && c ≤ 'f' then c.toNat - 'a'.toNat + 10
      else if 'A' ≤ c && c ≤ 'F' then c.toNat - 'A'.toNat + 10
      else 16
    if d < base then some (n * base + d) else none) 0

/-- A text of several digits that starts with a zero, after an optional sign. It
    is no number. -/
def isZeroPadded (cs : List Char) : Bool :=
  let cs := match cs with
    | '-' :: rest | '+' :: rest => rest
    | _ => cs
  match cs with
  | '0' :: d :: rest => (d :: rest).all Char.isDigit
  | _ => false

/-- The number after a base mark, or the decimal number where there is none.
    Zero-padded decimals are refused. -/
def unsignedInteger? (cs : List Char) : Option Nat :=
  let marked := match cs with
    | '0' :: 'x' :: rest => digitsInBase? 16 rest
    | '0' :: 'o' :: rest => digitsInBase? 8 rest
    | '0' :: 'b' :: rest => digitsInBase? 2 rest
    | _ => none
  match marked with
  | some n => some n
  | none => if isZeroPadded cs then none else digitsInBase? 10 cs

/-- An integer literal: an optional sign, an optional base mark, digits. -/
def integer? : List Char → Option Int
  | '-' :: rest => (unsignedInteger? rest).map fun n => -(n : Int)
  | '+' :: rest => (unsignedInteger? rest).map fun n => (n : Int)
  | cs => (unsignedInteger? cs).map fun n => (n : Int)

/-- A double literal: a finite decimal, or one of the words for the doubles
    that are none. -/
def double? (cs : List Char) : Option Binary64 :=
  let word := String.ofList cs
  if [".inf", ".Inf", ".INF", "+.inf", "+.Inf", "+.INF"].contains word then
    some ⟨false, Binary64.infinityMagnitude⟩
  else if ["-.inf", "-.Inf", "-.INF"].contains word then
    some ⟨true, Binary64.infinityMagnitude⟩
  else if [".nan", ".NaN", ".NAN"].contains word then
    some ⟨false, Binary64.nanMagnitude⟩
  else (Decimal.readDouble? cs).filter Binary64.isFinite

/-- The integers that a value can be. -/
def isStorable (n : Int) : Bool := -(Nat.pow 2 63 : Nat) ≤ n && n < (Nat.pow 2 64 : Nat)

/-- The integers that are read as integers at all; beyond them decimals are
    doubles. -/
def isReadable (n : Int) : Bool := -(Nat.pow 2 127 : Nat) ≤ n && n < (Nat.pow 2 128 : Nat)

/-- The value of a scalar without quotes. An integer that is read as one but
    cannot be stored is an error. -/
def ofPlain? (text : String) : Option Value :=
  let cs := text.toList
  if ["", "~", "null", "Null", "NULL"].contains text then some .null
  else if ["true", "True", "TRUE"].contains text then some (.bool true)
  else if ["false", "False", "FALSE"].contains text then some (.bool false)
  else match (integer? cs).filter isReadable with
    | some n => if isStorable n then some (.number (.integer n)) else none
    | none =>
      match if isZeroPadded cs then none else double? cs with
      | some x => some (.number (.double x))
      | none => some (.text text)

/-- A scalar used as text: text itself, a number or a truth value. -/
def scalarText? : Value → Option String
  | .text s => some s
  | .number n => some n.text
  | .bool true => some "true"
  | .bool false => some "false"
  | _ => none

mutual

/-- Two values are the same key. The order of a mapping does not count. -/
def same : Value → Value → Bool
  | .null, .null => true
  | .bool a, .bool b => a = b
  | .number a, .number b => a.same b
  | .text a, .text b => a = b
  | .sequence as, .sequence bs => sameItems as bs
  | .mapping as, .mapping bs => as.length = bs.length && entriesIn as bs
  | .tagged a v, .tagged b w => a = b && same v w
  | _, _ => false

/-- Two sequences have the same items in the same order. -/
def sameItems : List Value → List Value → Bool
  | [], [] => true
  | a :: as, b :: bs => same a b && sameItems as bs
  | _, _ => false

/-- Every entry of a mapping is an entry of another one. -/
def entriesIn : List (Value × Value) → List (Value × Value) → Bool
  | [], _ => true
  | (k, v) :: rest, bs =>
    bs.any (fun e => same k e.1 && same v e.2) && entriesIn rest bs

end

/-- No key occurs twice among the entries. -/
def keysDiffer : List (Value × Value) → Bool
  | [] => true
  | (k, _) :: rest => !rest.any (fun e => same k e.1) && keysDiffer rest

mutual

/-- No mapping anywhere in the value holds a key twice. -/
def hasDistinctKeys : Value → Bool
  | .sequence items => allDistinct items
  | .mapping entries => keysDiffer entries && entriesDistinct entries
  | .tagged _ v => hasDistinctKeys v
  | _ => true

/-- No mapping in any of the values holds a key twice. -/
def allDistinct : List Value → Bool
  | [] => true
  | v :: rest => hasDistinctKeys v && allDistinct rest

/-- No mapping in any of the keys and values holds a key twice. -/
def entriesDistinct : List (Value × Value) → Bool
  | [] => true
  | (k, v) :: rest => hasDistinctKeys k && hasDistinctKeys v && entriesDistinct rest

end

end Value

end Yaml

end UtilityCss
