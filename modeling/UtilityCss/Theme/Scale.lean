import UtilityCss.Ordered.Map
import UtilityCss.Yaml.Value

/-!
# Scales

One axis of a theme: keys such as `4` or `red-500`, and their CSS values.

A configuration may nest an axis. Nested keys are joined by hyphens, and the
key `DEFAULT` inside a group stands for the group itself. A sequence of
scalars becomes one value with commas, as font lists are written. The leaves
are taken in document order and a later one replaces an earlier one under the
same key, so `{a: {b: 1}, a-b: 2}` holds `2`.

Values are copied into the stylesheet. One that is empty or could end a
declaration block is refused.

## Main definitions

* `Scale`: Keys and values.
* `ScaleError`: Why a configuration value is no scale.
* `Scale.leaves`: The keys and values of a nested axis, in document order.
* `Scale.ofValue`: The scale that a configuration value spells.
-/

namespace UtilityCss

/-- One axis of a theme: keys and their CSS values. -/
abbrev Scale := SortedMap String

/-- The key that stands for the group it is in. -/
def defaultKey : String := "DEFAULT"

/-- Why a configuration value is no scale. -/
inductive ScaleError where
  /-- The axis is neither a mapping nor null. -/
  | notMapping (axis : String)
  /-- A key is no scalar. -/
  | keyNotScalar (axis : String)
  /-- A sequence holds something other than scalars. -/
  | listNotScalars (axis key : String)
  /-- A value is no scalar, sequence or mapping. -/
  | valueNotScalar (axis key : String)
  /-- A value may not be copied into a stylesheet. -/
  | invalidValue (axis key : String)
deriving DecidableEq, Repr

namespace ScaleError

/-- The wording of the error. -/
def message : ScaleError → String
  | notMapping axis => s!"theme axis '{axis}' must be a mapping"
  | keyNotScalar axis => s!"theme axis '{axis}' has a non-scalar key"
  | listNotScalars axis key => s!"theme value '{axis}.{key}' must be a list of scalars"
  | valueNotScalar axis key => s!"theme value '{axis}.{key}' must be a string or number"
  | invalidValue axis key => s!"theme value '{axis}.{key}' is not a valid CSS value"

/-- What the error advises. -/
def help : ScaleError → Option String
  | notMapping axis => some ("Write `" ++ axis ++ ": \x7b key: value \x7d`")
  | invalidValue _ _ =>
    some "Values may not be empty or contain '\x7b', '\x7d' or ';'"
  | _ => none

end ScaleError

namespace Scale

/-- The value may be copied into a stylesheet. -/
def isValue (value : String) : Bool :=
  value ≠ "" && !value.toList.any fun c => c = '{' || c = '}' || c = ';'

/-- The key of a leaf below a group. -/
def joinKey (group : Option String) (key : String) : String :=
  match group with
  | none => key
  | some group => if key = defaultKey then group else group ++ "-" ++ key

/-- A checked leaf. -/
def leaf (axis key value : String) : Except ScaleError (List (String × String)) :=
  if isValue value then .ok [(key, value)] else .error (.invalidValue axis key)

mutual

/-- The leaves at and below a key. -/
def valueLeaves (axis key : String) :
    Yaml.Value → Except ScaleError (List (String × String))
  | .mapping entries => leaves axis (some key) entries
  | .sequence items =>
    match items.mapM Yaml.Value.scalarText? with
    | some parts => leaf axis key (", ".intercalate parts)
    | none => .error (.listNotScalars axis key)
  | value =>
    match value.scalarText? with
    | some text => leaf axis key text
    | none => .error (.valueNotScalar axis key)

/-- The keys and values of the entries of a group, in document order. -/
def leaves (axis : String) (group : Option String) :
    List (Yaml.Value × Yaml.Value) → Except ScaleError (List (String × String))
  | [] => .ok []
  | (key, value) :: rest =>
    match key.scalarText? with
    | none => .error (.keyNotScalar axis)
    | some text =>
      match valueLeaves axis (joinKey group text) value with
      | .error e => .error e
      | .ok here =>
        match leaves axis group rest with
        | .error e => .error e
        | .ok later => .ok (here ++ later)

end

/-- The scale that a configuration value spells. Null is the empty scale. -/
def ofValue (axis : String) : Yaml.Value → Except ScaleError Scale
  | .null => .ok SortedMap.empty
  | .mapping entries => (leaves axis none entries).map SortedMap.ofList
  | _ => .error (.notMapping axis)

end Scale

end UtilityCss
