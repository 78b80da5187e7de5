import UtilityCss.Yaml.Value

/-!
# Records in Values

Fields read from a value: the entries of `content` and of `plugins` have
several forms, so they are read as values first and as records afterwards.

A record is a mapping from field names. A field may also be given by its
position, as a number; a record without alternatives may even be a sequence of
its fields. Keys that name no field are ignored unless the record is strict,
and no field may be given twice.

A tagged record tells by one field which of several records it is. In a
sequence the tag comes first.

## Main definitions

* `Record.fields?`: The fields of a mapping or sequence.
* `Record.tagged?`: The tag and the rest of a tagged record.
* `Record.text?`, `Record.listOf?`, `Record.textMapOf?`: Values of fields.
-/

namespace UtilityCss

namespace Record

open Yaml (Value)

/-- A name given in full or by its position. -/
def name? (names : List String) : Value → Option String
  | .text s => if names.contains s then some s else none
  | .number (.integer n) => if 0 ≤ n then names[n.toNat]? else none
  | _ => none

/-- The key can be a field's: it is text or a natural number. -/
def isKey : Value → Bool
  | .text _ => true
  | .number (.integer n) => 0 ≤ n
  | _ => false

/-- Distinct names. -/
def areDistinct (names : List String) : Bool := decide names.Nodup

/-- The fields of a mapping with the names that are known. -/
def entries? (names : List String) (strict : Bool) (entries : List (Value × Value)) :
    Option (List (String × Value)) :=
  let known := entries.filterMap fun (k, v) => (name? names k).map (·, v)
  if entries.all (fun (k, _) => if strict then (name? names k).isSome else isKey k)
      && areDistinct (known.map Prod.fst)
  then some known
  else none

/-- The fields of a record. -/
def fields? (names : List String) (strict : Bool) : Value → Option (List (String × Value))
  | .mapping entries => entries? names strict entries
  | .sequence items => if items.length ≤ names.length then some (names.zip items) else none
  | _ => none

/-- The tag of a tagged record and the record without it. -/
def tagged? (tag : String) (names : List String) : Value → Option (String × Value)
  | .mapping entries =>
    let isTag := fun (e : Value × Value) => match e.1 with
      | .text s => s = tag
      | _ => false
    match entries.filter isTag with
    | [(_, v)] => (name? names v).map (·, .mapping (entries.filter fun e => !isTag e))
    | _ => none
  | .sequence (v :: items) => (name? names v).map (·, .sequence items)
  | _ => none

/-- The choice among words that a value makes: the word, or a mapping of it to
    nothing. -/
def choice? (names : List String) : Value → Option String
  | .text s => name? names (.text s)
  | .mapping [(k, .null)] => name? names k
  | .mapping [(k, .mapping [])] => name? names k
  | _ => none

/-- Text that is written as text. -/
def text? : Value → Option String
  | .text s => some s
  | _ => none

/-- Text or nothing. -/
def optionalText? : Value → Option (Option String)
  | .null => some none
  | v => (text? v).map some

/-- A truth value. -/
def bool? : Value → Option Bool
  | .bool b => some b
  | _ => none

/-- A value in which no mapping holds a key twice. -/
def value? (v : Value) : Option Value :=
  if v.hasDistinctKeys then some v else none

/-- A sequence of items of one form. -/
def listOf? {α : Type} (item? : Value → Option α) : Value → Option (List α)
  | .sequence items => items.mapM item?
  | _ => none

/-- One entry written into a list of entries: in the place of the entry of that
    key, or at the end. -/
def put {α : Type} (key : String) (value : α) : List (String × α) → List (String × α)
  | [] => [(key, value)]
  | (k, v) :: rest => if k = key then (key, value) :: rest else (k, v) :: put key value rest

/-- An entry with text as its key. -/
def textKeyed? {α : Type} (item? : Value → Option α) (e : Value × Value) :
    Option (String × α) :=
  match text? e.1, item? e.2 with
  | some key, some a => some (key, a)
  | _, _ => none

/-- A mapping from texts to values of one form. The last value of a key counts,
    at the key's first place. -/
def textMapOf? {α : Type} (item? : Value → Option α) : Value → Option (List (String × α))
  | .mapping entries =>
    match entries.mapM (textKeyed? item?) with
    | some found => some (found.foldl (fun l e => put e.1 e.2 l) [])
    | none => none
  | _ => none

/-- A field that must be there. -/
def required? {α : Type} (fields : List (String × Value)) (name : String)
    (form? : Value → Option α) : Option α :=
  match fields.lookup name with
  | some v => form? v
  | none => none

/-- A field with a value to take where it is missing. -/
def field? {α : Type} (fields : List (String × Value)) (name : String)
    (form? : Value → Option α) (missing : α) : Option α :=
  match fields.lookup name with
  | some v => form? v
  | none => some missing

end Record

end UtilityCss
