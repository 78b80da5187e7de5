/-!
# JSON Text

A small data format for programs to read, and its laid out text.

The text of a value goes over several lines: every item and every field has
lines of its own, two blanks further in than the bracket around it. What is
empty stays on one line. Fields keep the order in which they are given.

## Main definitions

* `Json`: A value.
* `Json.quoted`: The text of a text, between quotes.
* `Json.layOut`: The text of a value.
-/

namespace UtilityCss

/-- A value of the data format. -/
inductive Json where
  /-- A text. -/
  | text (s : String)
  /-- A whole number. -/
  | number (n : Nat)
  /-- Values in a row. -/
  | array (items : List Json)
  /-- Values with names. -/
  | object (fields : List (String × Json))
deriving Repr, Inhabited

namespace Json

/-- The digit of a number below sixteen. -/
def hexDigit (n : Nat) : Char :=
  if n < 10 then Char.ofNat ('0'.toNat + n) else Char.ofNat ('a'.toNat + (n - 10))

/-- The characters that stand for a character between quotes. Quotes,
    backslashes and control characters are not written as they are. -/
def escape (c : Char) : List Char :=
  if c = '"' then ['\\', '"']
  else if c = '\\' then ['\\', '\\']
  else if c = '\n' then ['\\', 'n']
  else if c = '\r' then ['\\', 'r']
  else if c = '\t' then ['\\', 't']
  else if c = '\x08' then ['\\', 'b']
  else if c = '\x0c' then ['\\', 'f']
  else if c.toNat < 32 then
    ['\\', 'u', '0', '0', hexDigit (c.toNat / 16), hexDigit (c.toNat % 16)]
  else [c]

/-- The text of a text, between quotes. -/
def quoted (s : String) : String :=
  String.ofList ('"' :: s.toList.flatMap escape ++ ['"'])

/-- The blanks before what is so many levels in. -/
def indent (level : Nat) : String := String.ofList (List.replicate (2 * level) ' ')

/-- Parts between brackets, on lines of their own. -/
def enclose (opening closing : String) (level : Nat) (parts : List String) : String :=
  if parts.isEmpty then opening ++ closing
  else
    opening ++ "\n" ++ ",\n".intercalate (parts.map (indent (level + 1) ++ ·))
      ++ "\n" ++ indent level ++ closing

mutual

/-- The text of a value that stands so many levels in. -/
def layOutAt (level : Nat) : Json → String
  | text s => quoted s
  | number n => toString n
  | array items => enclose "[" "]" level (layOutItems (level + 1) items)
  | object fields => enclose "\x7b" "\x7d" level (layOutFields (level + 1) fields)

/-- The texts of items. -/
def layOutItems (level : Nat) : List Json → List String
  | [] => []
  | item :: rest => layOutAt level item :: layOutItems level rest

/-- The texts of fields. -/
def layOutFields (level : Nat) : List (String × Json) → List String
  | [] => []
  | (name, value) :: rest =>
    (quoted name ++ ": " ++ layOutAt level value) :: layOutFields level rest

end

/-- The text of a value. -/
def layOut (j : Json) : String := layOutAt 0 j

end Json

end UtilityCss
