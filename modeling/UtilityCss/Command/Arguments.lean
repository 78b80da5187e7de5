import UtilityCss.Text.Cut

/-!
# Command-Line Arguments

The words of a command line as options and operands.

An option has a name after two dashes and may have a letter after one. Its value
follows an equals sign, or the letter directly, or is the next word; a next word
that starts with a dash is no value, unless it is a dash alone. After a word of
two dashes, every word is an operand.

## Main definitions

* `OptionForm`: An option that a command has.
* `CommandWord.ofText`: What a single word looks like.
* `Argument.readAll?`: The arguments in the words of a command line.
* `Argument.areUnique`: No option is given twice.
-/

namespace UtilityCss

/-- An option that a command has. -/
structure OptionForm where
  /-- The name after two dashes. -/
  name : String
  /-- The letter after one dash. -/
  letter : Option Char
  /-- A value belongs to it. -/
  takesValue : Bool
deriving DecidableEq, Repr

/-- What a single word of a command line looks like. -/
inductive CommandWord where
  /-- The mark after which there are only operands. -/
  | endOfOptions
  /-- An option by its name, and the value in the same word. -/
  | long (name : String) (value : Option String)
  /-- An option by its letter, and the value in the same word. -/
  | short (letter : Char) (value : Option String)
  /-- Anything else. -/
  | operand
deriving DecidableEq, Repr

namespace CommandWord

/-- What a word looks like. -/
def ofText (word : String) : CommandWord :=
  match word.toList with
  | ['-', '-'] => endOfOptions
  | '-' :: '-' :: cs =>
    match Text.cutFirst '=' cs with
    | some (name, value) => long (String.ofList name) (some (String.ofList value))
    | none => long (String.ofList cs) none
  | '-' :: letter :: cs =>
    match cs with
    | [] => short letter none
    | '=' :: value => short letter (some (String.ofList value))
    | value => short letter (some (String.ofList value))
  | _ => operand

end CommandWord

/-- An argument of a command. -/
inductive Argument where
  /-- An option without a value. -/
  | flag (name : String)
  /-- An option with its value. -/
  | setting (name value : String)
  /-- A word that belongs to no option. -/
  | operand (text : String)
deriving DecidableEq, Repr

namespace Argument

/-- The option that a word gives, and the value in the same word. -/
def formOf? (forms : List OptionForm) : CommandWord → Option (OptionForm × Option String)
  | .long name value => (forms.find? fun f => f.name = name).map (·, value)
  | .short letter value => (forms.find? fun f => f.letter = some letter).map (·, value)
  | _ => none

/-- The arguments in the words of a command line. There are none if an option is
    unknown, lacks its value, or has one that it does not take. -/
def readAll? (forms : List OptionForm) : List String → Option (List Argument)
  | [] => some []
  | word :: rest =>
    match CommandWord.ofText word with
    | .endOfOptions => some (rest.map operand)
    | .operand => (readAll? forms rest).map (operand word :: ·)
    | shape =>
      match formOf? forms shape with
      | none => none
      | some (form, value) =>
        match form.takesValue, value with
        | false, none => (readAll? forms rest).map (flag form.name :: ·)
        | false, some _ => none
        | true, some value => (readAll? forms rest).map (setting form.name value :: ·)
        | true, none =>
          match rest with
          | [] => none
          | value :: rest =>
            if CommandWord.ofText value = .operand then
              (readAll? forms rest).map (setting form.name value :: ·)
            else none

/-- The name of the option that an argument gives. -/
def option? : Argument → Option String
  | flag name => some name
  | setting name _ => some name
  | operand _ => none

/-- No option is given twice. -/
def areUnique (arguments : List Argument) : Bool :=
  decide (arguments.filterMap option?).Nodup

/-- No value and no operand is empty. -/
def isFilled : Argument → Bool
  | flag _ => true
  | setting _ value => value ≠ ""
  | operand text => text ≠ ""

/-- The value of an option. -/
def value? (name : String) (arguments : List Argument) : Option String :=
  arguments.findSome? fun
    | setting n value => if n = name then some value else none
    | _ => none

/-- An option without a value is given. -/
def hasFlag (name : String) (arguments : List Argument) : Bool :=
  arguments.contains (flag name)

/-- The words that belong to no option. -/
def operands (arguments : List Argument) : List String :=
  arguments.filterMap fun
    | operand text => some text
    | _ => none

end Argument

end UtilityCss
