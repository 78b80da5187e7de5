import UtilityCss.Decimal.Digits
import UtilityCss.Pattern
import UtilityCss.Pattern.Property

/-!
# Reading Patterns

The pattern that a text spells, in the usual notation of regular expressions.

Groups count from 1 in the order of their opening parentheses. Letters in a
group such as `(?i)` switch the reading of what follows, up to the end of the
group that they stand in: `i` makes letters match in any case, `m` lets `^` and
`$` match at lines, `s` lets the dot match line ends, `R` lets carriage returns
end lines, `U` makes repetitions lazy, `x` skips blanks, and `u` is on from the
start and may not be switched off where single bytes would match.

What stands in for something not supported is an error and no literal: a
reference to a group, a look-around, a repetition of nothing, a range that runs
backwards, a letter or digit escaped without meaning.

Two limits on resources are not told as they are. Compiling a pattern is given
up when its program takes more than ten mebibytes, in a layout that no text
tells; here `maxCodeSize` counts instructions, and where exactly a long pattern
is given up is left out. Reading one is given up when groups stand in one
another more than 250 deep; that limit is left out altogether.

## Main definitions

* `Pattern.Flags`: The switches.
* `Pattern.Reading`: Reading with switches and counted groups.
* `Pattern.parse?`: The pattern that a text spells.
-/

namespace UtilityCss

namespace Pattern

/-- How what follows is read. -/
structure Flags where
  /-- Letters match in any case. -/
  anyCase : Bool
  /-- Lines start and end inside the text. -/
  lines : Bool
  /-- The dot matches line ends. -/
  dotAll : Bool
  /-- Repetitions are lazy unless marked. -/
  lazy : Bool
  /-- Carriage returns end lines too. -/
  returns : Bool
  /-- Blanks and comments are skipped. -/
  spaced : Bool
  /-- Classes hold characters of all scripts. -/
  scripts : Bool
deriving DecidableEq, Repr, Inhabited

/-- The switches at the start. -/
def Flags.start : Flags := ⟨false, false, false, false, false, false, true⟩

/-- What reading has left and knows. -/
structure Source where
  /-- The characters ahead. -/
  rest : List Char
  /-- The switches. -/
  flags : Flags
  /-- The number of groups so far. -/
  groups : Nat
  /-- The names of groups so far. -/
  names : List (List Char)
deriving Repr, Inhabited

/-- Reading that fails on malformed text. -/
abbrev Reading := StateT Source Option

namespace Reading

/-- Blanks and comments taken off. -/
def dropSpace (inComment : Bool) : List Char → List Char
  | [] => []
  | c :: cs =>
    if inComment then dropSpace (c ≠ '\n') cs
    else if Text.isBlank c then dropSpace false cs
    else if c = '#' then dropSpace true cs
    else c :: cs

/-- Blanks and comments skipped, if they are to be. -/
def space : Reading Unit := modify fun s =>
  if s.flags.spaced then { s with rest := dropSpace false s.rest } else s

/-- The characters ahead. -/
def ahead : Reading (List Char) := return (← get).rest

/-- So many characters passed. -/
def pass (count : Nat) : Reading Unit := modify fun s => { s with rest := s.rest.drop count }

/-- The next character, passed. -/
def next : Reading Char := do
  match ← ahead with
  | c :: _ => pass 1; return c
  | [] => failure

/-- The word passed if it is next, and whether it was. -/
def skipWord (word : String) : Reading Bool := do
  if word.toList.isPrefixOf (← ahead) then
    pass word.length
    return true
  else return false

/-- The character passed, which must be next. -/
def expect (c : Char) : Reading Unit := do
  if (← next) ≠ c then failure

/-- The characters up to another one, which is passed too. -/
def upTo (stop : Char) : Reading (List Char) := do
  let cs ← ahead
  let word := cs.takeWhile (· ≠ stop)
  if word.length < cs.length then
    pass (word.length + 1)
    return word
  else failure

/-- The next characters that satisfy a test. -/
def spanned (p : Char → Bool) : Reading (List Char) := do
  let word := (← ahead).takeWhile p
  pass word.length
  return word

/-- The set of one character, in any case if that is switched on. -/
def literal (c : Char) : Reading CharSet := do
  return if (← get).flags.anyCase then .anyCase (.range c c) else .range c c

/-- The characters from one to another. A range that runs backwards is an
    error. -/
def rangeOf (first last : Char) : Reading CharSet := do
  if last < first then failure
  return if (← get).flags.anyCase then .anyCase (.range first last) else .range first last

/-- A set whose complement is taken if asked for. Without all scripts a
    complement would match single bytes. -/
def complementIf (negated : Bool) (s : CharSet) : Reading CharSet := do
  if negated then
    if !(← get).flags.scripts then failure
    return .complement s
  else return s

/-- The ASCII part of a set, unless all scripts are wanted. -/
def inScripts (s : CharSet) : Reading CharSet := do
  return if (← get).flags.scripts then s else .inter s (.range '\x00' '\x7f')

/-- The value of hexadecimal digits. -/
def hexValue? (cs : List Char) : Option Nat :=
  if cs.isEmpty then none
  else cs.foldlM (fun n c =>
    if c.isDigit then some (n * 16 + (c.toNat - '0'.toNat))
    else if 'a' ≤ c && c ≤ 'f' then some (n * 16 + (c.toNat - 'a'.toNat + 10))
    else if 'A' ≤ c && c ≤ 'F' then some (n * 16 + (c.toNat - 'A'.toNat + 10))
    else none) 0

/-- The character of hexadecimal digits, in braces or a fixed number of them. -/
def hexChar (width : Nat) : Reading Char := do
  let digits ←
    if ← skipWord "\x7b" then upTo '}'
    else do
      let digits := (← ahead).take width
      if digits.length < width then failure
      pass width
      pure digits
  match hexValue? digits with
  | some n => if n.isValidChar then return Char.ofNat n else failure
  | none => failure

/-- What an escape stands for. -/
inductive Escape where
  /-- A character. -/
  | char (c : Char)
  /-- A class. -/
  | set (s : CharSet)
  /-- A condition on the place. -/
  | look (l : Look)

/-- The characters that may be escaped to stand for themselves: ASCII without
    letters, digits and the two angle brackets. -/
def isEscapable (c : Char) : Bool :=
  c.toNat < 0x80 && !c.isAlphanum && c ≠ '<' && c ≠ '>'

/-- A condition named in braces after `\b`. Other braces are left for a
    repetition. -/
def edge : Reading Look := do
  if ← skipWord "\x7bstart\x7d" then return .wordStart
  if ← skipWord "\x7bend\x7d" then return .wordEnd
  if ← skipWord "\x7bstart-half\x7d" then return .wordOpen
  if ← skipWord "\x7bend-half\x7d" then return .wordClosed
  return .wordEdge

/-- A class named by a property, after the letter of its escape: one letter, or a
    name in braces. Letters match in any case if that is switched on. -/
def property (negated : Bool) : Reading CharSet := do
  space
  let spaced := (← get).flags.spaced
  let name ←
    if ← skipWord "\x7b" then upTo '}'
    else do
      let c ← next
      if c = '\\' then failure
      pure [c]
  match namedProperty? (if spaced then name.filter fun c => !Text.isBlank c else name) with
  | none => failure
  | some (unequal, s) =>
    let s := if (← get).flags.anyCase then .anyCase s else s
    let s := if unequal then .complement s else s
    if !(← get).flags.scripts then failure
    return if negated then .complement s else s

/-- An escape, after its backslash. -/
def escape : Reading Escape := do
  let c ← next
  match c with
  | 'd' => return .set (← inScripts .digit)
  | 's' => return .set (← inScripts .blank)
  | 'w' => return .set (← inScripts .word)
  | 'D' => return .set (← complementIf true .digit)
  | 'S' => return .set (← complementIf true .blank)
  | 'W' => return .set (← complementIf true .word)
  | 'p' => return .set (← property false)
  | 'P' => return .set (← property true)
  | 'a' => return .char '\x07'
  | 'f' => return .char '\x0c'
  | 't' => return .char '\t'
  | 'n' => return .char '\n'
  | 'r' => return .char '\r'
  | 'v' => return .char '\x0b'
  | 'A' => return .look .textStart
  | 'z' => return .look .textEnd
  | 'b' => return .look (← edge)
  | 'B' => return .look .noWordEdge
  | '<' => return .look .wordStart
  | '>' => return .look .wordEnd
  | 'x' => return .char (← hexChar 2)
  | 'u' => return .char (← hexChar 4)
  | 'U' => return .char (← hexChar 8)
  | c => if isEscapable c then return .char c else failure

/-- A member of a bracketed class: a character, or a class of its own. -/
def member : Reading (Char ⊕ CharSet) := do
  let c ← next
  if c ≠ '\\' then return .inl c
  match ← escape with
  | .char c => return .inl c
  | .set s => return .inr s
  | .look _ => failure

/-- The set of a member. -/
def memberSet : Char ⊕ CharSet → Reading CharSet
  | .inl c => literal c
  | .inr s => return s

/-- A member of a bracketed class, or a range of two. A hyphen before the end of
    the class or before another hyphen is no range. -/
def memberOrRange : Reading CharSet := do
  let first ← member
  space
  match ← ahead with
  | '-' :: c :: _ =>
    if c = ']' || c = '-' then memberSet first
    else
      pass 1
      space
      match first, ← member with
      | .inl first, .inl last => rangeOf first last
      | _, _ => failure
  | [] => failure
  | _ => memberSet first

/-- The ASCII classes that have names. -/
def namedSets : List (String × CharSet) :=
  let upper := CharSet.range 'A' 'Z'
  let lower := CharSet.range 'a' 'z'
  let digits := CharSet.range '0' '9'
  [("alnum", .union digits (.union upper lower)), ("alpha", .union upper lower),
   ("ascii", .range '\x00' '\x7f'), ("blank", CharSet.ofList ['\t', ' ']),
   ("cntrl", .union (.range '\x00' '\x1f') (.range '\x7f' '\x7f')), ("digit", digits),
   ("graph", .range '!' '~'), ("lower", lower), ("print", .range ' ' '~'),
   ("punct", .union (.range '!' '/') (.union (.range ':' '@')
     (.union (.range '[' (Char.ofNat 0x60)) (.range '\x7b' '~')))),
   ("space", .union (.range '\t' '\r') (.range ' ' ' ')), ("upper", upper),
   ("word", .union digits (.union upper (.union lower (.range '_' '_')))),
   ("xdigit", .union digits (.union (.range 'A' 'F') (.range 'a' 'f')))]

/-- A class by name, such as `[:alpha:]`, after its opening bracket; none if
    what follows is no such class. -/
def named? (cs : List Char) : Option (Bool × String × Nat) :=
  match cs with
  | ':' :: cs =>
    let (negated, cs) := match cs with
      | '^' :: cs => (true, cs)
      | cs => (false, cs)
    let name := cs.takeWhile (· ≠ ':')
    match cs.drop name.length with
    | ':' :: ']' :: _ =>
      let word := String.ofList name
      if (namedSets.lookup word).isSome then
        some (negated, word, name.length + (if negated then 4 else 3))
      else none
    | _ => none
  | _ => none

/-- The set of a class by name. Letters match in any case if that is switched
    on. -/
def namedSet (negated : Bool) (name : String) : Reading CharSet := do
  let s := (namedSets.lookup name).getD .none
  let s := if (← get).flags.anyCase && (name = "lower" || name = "upper")
    then .union (.anyCase (.range 'a' 'z')) s else s
  complementIf negated s

/-- Two sets combined by an operator of bracketed classes. -/
def combine (operator : Char) (s t : CharSet) : CharSet :=
  if operator = '&' then .inter s t
  else if operator = '-' then s.diff t
  else s.symmDiff t

/-- Hyphens at the start of a bracketed class, as members. -/
def leadingHyphens (s : CharSet) : List Char → CharSet
  | '-' :: cs => leadingHyphens (.union s (.range '-' '-')) cs
  | _ => s

/-- The start of a bracketed class, after its opening bracket: whether it is a
    complement, and the members that stand for themselves only here. -/
def classStart : Reading (Bool × CharSet) := do
  space
  let negated ← skipWord "^"
  space
  let hyphens ← spanned (· = '-')
  let s := leadingHyphens .none hyphens
  space
  if hyphens.isEmpty && (← skipWord "]") then return (negated, .range ']' ']')
  else return (negated, s)

/-- The next two characters are the same operator of bracketed classes. -/
def operator? : List Char → Option Char
  | '&' :: '&' :: _ => some '&'
  | '-' :: '-' :: _ => some '-'
  | '~' :: '~' :: _ => some '~'
  | _ => none

mutual

/-- A bracketed class, after its opening bracket. -/
def bracketed : Nat → Reading CharSet
  | 0 => failure
  | fuel + 1 => do
    let (negated, s) ← classStart
    let s ← members fuel none s
    complementIf negated s

/-- The rest of a bracketed class: its members so far, and what stands to the
    left of the last operator. -/
def members : Nat → Option (Char × CharSet) → CharSet → Reading CharSet
  | 0, _, _ => failure
  | fuel + 1, left, s => do
    space
    let settled := match left with
      | some (operator, l) => combine operator l s
      | none => s
    match operator? (← ahead) with
    | some operator =>
      pass 2
      members fuel (some (operator, settled)) .none
    | none =>
      match ← ahead with
      | [] => failure
      | ']' :: _ => pass 1; return settled
      | '[' :: cs =>
        pass 1
        match named? cs with
        | some (negated, name, width) =>
          pass width
          members fuel left (.union s (← namedSet negated name))
        | none => members fuel left (.union s (← bracketed fuel))
      | _ => members fuel left (.union s (← memberOrRange))

end

/-- One switch set. -/
def setFlag? (on : Bool) (f : Flags) : Char → Option Flags
  | 'i' => some { f with anyCase := on }
  | 'm' => some { f with lines := on }
  | 's' => some { f with dotAll := on }
  | 'U' => some { f with lazy := on }
  | 'x' => some { f with spaced := on }
  | 'u' => some { f with scripts := on }
  | 'R' => some { f with returns := on }
  | _ => none

/-- Switches by their letters. After a hyphen they are switched off; no letter
    may occur twice, and something must follow a hyphen. -/
def setFlags? : Bool → List Char → Flags → List Char → Option Flags
  | _, _, f, [] => some f
  | on, seen, f, c :: cs =>
    if c = '-' then if on && !cs.isEmpty then setFlags? false seen f cs else none
    else if seen.contains c then none
    else match setFlag? on f c with
      | some f => setFlags? on (c :: seen) f cs
      | none => none

/-- A character that a group's name may start with. -/
def startsName (c : Char) : Bool := c = '_' || Text.isAlphabetic c

/-- A character that a group's name may go on with. -/
def continuesName (c : Char) : Bool :=
  startsName c || numberCategories.any (·.holds c) || c = '.' || c = '[' || c = ']'

/-- A name that a group may have. -/
def isGroupName : List Char → Bool
  | [] => false
  | c :: cs =>
    startsName c && cs.all continuesName

/-- The number of the next group. -/
def nextGroup : Reading Nat := do
  let number := (← get).groups + 1
  modify fun s => { s with groups := number }
  return number

/-- The name of a group, which no group has had. -/
def groupName : Reading Unit := do
  let name ← upTo '>'
  if !isGroupName name || (← get).names.contains name then failure
  modify fun s => { s with names := name :: s.names }

/-- What the parenthesis that has just been passed opens. -/
inductive Opening where
  /-- A group with a number. -/
  | numbered (number : Nat)
  /-- A group without number, with switches for its inside. -/
  | plain (flags : Flags)
  /-- Switches for what follows. -/
  | switches (flags : Flags)

/-- What a parenthesis opens. -/
def opening : Reading Opening := do
  space
  if !(← skipWord "?") then return .numbered (← nextGroup)
  if [['='], ['!'], ['<', '='], ['<', '!']].any (·.isPrefixOf (← ahead)) then failure
  if (← skipWord "P<") || (← skipWord "<") then
    let number ← nextGroup
    groupName
    return .numbered number
  let letters ← spanned fun c => c ≠ ':' && c ≠ ')'
  let inside ← next
  match setFlags? true [] (← get).flags letters with
  | none => failure
  | some flags =>
    if inside = ':' then return .plain flags
    else if letters.isEmpty then failure
    else return .switches flags

/-- A number in a repetition's braces. -/
def bound : Reading Nat := do
  let _ ← spanned Text.isBlank
  let digits ← spanned Char.isDigit
  let _ ← spanned Text.isBlank
  match Decimal.unsigned? (Nat.pow 2 32) digits with
  | some n => return n
  | none => failure

/-- The bounds in a repetition's braces, after the opening one. -/
def bounds : Reading (Nat × Option Nat) := do
  let least ← bound
  if ← skipWord "," then
    space
    if ← skipWord "\x7d" then return (least, none)
    let most ← bound
    expect '}'
    if most < least then failure
    return (least, some most)
  else
    expect '}'
    return (least, some least)

/-- The bounds of a repetition by its operator, which has been passed. -/
def boundsOf (operator : Char) : Reading (Nat × Option Nat) :=
  match operator with
  | '*' => return (0, none)
  | '+' => return (1, none)
  | '?' => return (0, some 1)
  | _ => bounds

/-- A pattern repeated as the operator says that has been passed. -/
def repetition (operator : Char) (p : Pattern) : Reading Pattern := do
  let (least, most) ← boundsOf operator
  let marked ← skipWord "?"
  return .repeat p least most (marked == (← get).flags.lazy)

/-- The pattern of an escape. -/
def ofEscape : Escape → Reading Pattern
  | .char c => return .one (← literal c)
  | .set s => return .one s
  | .look l => return .look l

/-- The pattern of a single character without backslash, parenthesis or
    bracket. -/
def ofChar (c : Char) : Reading Pattern := do
  let f := (← get).flags
  match c with
  | '.' =>
    if !f.scripts then failure
    return .one (.complement (if f.dotAll then .none
      else if f.returns then CharSet.ofList ['\n', '\r'] else .range '\n' '\n'))
  | '^' =>
    return .look (if !f.lines then .textStart
      else if f.returns then .breakStart else .lineStart)
  | '$' =>
    return .look (if !f.lines then .textEnd else if f.returns then .breakEnd else .lineEnd)
  | c => return .one (← literal c)

/-- One pattern after another, where there is one before. -/
def joined (done : Pattern) : Option Pattern → Pattern
  | none => done
  | some last => if done = .empty then last else .seq done last

mutual

/-- Alternatives, up to the end of the text or of the group. -/
def alternatives : Nat → Reading Pattern
  | 0 => failure
  | fuel + 1 => do
    let p ← branch fuel .empty none
    if ← skipWord "|" then return .alt p (← alternatives fuel)
    else return p

/-- The rest of an alternative: the pattern so far, and the last piece of it,
    which an operator may repeat. -/
def branch : Nat → Pattern → Option Pattern → Reading Pattern
  | 0, _, _ => failure
  | fuel + 1, done, last => do
    space
    let piece (p : Pattern) := branch fuel (joined done last) (some p)
    match ← ahead with
    | [] => return joined done last
    | ')' :: _ => return joined done last
    | '|' :: _ => return joined done last
    | c :: _ =>
      pass 1
      match c with
      | '(' =>
        match ← opening with
        | .switches flags =>
          modify fun s => { s with flags }
          branch fuel (joined done last) none
        | .plain flags =>
          let outside := (← get).flags
          modify fun s => { s with flags }
          let p ← alternatives fuel
          expect ')'
          modify fun s => { s with flags := outside }
          piece p
        | .numbered number =>
          let outside := (← get).flags
          let p ← alternatives fuel
          expect ')'
          modify fun s => { s with flags := outside }
          piece (.group number p)
      | '[' => piece (.one (← bracketed fuel))
      | '\\' => piece (← ofEscape (← escape))
      | '*' | '+' | '?' | '{' =>
        match last with
        | none => failure
        | some p => branch fuel done (some (← repetition c p))
      | c => piece (← ofChar c)

end

end Reading

/-- The longest program that is followed, in instructions. It stands for a limit
    on the memory that a compiled pattern takes, and patterns near that limit may
    be judged differently. -/
def maxCodeSize : Nat := 100000

/-- The pattern that a text spells, or `none` if it is malformed or its program
    is too long. -/
def parse? (text : String) : Option Pattern :=
  let cs := text.toList
  match (Reading.alternatives (2 * cs.length + 2)).run ⟨cs, Flags.start, 0, []⟩ with
  | some (p, s) => if s.rest.isEmpty && p.codeSize ≤ maxCodeSize then some p else none
  | none => none

end Pattern

end UtilityCss
