import UtilityCss.Text.Blank
import UtilityCss.Text.CaseFold
import UtilityCss.Text.Letter
import UtilityCss.Text.Word

/-!
# Patterns

Regular expressions that find the text that holds tokens.

A pattern says which texts match and, where several do, which one is preferred:
the first alternative before the second, and as many repetitions as possible
before fewer, or the other way around for a lazy repetition. There are no
references to earlier groups and no conditions on what follows, so a search
takes time in proportion to the text.

## Main definitions

* `CharSet`: Sets of characters.
* `Look`: Conditions on the place in the text.
* `Pattern`: Regular expressions.
* `Pattern.codeSize`: How long a pattern's program is.
-/

namespace UtilityCss

/-- A set of characters. -/
inductive CharSet where
  /-- No character. -/
  | none
  /-- The characters from one to another. -/
  | range (first last : Char)
  /-- Decimal digits. -/
  | digit
  /-- Word characters. -/
  | word
  /-- Blanks. -/
  | blank
  /-- Characters that count as letters. -/
  | alphabetic
  /-- Characters of upper case. -/
  | uppercase
  /-- Characters of lower case. -/
  | lowercase
  /-- The characters of a category. -/
  | category (k : Text.Category)
  /-- The characters that differ only in case from one of a set. -/
  | anyCase (s : CharSet)
  /-- What is not in a set. -/
  | complement (s : CharSet)
  /-- What is in one of two sets. -/
  | union (s t : CharSet)
  /-- What is in both sets. -/
  | inter (s t : CharSet)
deriving DecidableEq, Repr, Inhabited

namespace CharSet

/-- The character is in the set. -/
def holds : CharSet → Char → Bool
  | none, _ => false
  | range first last, c => first ≤ c && c ≤ last
  | digit, c => Text.isDecimalDigit c
  | word, c => Text.isWordChar c
  | blank, c => Text.isBlank c
  | alphabetic, c => Text.isAlphabetic c
  | uppercase, c => Text.isUppercase c
  | lowercase, c => Text.isLowercase c
  | category k, c => k.holds c
  | anyCase s, c => (Text.cases c).any fun d => s.holds d
  | complement s, c => !s.holds c
  | union s t, c => s.holds c || t.holds c
  | inter s t, c => s.holds c && t.holds c

/-- The characters of a list. -/
def ofList (cs : List Char) : CharSet :=
  cs.foldr (fun c s => .union (.range c c) s) .none

/-- What is in a set but not in another one. -/
def diff (s t : CharSet) : CharSet := .inter s (.complement t)

/-- What is in exactly one of two sets. -/
def symmDiff (s t : CharSet) : CharSet := .union (s.diff t) (t.diff s)

end CharSet

/-- A condition on the place between two characters. -/
inductive Look where
  /-- The text starts here. -/
  | textStart
  /-- The text ends here. -/
  | textEnd
  /-- A line starts here. -/
  | lineStart
  /-- A line ends here. -/
  | lineEnd
  /-- A line starts here, where a carriage return ends lines too. -/
  | breakStart
  /-- A line ends here, where a carriage return ends lines too. -/
  | breakEnd
  /-- A word starts or ends here. -/
  | wordEdge
  /-- No word starts or ends here. -/
  | noWordEdge
  /-- A word starts here. -/
  | wordStart
  /-- A word ends here. -/
  | wordEnd
  /-- No word reaches here from the left. -/
  | wordOpen
  /-- No word goes on from here to the right. -/
  | wordClosed
deriving DecidableEq, Repr, Inhabited

namespace Look

/-- The neighbour, if there is one, is a word character. -/
def isWord : Option Char → Bool
  | some c => Text.isWordChar c
  | none => false

/-- The condition holds between two neighbours. -/
def holds (before after : Option Char) : Look → Bool
  | textStart => before.isNone
  | textEnd => after.isNone
  | lineStart => before.isNone || before = some '\n'
  | lineEnd => after.isNone || after = some '\n'
  | breakStart =>
    before.isNone || before = some '\n' || (before = some '\r' && after ≠ some '\n')
  | breakEnd =>
    after.isNone || after = some '\r' || (after = some '\n' && before ≠ some '\r')
  | wordEdge => isWord before != isWord after
  | noWordEdge => isWord before == isWord after
  | wordStart => !isWord before && isWord after
  | wordEnd => isWord before && !isWord after
  | wordOpen => !isWord before
  | wordClosed => !isWord after

end Look

/-- A regular expression. -/
inductive Pattern where
  /-- The empty text. -/
  | empty
  /-- One character of a set. -/
  | one (s : CharSet)
  /-- The empty text at certain places. -/
  | look (l : Look)
  /-- One pattern, then another one. -/
  | seq (p q : Pattern)
  /-- One pattern or, where it does not lead to a match, another one. -/
  | alt (p q : Pattern)
  /-- A pattern whose text is kept under a number. -/
  | group (number : Nat) (p : Pattern)
  /-- A pattern so many times at least, and at most if there is a bound. More
      repetitions are preferred if it is greedy. -/
  | repeat (p : Pattern) (least : Nat) (most : Option Nat) (greedy : Bool)
deriving DecidableEq, Repr, Inhabited

namespace Pattern

/-- The pattern can match the empty text somewhere. -/
def canBeEmpty : Pattern → Bool
  | empty => true
  | one _ => false
  | look _ => true
  | seq p q => p.canBeEmpty && q.canBeEmpty
  | alt p q => p.canBeEmpty || q.canBeEmpty
  | group _ p => p.canBeEmpty
  | .repeat p least _ _ => least = 0 || p.canBeEmpty

/-- How many steps the program of a pattern has. -/
def codeSize : Pattern → Nat
  | empty => 0
  | one _ => 1
  | look _ => 1
  | seq p q => p.codeSize + q.codeSize
  | alt p q => p.codeSize + q.codeSize + 2
  | group _ p => p.codeSize + 2
  | .repeat p least none _ => (least + 1) * (p.codeSize + 2)
  | .repeat p least (some most) _ => max least most * (p.codeSize + 1)

end Pattern

end UtilityCss
