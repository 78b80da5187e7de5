import UtilityCss.Ordered.Set
import UtilityCss.Pattern.Parser
import UtilityCss.Pattern.Search
import UtilityCss.Text.Cut
import UtilityCss.Token.Shape

/-!
# Extracting Tokens

The class tokens in a text of any kind.

Extraction knows no file formats. A text is cut into runs at blanks, quotes,
angle brackets, backticks and backslashes, and a run that has the shape of a
class token, once the colons at its end are dropped, is one. A word of prose
may have that shape too; it stands for no rule and does no harm.

A pattern of one's own restricts this to the text that it captures.

## Main definitions

* `Extractor`: Where tokens are looked for.
* `Extractor.runs`: The pieces of a text between delimiters.
* `Extractor.tokensIn`: The tokens in a text.
* `Extractor.extract`: The tokens that an extractor finds.
* `Extractor.candidatePattern`: The candidates as the matches of a pattern.
* `Extractor.extractInto`: The tokens that an extractor finds, added to a set one by
  one.
-/

namespace UtilityCss

/-- Where tokens are looked for. -/
inductive Extractor where
  /-- In the whole text. -/
  | everywhere
  /-- In what a pattern captures. -/
  | captured (p : Pattern)
deriving DecidableEq, Repr, Inhabited

namespace Extractor

/-- The characters besides blanks that end a run. -/
def marks : List Char := ['<', '>', '"', '\'', Char.ofNat 0x60, '\\']

/-- The character ends a run. -/
def isDelimiter (c : Char) : Bool := Text.isBlank c || marks.contains c

/-- The pieces of a text between delimiters, some of them empty. -/
def runs : List Char → List (List Char)
  | [] => [[]]
  | c :: cs =>
    if isDelimiter c then [] :: runs cs
    else match runs cs with
      | [] => [[c]]
      | run :: rest => (c :: run) :: rest

/-- The candidate in a run: what is left without the colons at its end. -/
def candidate (run : List Char) : String :=
  String.ofList (Text.dropEndWhile (· = ':') run)

/-- The tokens in a text. -/
def tokensIn (cs : List Char) : List String :=
  ((runs cs).map candidate).filter Token.isToken

/-- The extractor of a pattern, or `none` if the pattern is malformed. -/
def ofPattern? (pattern : String) : Option Extractor :=
  (Pattern.parse? pattern).map .captured

/-- The tokens that an extractor finds in a text. -/
def extract (e : Extractor) (text : String) : SortedSet :=
  match e with
  | everywhere => SortedSet.ofList (tokensIn text.toList)
  | captured p => SortedSet.ofList ((p.captured text.toList).flatMap tokensIn)

/-- The pattern of a candidate, as it is spelled. -/
def candidateText : String := "[^<>\"\x27\x60\\s\\\\]*[^<>\"\x27\x60\\s\\\\:]"

/-- The characters that no candidate has, in the order that the pattern names them. -/
def markSet : CharSet :=
  .union (.union (['<', '>', '"', '\'', Char.ofNat 0x60].foldl
    (fun s c => .union s (.range c c)) .none) .blank) (.range '\\' '\\')

/-- The pattern of a candidate: any characters of a run, and at last one that is no
    colon. -/
def candidatePattern : Pattern :=
  .seq (.repeat (.one (.complement markSet)) 0 none true)
    (.one (.complement (.union markSet (.range ':' ':'))))

/-- A candidate added to a set, if it is a token and not there already. -/
def addToken (found : SortedSet) (word : List Char) : SortedSet :=
  let token := String.ofList word
  if Token.isToken token && !decide (token ∈ found) then found.insert token else found

/-- The tokens among the candidates of a text, added to a set. -/
def addTokens (found : SortedSet) (cs : List Char) : SortedSet :=
  (candidatePattern.matched cs).foldl addToken found

/-- The tokens that an extractor finds in a text, added to a set. -/
def extractInto (e : Extractor) (text : String) (found : SortedSet) : SortedSet :=
  match e with
  | everywhere => addTokens found text.toList
  | captured p => (p.captured text.toList).foldl addTokens found

end Extractor

end UtilityCss
