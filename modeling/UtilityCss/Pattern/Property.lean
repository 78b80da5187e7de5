import UtilityCss.Pattern
import UtilityCss.Text.Cut

/-!
# Properties of Characters

The classes of a pattern that are named by a property of characters.

A name is looked up in small letters, without blanks, hyphens, underscores and a
leading `is`, so that `Uppercase_Letter`, `uppercase letter` and `IsLu` name one
class.

Left out are the names of scripts and their extensions, of ages, of breaks, and
of the yes-or-no properties other than the four in `propertyNames`. A pattern
with one of them is refused here, although it has a meaning.

## Main definitions

* `CharSet.ofCategories`: The characters of some categories.
* `Pattern.foldName`: A name as it is looked up.
* `Pattern.categorySet?`: The class that a category's name stands for.
* `Pattern.namedProperty?`: The class that a text in braces stands for.
-/

namespace UtilityCss

open Text (Category)

namespace CharSet

/-- The characters of some categories. -/
def ofCategories (cs : List Category) : CharSet :=
  cs.foldr (fun c s => .union (.category c) s) .none

end CharSet

namespace Pattern

/-- The categories of marks. -/
def markCategories : List Category := [.nonspacingMark, .spacingMark, .enclosingMark]

/-- The categories of numbers. -/
def numberCategories : List Category := [.decimalNumber, .letterNumber, .otherNumber]

/-- The categories of punctuation marks. -/
def punctuationCategories : List Category :=
  [.connectorPunctuation, .dashPunctuation, .openPunctuation, .closePunctuation,
   .initialPunctuation, .finalPunctuation, .otherPunctuation]

/-- The categories of signs. -/
def symbolCategories : List Category :=
  [.mathSymbol, .currencySymbol, .modifierSymbol, .otherSymbol]

/-- The categories of separators. -/
def separatorCategories : List Category := [.spaceSeparator, .lineSeparator, .paragraphSeparator]

/-- The categories of characters without a sign of their own. -/
def controlCategories : List Category := [.control, .format, .privateUse]

/-- The characters that have a category. -/
def assigned : CharSet :=
  .ofCategories (Text.letterCategories ++ markCategories ++ numberCategories ++
    punctuationCategories ++ symbolCategories ++ separatorCategories ++ controlCategories)

/-- The names of categories and of groups of them. -/
def categoryNames : List (List String × List Category) :=
  [(["l", "letter"], Text.letterCategories),
   (["lc", "casedletter"], [.uppercaseLetter, .lowercaseLetter, .titlecaseLetter]),
   (["lu", "uppercaseletter"], [.uppercaseLetter]),
   (["ll", "lowercaseletter"], [.lowercaseLetter]),
   (["lt", "titlecaseletter"], [.titlecaseLetter]),
   (["lm", "modifierletter"], [.modifierLetter]),
   (["lo", "otherletter"], [.otherLetter]),
   (["m", "mark", "combiningmark"], markCategories),
   (["mn", "nonspacingmark"], [.nonspacingMark]),
   (["mc", "spacingmark"], [.spacingMark]),
   (["me", "enclosingmark"], [.enclosingMark]),
   (["n", "number"], numberCategories),
   (["nd", "decimalnumber", "digit"], [.decimalNumber]),
   (["nl", "letternumber"], [.letterNumber]),
   (["no", "othernumber"], [.otherNumber]),
   (["p", "punctuation", "punct"], punctuationCategories),
   (["pc", "connectorpunctuation"], [.connectorPunctuation]),
   (["pd", "dashpunctuation"], [.dashPunctuation]),
   (["ps", "openpunctuation"], [.openPunctuation]),
   (["pe", "closepunctuation"], [.closePunctuation]),
   (["pi", "initialpunctuation"], [.initialPunctuation]),
   (["pf", "finalpunctuation"], [.finalPunctuation]),
   (["po", "otherpunctuation"], [.otherPunctuation]),
   (["s", "symbol"], symbolCategories),
   (["sm", "mathsymbol"], [.mathSymbol]),
   (["sc", "currencysymbol"], [.currencySymbol]),
   (["sk", "modifiersymbol"], [.modifierSymbol]),
   (["so", "othersymbol"], [.otherSymbol]),
   (["z", "separator"], separatorCategories),
   (["zs", "spaceseparator"], [.spaceSeparator]),
   (["zl", "lineseparator"], [.lineSeparator]),
   (["zp", "paragraphseparator"], [.paragraphSeparator]),
   (["cc", "control", "cntrl"], [.control]),
   (["cf", "format"], [.format]),
   (["co", "privateuse"], [.privateUse])]

/-- The names of properties that are no categories. There are more that are left
    out. -/
def propertyNames : List (List String × CharSet) :=
  [(["alphabetic", "alpha"], .alphabetic), (["uppercase", "upper"], .uppercase),
   (["lowercase", "lower"], .lowercase), (["whitespace", "wspace", "space"], .blank)]

/-- The letters of a name that count, in lower case. -/
def plainName (name : List Char) : List Char :=
  (name.filter fun c => c.toNat < 0x80 && c ≠ ' ' && c ≠ '_' && c ≠ '-').map Char.toLower

/-- A name as it is looked up. Before a lone `c`, the word `is` is kept, since the
    three letters name something else. -/
def foldName : List Char → String
  | i :: s :: cs =>
    if i.toLower = 'i' && s.toLower = 's' && plainName cs ≠ ['c'] then
      String.ofList (plainName cs)
    else String.ofList (plainName (i :: s :: cs))
  | cs => String.ofList (plainName cs)

/-- The class that a category's name stands for. -/
def categorySet? (name : String) : Option CharSet :=
  if name = "any" then some (.complement .none)
  else if name = "assigned" then some assigned
  else if name = "ascii" then some (.range '\x00' '\x7f')
  else if name = "cn" || name = "unassigned" then some (.complement assigned)
  else if name = "c" || name = "other" then
    some (.union (.complement assigned) (.ofCategories controlCategories))
  else (categoryNames.find? fun entry => entry.1.contains name).map fun entry =>
    .ofCategories entry.2

/-- The class that a property's name stands for. -/
def propertySet? (name : String) : Option CharSet :=
  match propertyNames.find? fun entry => entry.1.contains name with
  | some entry => some entry.2
  | none => categorySet? name

/-- The class that a category's name stands for, after the word for categories. -/
def valueSet? (property value : List Char) : Option CharSet :=
  if foldName property = "gc" || foldName property = "generalcategory" then
    categorySet? (foldName value)
  else none

/-- The class that the text in braces stands for, and whether its complement is
    meant. -/
def namedProperty? (text : List Char) : Option (Bool × CharSet) :=
  match Text.cutFirst ':' text with
  | some (property, value) => (valueSet? property value).map (false, ·)
  | none =>
    match Text.cutFirst '=' text with
    | some (property, value) =>
      match Text.dropLastWord? ['!'] property with
      | some property => (valueSet? property value).map (true, ·)
      | none => (valueSet? property value).map (false, ·)
    | none => (propertySet? (foldName text)).map (false, ·)

end Pattern

end UtilityCss
