import UtilityCss.Text.Slice
import UtilityCss.Token

/-!
# Class Tokens in Place

Taking a class token apart without copying it.

The token is walked over once. Of the walk it is remembered how many brackets are open and where
the current piece starts, and at a colon outside brackets the piece is cut out of the token. The
next piece starts one byte later, because a colon is one byte. Readings of a core are cut at
hyphens in the same way.

Nothing is found that `Token.parse?` and `Token.readings` do not find. What is in question here is
whether all these cuts can be made (`UtilityCss.Proofs.Token.InPlace`).

## Main definitions

* `Token.groupsInPlace`: The pieces between colons outside brackets.
* `Token.ofGroups?`: The parts of a token that has been cut into pieces.
* `Token.parseInPlace`: The parts of a token text.
* `Token.readingsInPlace`: The ways to read a core as name and value.
-/

namespace UtilityCss

namespace Token

/-- The pieces of a token behind the given ones, from the characters that are left. The last
    piece so far starts at a position, and some brackets are open. -/
def groupsInPlace (token : String) (pieces : List String) (depth start : Nat) :
    List (Nat × Char) → Except Text.Fault (Option (List String))
  | [] =>
    if depth = 0 then do
      let last ← Text.sliceFrom token start
      return some (pieces ++ [last])
    else return none
  | (i, c) :: rest =>
    if c = '[' then groupsInPlace token pieces (depth + 1) start rest
    else if c = ']' then
      if depth = 0 then return none
      else do
        let depth ← Text.oneLess depth
        groupsInPlace token pieces depth start rest
    else if c = ':' ∧ depth = 0 then do
      let piece ← Text.slice token start i
      groupsInPlace token (pieces ++ [piece]) depth (i + 1) rest
    else groupsInPlace token pieces depth start rest

/-- The parts of a token that has been cut into pieces. -/
def ofGroups? (pieces : List (List Char)) : Option Token :=
  let variants := pieces.dropLast
  let (important, rest) := strip '!' (pieces.getLastD [])
  let (negative, core) := strip '-' rest
  if variants.any List.isEmpty || !startsLower core then none
  else some ⟨variants.map String.ofList, important, negative, String.ofList core⟩

/-- The parts of a token, or `none` for a text that is no class token. -/
def parseInPlace (token : String) : Except Text.Fault (Option Token) := do
  let pieces? ← groupsInPlace token [] 0 0 (Text.positioned token)
  return pieces?.bind fun pieces => ofGroups? (pieces.map String.toList)

/-- The reading that cuts a core around the hyphen at a position. -/
def readingInPlace (core : String) (i : Nat) : Except Text.Fault Reading := do
  let stem ← Text.sliceTo core i
  let value ← Text.sliceFrom core (i + 1)
  return ⟨stem, some value⟩

/-- The positions of the hyphens with text on both sides, from the last one on. -/
def hyphenPositions (core : String) : List Nat :=
  (((Text.positioned core).filter fun place => place.2 = '-').map Prod.fst).reverse.filter fun i =>
    0 < i && i + 1 < core.utf8ByteSize

/-- The ways to read a core, longest name first. -/
def readingsInPlace (core : String) : Except Text.Fault (List Reading) :=
  if core.toList.getLast? = some ']' then
    match Text.positionOfWord? "-[" core with
    | some i => do
      let reading ← readingInPlace core i
      return [reading]
    | none => return []
  else do
    let cuts ← (hyphenPositions core).mapM (readingInPlace core)
    return ⟨core, none⟩ :: cuts

end Token

end UtilityCss
