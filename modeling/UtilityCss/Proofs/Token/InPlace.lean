import UtilityCss.Proofs.Text.Slice
import UtilityCss.Proofs.Token.Cuts
import UtilityCss.Token.InPlace

/-!
# Cutting Tokens in Place

Every cut that taking a token apart asks for can be made.

Walking over a token, what has been passed is the pieces that are finished, each with its colon,
and the piece that is underway. The position where this one starts is the number of bytes before
it, because a colon is one byte; so the walk only cuts at positions that it has been at
(`groupsInPlace_eq`). The brackets that it counts are those that are open, and it goes on behind
a closing one only if there are any.

The same goes for the hyphens of a core. The position behind a hyphen, and that of a bracket
behind one, are where the value of the reading starts.

## Main definitions

* `continued`: Pieces and a piece underway, with the pieces of what follows.

## Theorems

* `groupsInPlace_eq`: The pieces of a token are found in place.
* `parseInPlace_eq`: So a token is taken apart in place, whatever text it is.
* `readingsInPlace_eq`: And so are the readings of a core.
-/

namespace UtilityCss

namespace Token

/-! ### Pieces -/

/-- The pieces that are finished, then those found in the rest, the first of which continues the
    piece that is underway. -/
def continued (pieces : List String) (piece : List Char) (found : Option (List (List Char))) :
    Option (List String) :=
  found.map fun groups => pieces ++ (piece.foldr onFirst groups).map String.ofList

theorem continued_concat (pieces : List String) (piece : List Char) (c : Char)
    (found : Option (List (List Char))) :
    continued pieces (piece ++ [c]) found = continued pieces piece (found.map (onFirst c)) := by
  simp only [continued, Option.map_map, List.foldr_append, List.foldr_cons, List.foldr_nil,
    Function.comp_def]

theorem continued_colon (pieces : List String) (piece : List Char)
    (found : Option (List (List Char))) :
    continued pieces piece (found.map ([] :: ·))
      = continued (pieces ++ [String.ofList piece]) [] found := by
  simp only [continued, Option.map_map, Function.comp_def, foldr_onFirst, List.append_nil,
    List.map_cons, List.foldr_nil, List.append_assoc, List.singleton_append]

/-- What the walk finds behind a part of the token that ends where a piece starts, and a part of
    that piece. -/
theorem groupsInPlace_eq {token : String} {done piece rest : List Char}
    (htoken : token.toList = done ++ (piece ++ rest)) (pieces : List String) (depth : Nat) :
    groupsInPlace token pieces depth (Text.width done)
        (Text.positionedFrom (Text.width (done ++ piece)) rest)
      = .ok (continued pieces piece (groups depth rest)) := by
  induction rest generalizing done piece pieces depth with
  | nil =>
      rw [Text.positionedFrom, groupsInPlace]
      cases depth with
      | zero =>
          rw [List.append_nil] at htoken
          rw [if_pos rfl, Text.sliceFrom_width htoken, continued, groups, Option.map_some,
            foldr_onFirst, List.append_nil]
          rfl
      | succ depth => rfl
  | cons c rest ih =>
      -- A character that separates nothing belongs to the piece.
      have hstep (depth : Nat) : groupsInPlace token pieces depth (Text.width done)
          (Text.positionedFrom (Text.width (done ++ piece) + c.utf8Size) rest)
            = .ok (continued pieces piece ((groups depth rest).map (onFirst c))) := by
        have hposition : Text.width (done ++ piece) + c.utf8Size
            = Text.width (done ++ (piece ++ [c])) := by
          simp only [Text.width_append, Text.width_cons, Text.width_nil, Nat.add_zero,
            Nat.add_assoc]
        rw [hposition, ih (by rw [htoken, List.append_assoc, List.singleton_append]),
          continued_concat]
      rw [Text.positionedFrom, groupsInPlace, groups_cons]
      by_cases hopens : c = '['
      · rw [if_pos hopens, if_pos hopens, hstep]
      · rw [if_neg hopens, if_neg hopens]
        by_cases hcloses : c = ']'
        · rw [if_pos hcloses, if_pos hcloses]
          cases depth with
          | zero => rfl
          | succ depth => exact hstep depth
        · rw [if_neg hcloses, if_neg hcloses]
          by_cases hcolon : c = ':' ∧ depth = 0
          · rcases hcolon with ⟨rfl, rfl⟩
            -- The next piece starts behind the colon, which is one byte.
            have hnext : Text.width (done ++ piece) + 1 = Text.width (done ++ piece ++ [':']) := by
              rw [Text.width_append (done ++ piece)]
              rfl
            have hrest : token.toList = done ++ piece ++ [':'] ++ ([] ++ rest) := by
              rw [htoken, List.nil_append, List.append_assoc, List.append_assoc,
                List.singleton_append]
            have hcut := ih hrest (pieces ++ [String.ofList piece]) 0
            rw [List.append_nil, ← hnext] at hcut
            rw [if_pos ⟨rfl, rfl⟩, if_pos ⟨rfl, rfl⟩, Text.slice_width htoken, continued_colon]
            exact hcut
          · rw [if_neg hcolon, if_neg hcolon, hstep]

theorem parse?_eq_bind (token : String) :
    parse? token = (groups 0 token.toList).bind ofGroups? := by
  unfold parse?
  cases groups 0 token.toList <;> rfl

/-- A token is taken apart in place, whatever text it is. -/
theorem parseInPlace_eq (token : String) : parseInPlace token = .ok (parse? token) := by
  have hwhole : token.toList = [] ++ ([] ++ token.toList) := rfl
  have hgroups : groupsInPlace token [] 0 0 (Text.positioned token)
      = .ok (continued [] [] (groups 0 token.toList)) := groupsInPlace_eq hwhole [] 0
  have hlists : (continued [] [] (groups 0 token.toList)).bind
      (fun pieces => ofGroups? (pieces.map String.toList)) = parse? token := by
    rw [parse?_eq_bind, continued, Option.bind_map]
    simp only [List.foldr_nil, List.nil_append, Function.comp_def, List.map_map,
      String.toList_ofList, List.map_id']
  rw [parseInPlace, hgroups, ok_bind, hlists]
  rfl

/-! ### Readings -/

/-- The reading around a hyphen. -/
theorem readingInPlace_width {core : String} {a b : List Char}
    (hcore : core.toList = a ++ '-' :: b) :
    readingInPlace core (Text.width a) = .ok ⟨String.ofList a, some (String.ofList b)⟩ := by
  have hback : core.toList = a ++ ['-'] ++ b := by
    rw [hcore, List.append_assoc, List.singleton_append]
  have hnext : Text.width a + 1 = Text.width (a ++ ['-']) := by
    rw [Text.width_append]
    rfl
  rw [readingInPlace, Text.sliceTo_width hcore, hnext, Text.sliceFrom_width hback]
  rfl

/-- The positions of the hyphens are the ends of what stands before them. -/
theorem positions_hyphens (i : Nat) (cs : List Char) :
    ((Text.positionedFrom i cs).filter fun place => place.2 = '-').map Prod.fst
      = (hyphenCuts cs).map fun cut => i + Text.width cut.1 := by
  induction cs generalizing i with
  | nil => rfl
  | cons c cs ih =>
      have hlater : ((hyphenCuts cs).map fun cut => (c :: cut.1, cut.2)).map
          (fun cut => i + Text.width cut.1)
            = (hyphenCuts cs).map fun cut => i + c.utf8Size + Text.width cut.1 := by
        rw [List.map_map]
        simp only [Function.comp_def, Text.width_cons, Nat.add_assoc]
      rw [Text.positionedFrom, hyphenCuts]
      by_cases hc : c = '-'
      · have hkept : decide ((i, c).2 = '-') = true := decide_eq_true hc
        rw [List.filter_cons, if_pos hkept, if_pos hc, List.map_cons, List.map_cons, ih, hlater]
        rfl
      · have hskipped : ¬decide ((i, c).2 = '-') = true := fun h => hc (of_decide_eq_true h)
        rw [List.filter_cons, if_neg hskipped, if_neg hc, ih, hlater]

/-- The hyphens with text on both sides are at the ends of the stems. -/
theorem hyphenPositions_eq (core : String) :
    hyphenPositions core = ((hyphenCuts core.toList).reverse.filter fun (a, b) =>
      !a.isEmpty && !b.isEmpty).map fun cut => Text.width cut.1 := by
  rw [hyphenPositions, Text.positioned, positions_hyphens, ← List.map_reverse, List.filter_map]
  simp only [Nat.zero_add, Function.comp_def]
  refine congrArg _ (List.filter_congr fun cut hcut => ?_)
  -- One side is not empty if the position is not the first, the other if it is not the last one.
  have hcore := congrArg Text.width (mem_hyphenCuts (List.mem_reverse.1 hcut))
  rw [Text.width_append, Text.width_cons, ← Text.utf8ByteSize_eq_width] at hcore
  have hhyphen : '-'.utf8Size = 1 := rfl
  have hleft : Text.width cut.1 = 0 ↔ cut.1 = [] := Text.width_eq_zero_iff
  have hright : Text.width cut.2 = 0 ↔ cut.2 = [] := Text.width_eq_zero_iff
  rw [Bool.eq_iff_iff, Bool.and_eq_true, Bool.and_eq_true, decide_eq_true_eq, decide_eq_true_eq,
    Bool.not_eq_true', Bool.not_eq_true', List.isEmpty_eq_false_iff, List.isEmpty_eq_false_iff,
    ne_eq, ne_eq, ← hleft, ← hright]
  omega

/-- The first hyphen with a bracket behind it ends the stem. -/
theorem positionOfWordFrom?_bracket (i : Nat) (cs : List Char) :
    Text.positionOfWordFrom? ['-', '['] i cs
      = (cutBracket cs).map fun cut => i + Text.width cut.1 := by
  induction cs generalizing i with
  | nil => rfl
  | cons c cs ih =>
      simp only [cutBracket]
      split
      · rfl
      · next hnot =>
          -- The bracket is not here, so it is looked for further behind.
          have hword : ¬(Text.dropWord? ['-', '['] (c :: cs)).isSome = true := by
            intro hsome
            rcases Option.isSome_iff_exists.1 hsome with ⟨rest, hrest⟩
            rcases List.cons.inj (Text.dropWord?_eq_some_iff.1 hrest) with ⟨rfl, rfl⟩
            exact hnot rest rfl rfl
          rw [Text.positionOfWordFrom?, if_neg hword, ih, Option.map_map]
          simp only [Function.comp_def, Text.width_cons, Nat.add_assoc]

/-- Cuts around hyphens can all be made. -/
theorem mapM_readingInPlace {core : String} {cuts : List (List Char × List Char)}
    (h : ∀ cut ∈ cuts, core.toList = cut.1 ++ '-' :: cut.2) :
    (cuts.map fun cut => Text.width cut.1).mapM (readingInPlace core)
      = .ok (cuts.map fun cut => ⟨String.ofList cut.1, some (String.ofList cut.2)⟩) := by
  induction cuts with
  | nil => rfl
  | cons cut cuts ih =>
      rcases List.forall_mem_cons.1 h with ⟨hcut, hcuts⟩
      rw [List.map_cons, List.mapM_cons, readingInPlace_width hcut, ih hcuts]
      rfl

/-- The readings of a core are cut in place. -/
theorem readingsInPlace_eq (core : String) : readingsInPlace core = .ok (readings core) := by
  unfold readingsInPlace readings
  dsimp only
  by_cases hbracket : core.toList.getLast? = some ']'
  -- The position of the bracket is the width of what stands before it.
  · have hposition : Text.positionOfWord? "-[" core
        = (cutBracket core.toList).map fun cut => Text.width cut.1 := by
      refine (positionOfWordFrom?_bracket 0 core.toList).trans ?_
      simp only [Nat.zero_add]
    rw [if_pos hbracket, if_pos hbracket, hposition]
    rcases hcut : cutBracket core.toList with _ | ⟨a, b⟩
    · rfl
    · rw [Option.map_some]
      dsimp only
      rw [readingInPlace_width (eq_of_cutBracket hcut).1]
      rfl
  -- The positions of the hyphens are the widths of what stands before them.
  · have hcuts : ∀ cut ∈ (hyphenCuts core.toList).reverse.filter
        (fun (a, b) => !a.isEmpty && !b.isEmpty), core.toList = cut.1 ++ '-' :: cut.2 :=
      fun cut hcut => mem_hyphenCuts (List.mem_reverse.1 (List.mem_of_mem_filter hcut))
    rw [if_neg hbracket, if_neg hbracket, hyphenPositions_eq, mapM_readingInPlace hcuts]
    rfl

end Token

end UtilityCss
