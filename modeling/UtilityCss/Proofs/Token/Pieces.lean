import UtilityCss.Proofs.Token.Parts

/-!
# Tokens Put Together

Which texts are taken apart into given parts.

A token is cut at the colons outside brackets, and counting brackets from the left could
make a cut depend on all that comes before it. It does not: brackets are closed in every
piece, or the cut would not be there. So a piece is a text of its own (`IsPiece`), and
pieces with colons between them are cut into these pieces again, in whatever order they
stand and whichever of them are left out.

That is what `parse?_eq_some_iff` says about tokens as a whole, and it is why a token may
lose variants, get them in another order, or get another mark of importance, and is still
taken apart as one would expect.

## Main definitions

* `IsPiece`: A text that is not cut.
* `Token.name`: The text of a token.

## Theorems

* `groups_step`: What one character does to a cut.
* `isPiece_of_groups`: A text is cut into pieces.
* `groups_append_colon`: A piece with a colon is cut off.
* `parse?_eq_some_iff`: The parts of a token are pieces and make up its text.
* `parse?_name_of_subset`: A token with some of the variants.
-/

namespace UtilityCss

namespace Token

/-- The text of a token. -/
def name (t : Token) : String := String.ofList t.text

/-- The text is not cut: its brackets pair up, and its colons stand inside them. -/
def IsPiece (cs : List Char) : Prop := groups 0 cs = some [cs]

-- A character that is no cut joins the first piece, and the others are those of the rest.
theorem map_onFirst_eq_some {depth : Nat} {c : Char} {cs piece : List Char}
    {pieces : List (List Char)} (h : (groups depth cs).map (onFirst c) = some (piece :: pieces)) :
    ∃ later, piece = c :: later ∧ groups depth cs = some (later :: pieces) := by
  rcases Option.map_eq_some_iff.1 h with ⟨all, hall, heq⟩
  have hne := (joinWith_of_groups hall).1
  rcases all with _ | ⟨later, all⟩
  · exact absurd rfl hne
  · rcases List.cons.inj heq with ⟨rfl, rfl⟩
    exact ⟨later, rfl, hall⟩

-- A character joins the piece behind it at some depth, ends a piece, or has no place. What
-- it does is the same whatever follows.
theorem groups_step (depth : Nat) (c : Char) :
    (∃ depth', ∀ rest, groups depth (c :: rest) = (groups depth' rest).map (onFirst c)) ∨
      (depth = 0 ∧ ∀ rest, groups depth (c :: rest) = (groups 0 rest).map ([] :: ·)) ∨
      ∀ rest, groups depth (c :: rest) = none := by
  -- The marks that are tested, in the order of the definition.
  by_cases hopens : c = '['
  · exact Or.inl ⟨depth + 1, fun rest => by rw [groups_cons, if_pos hopens]⟩
  · by_cases hcloses : c = ']'
    · by_cases hdepth : depth = 0
      · refine Or.inr (Or.inr fun rest => ?_)
        rw [groups_cons, if_neg hopens, if_pos hcloses, if_pos hdepth]
      · refine Or.inl ⟨depth - 1, fun rest => ?_⟩
        rw [groups_cons, if_neg hopens, if_pos hcloses, if_neg hdepth]
    · by_cases hcut : c = ':' ∧ depth = 0
      · refine Or.inr (Or.inl ⟨hcut.2, fun rest => ?_⟩)
        rw [groups_cons, if_neg hopens, if_neg hcloses, if_pos hcut]
      · refine Or.inl ⟨depth, fun rest => ?_⟩
        rw [groups_cons, if_neg hopens, if_neg hcloses, if_neg hcut]

-- The first piece closes the brackets that are open in front of it.
theorem groups_of_groups {depth : Nat} {cs piece : List Char} {pieces : List (List Char)}
    (h : groups depth cs = some (piece :: pieces)) :
    groups depth piece = some [piece] ∧ ∀ other ∈ pieces, IsPiece other := by
  induction cs generalizing depth piece pieces with
  | nil =>
      cases depth with
      | zero =>
          rcases List.cons.inj (Option.some.inj h) with ⟨rfl, rfl⟩
          exact ⟨rfl, fun other hother => absurd hother List.not_mem_nil⟩
      | succ depth => simp only [groups, reduceCtorEq] at h
  | cons c cs ih =>
      rcases groups_step depth c with ⟨depth', hjoins⟩ | ⟨rfl, hcuts⟩ | hfails
      · rw [hjoins] at h
        rcases map_onFirst_eq_some h with ⟨later, rfl, hlater⟩
        rcases ih hlater with ⟨hfirst, hothers⟩
        refine ⟨?_, hothers⟩
        rw [hjoins, hfirst]
        rfl
      -- The first piece ends at a cut, and the next one starts without open brackets.
      · rw [hcuts] at h
        rcases Option.map_eq_some_iff.1 h with ⟨later, hlater, heq⟩
        rcases List.cons.inj heq with ⟨rfl, rfl⟩
        refine ⟨rfl, fun other hother => ?_⟩
        cases later with
        | nil => exact absurd hother List.not_mem_nil
        | cons next later =>
            rcases ih hlater with ⟨hfirst, hothers⟩
            rcases List.mem_cons.1 hother with rfl | hother
            · exact hfirst
            · exact hothers other hother
      · rw [hfails] at h
        exact absurd h.symm (Option.some_ne_none _)

/-- A text is cut into pieces. -/
theorem isPiece_of_groups {cs : List Char} {pieces : List (List Char)}
    (h : groups 0 cs = some pieces) : ∀ piece ∈ pieces, IsPiece piece := by
  intro piece hpiece
  cases pieces with
  | nil => exact absurd hpiece List.not_mem_nil
  | cons first pieces =>
      rcases groups_of_groups h with ⟨hfirst, hothers⟩
      rcases List.mem_cons.1 hpiece with rfl | hpiece
      · exact hfirst
      · exact hothers piece hpiece

-- What follows a piece has no part in how its brackets are counted.
theorem groups_append_colon {depth : Nat} {piece : List Char}
    (h : groups depth piece = some [piece]) (rest : List Char) :
    groups depth (piece ++ ':' :: rest) = (groups 0 rest).map (piece :: ·) := by
  induction piece generalizing depth with
  | nil =>
      cases depth with
      | zero => rw [List.nil_append, groups_cons, if_neg (by decide), if_neg (by decide),
          if_pos ⟨rfl, rfl⟩]
      | succ depth => simp only [groups, reduceCtorEq] at h
  | cons c cs ih =>
      rcases groups_step depth c with ⟨depth', hjoins⟩ | ⟨rfl, hcuts⟩ | hfails
      · rw [hjoins] at h
        rcases map_onFirst_eq_some h with ⟨later, heq, hlater⟩
        rw [← (List.cons.inj heq).2] at hlater
        rw [List.cons_append, hjoins, ih hlater, Option.map_map]
        rfl
      -- A piece would end here, and this one goes on.
      · rw [hcuts] at h
        rcases Option.map_eq_some_iff.1 h with ⟨later, -, heq⟩
        exact absurd (List.cons.inj heq).1.symm (List.cons_ne_nil c cs)
      · rw [hfails] at h
        exact absurd h.symm (Option.some_ne_none _)

theorem groups_pieces {pieces : List (List Char)} {last : List Char}
    (h : ∀ piece ∈ pieces, IsPiece piece) (hlast : IsPiece last) :
    groups 0 (pieces.flatMap (· ++ [':']) ++ last) = some (pieces ++ [last]) := by
  induction pieces with
  | nil => exact hlast
  | cons piece pieces ih =>
      rw [List.flatMap_cons, List.append_assoc, List.append_assoc, List.singleton_append,
        groups_append_colon (h piece List.mem_cons_self),
        ih fun other hother => h other (List.mem_cons_of_mem _ hother)]
      rfl

theorem isPiece_cons {c : Char} (hopens : c ≠ '[') (hcloses : c ≠ ']') (hcolon : c ≠ ':')
    {cs : List Char} : IsPiece (c :: cs) ↔ IsPiece cs := by
  have hcut : ¬(c = ':' ∧ (0 : Nat) = 0) := fun h => hcolon h.1
  rw [IsPiece, groups_cons, if_neg hopens, if_neg hcloses, if_neg hcut, IsPiece]
  constructor
  · intro h
    rcases map_onFirst_eq_some h with ⟨later, heq, hlater⟩
    rwa [← (List.cons.inj heq).2] at hlater
  · intro h
    rw [h]
    rfl

-- The mark of importance makes no difference to the cuts.
theorem isPiece_marks_iff (important negative : Bool) {cs : List Char} :
    IsPiece (marks important negative ++ cs) ↔ IsPiece (marks false negative ++ cs) := by
  cases important with
  | false => rfl
  | true => exact isPiece_cons (by decide) (by decide) (by decide)

/-- The parts of a text are pieces, and the core starts with a lower-case letter. -/
theorem isPiece_of_parse? {s : String} {t : Token} (h : parse? s = some t) :
    (∀ v ∈ t.variants, v.toList ≠ [] ∧ IsPiece v.toList) ∧
      IsPiece (marks t.important t.negative ++ t.core.toList) ∧
      startsLower t.core.toList = true := by
  unfold parse? at h
  split at h
  · simp only [reduceCtorEq] at h
  · next pieces hpieces =>
      have hall := isPiece_of_groups hpieces
      have hne := (joinWith_of_groups hpieces).1
      simp only [Option.ite_none_left_eq_some, Option.some.injEq, Bool.or_eq_true,
        Bool.not_eq_true', not_or, Bool.not_eq_false, Bool.not_eq_true] at h
      rcases h with ⟨⟨hany, hlower⟩, rfl⟩
      -- The variants are all pieces but the last, and that is the marks with the core.
      refine ⟨fun v hv => ?_, ?_, ?_⟩
      · rcases List.mem_map.1 hv with ⟨piece, hpiece, rfl⟩
        rw [String.toList_ofList]
        refine ⟨?_, hall piece (List.dropLast_subset _ hpiece)⟩
        rintro rfl
        exact List.any_eq_false.1 hany [] hpiece rfl
      · have hmem : pieces.getLastD [] ∈ pieces := by
          rw [List.getLastD_eq_getLast?, List.getLast?_eq_some_getLast hne, Option.getD_some]
          exact List.getLast_mem hne
        rw [String.toList_ofList, marks_strip]
        exact hall _ hmem
      · rw [String.toList_ofList]
        exact hlower

/-- What is put together of pieces is cut into them. -/
theorem groups_name {t : Token} (hvariants : ∀ v ∈ t.variants, IsPiece v.toList)
    (hlast : IsPiece (marks t.important t.negative ++ t.core.toList)) :
    groups 0 t.name.toList = some (t.variants.map String.toList
      ++ [marks t.important t.negative ++ t.core.toList]) := by
  have hpieces : ∀ piece ∈ t.variants.map String.toList, IsPiece piece := by
    intro piece hpiece
    rcases List.mem_map.1 hpiece with ⟨v, hv, rfl⟩
    exact hvariants v hv
  have hcut := groups_pieces hpieces hlast
  rw [List.flatMap_map] at hcut
  rw [name, String.toList_ofList]
  exact hcut

/-- A text has the given parts exactly if the variants are pieces with something in
    them, the marks and the core are one more, the core starts with a lower-case letter,
    and the parts make up the text. -/
theorem parse?_eq_some_iff {s : String} {t : Token} :
    parse? s = some t ↔ t.name = s ∧
      (∀ v ∈ t.variants, v.toList ≠ [] ∧ IsPiece v.toList) ∧
      IsPiece (marks t.important t.negative ++ t.core.toList) ∧
      startsLower t.core.toList = true := by
  constructor
  · intro h
    refine ⟨?_, isPiece_of_parse? h⟩
    rw [name, text_of_parse? h, String.ofList_toList]
  -- The pieces of the name are the variants and the rest of it.
  · rintro ⟨rfl, hvariants, hlast, hlower⟩
    have hgroups := groups_name (fun v hv => (hvariants v hv).2) hlast
    rcases t with ⟨variants, important, negative, core⟩
    have hany : (variants.map String.toList).any List.isEmpty = false := by
      rw [List.any_eq_false]
      intro piece hpiece
      rcases List.mem_map.1 hpiece with ⟨v, hv, rfl⟩
      rw [List.isEmpty_iff]
      exact (hvariants v hv).1
    have hnames : (variants.map String.toList).map String.ofList = variants := by
      rw [List.map_map]
      exact (List.map_congr_left fun v _ => String.ofList_toList).trans (List.map_id variants)
    cases hcore : core.toList with
    | nil =>
        simp only [hcore, startsLower] at hlower
        exact absurd hlower Bool.false_ne_true
    | cons c cs =>
        simp only [hcore, startsLower] at hlower
        rcases strip_marks hlower important negative cs with ⟨hbang, hhyphen⟩
        dsimp only at hgroups
        rw [hcore] at hgroups
        unfold parse?
        rw [hgroups]
        simp only [List.dropLast_concat, List.getLastD_concat, hbang, hhyphen, hany, startsLower,
          hlower, Bool.not_true, Bool.or_self, Bool.false_eq_true, if_false, hnames]
        rw [← hcore, String.ofList_toList]

/-- With some of the variants, in any order, and with or without its mark a token is
    taken apart as it was put together. -/
theorem parse?_name_of_subset {t : Token} (h : parse? t.name = some t) {names : List String}
    (hnames : ∀ v ∈ names, v ∈ t.variants) (important : Bool) :
    parse? (name ⟨names, important, t.negative, t.core⟩)
      = some ⟨names, important, t.negative, t.core⟩ := by
  rcases parse?_eq_some_iff.1 h with ⟨-, hvariants, hlast, hlower⟩
  refine parse?_eq_some_iff.2 ⟨rfl, fun v hv => hvariants v (hnames v hv), ?_, hlower⟩
  exact (isPiece_marks_iff important t.negative).2
    ((isPiece_marks_iff t.important t.negative).1 hlast)

end Token

end UtilityCss
