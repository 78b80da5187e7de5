import UtilityCss.Proofs.Token.Form

/-!
# The Parts of a Class Token

Scanning and resolving see the same parts in a token.

Two readers take tokens apart, and they are written for different ends. Scanning
tells classes from other words by the characters they are made of. Resolving takes
any text: it counts brackets, cuts at the colons outside them, and takes the marks
off the last piece. A class that scanning finds is of use only if resolving sees
the same variants, marks and core in it.

They agree because no part of a token that scanning finds holds a bracket or a
colon, except for the value in brackets, and what stands there is at depth one. So
the text of a valid shape is cut exactly behind its groups, and a colon of the
value is never taken for one that ends a variant.

Resolving also takes texts that scanning does not, but it loses nothing of them:
the parts put together are the text again. Whether scanning finds a text that
resolving takes apart is therefore a question about the parts.

## Main definitions

* `Token.text`: The parts of a token one after the other.
* `Shape.token`: The parts that resolving should see in a shape.
* `IsCore`: A stem with a tail that scanning knows.

## Theorems

* `groups_append`: Text without colons and brackets goes into the first piece.
* `groups_text`: The text of a valid shape is cut behind its groups.
* `parse?_text`: Resolving sees the parts of a valid shape.
* `text_of_parse?`: Resolving loses nothing of a token.
* `isSome_shape?_iff`: When scanning knows a text that resolving takes apart.
* `parse?_of_isToken`: Scanning and resolving see the same parts.
-/

namespace UtilityCss

namespace Token

/-- The parts of a token one after the other, each variant with its colon. -/
def text (t : Token) : List Char :=
  t.variants.flatMap (fun v => v.toList ++ [':']) ++ (marks t.important t.negative ++ t.core.toList)

/-- The parts that resolving should see in a shape. -/
def Shape.token (s : Shape) : Token :=
  ⟨s.groups.map String.ofList, s.important, s.negative, String.ofList s.core⟩

/-- A stem with a tail, as scanning knows them. -/
def IsCore (cs : List Char) : Prop :=
  ∃ stem tail, isStem stem = true ∧ Tail.IsValid tail ∧ cs = stem ++ tail.text

/-! ### Cutting at colons -/

theorem groups_cons (depth : Nat) (c : Char) (cs : List Char) :
    groups depth (c :: cs) =
      if c = '[' then (groups (depth + 1) cs).map (onFirst c)
      else if c = ']' then
        if depth = 0 then none else (groups (depth - 1) cs).map (onFirst c)
      else if c = ':' ∧ depth = 0 then (groups 0 cs).map ([] :: ·)
      else (groups depth cs).map (onFirst c) := by
  cases depth <;> rfl

theorem foldr_onFirst (cs piece : List Char) (pieces : List (List Char)) :
    cs.foldr onFirst (piece :: pieces) = (cs ++ piece) :: pieces := by
  induction cs with
  | nil => rfl
  | cons c cs ih => rw [List.foldr_cons, ih, onFirst, List.cons_append]

-- Text without brackets goes into the first piece, and so do colons inside brackets.
theorem groups_append {depth : Nat} {cs : List Char}
    (h : ∀ c ∈ cs, c ≠ '[' ∧ c ≠ ']' ∧ (c = ':' → depth ≠ 0)) (rest : List Char) :
    groups depth (cs ++ rest) = (groups depth rest).map fun pieces => cs.foldr onFirst pieces := by
  induction cs with
  | nil => exact Option.map_id'.symm
  | cons c cs ih =>
      rcases h c List.mem_cons_self with ⟨hopens, hcloses, hcolon⟩
      have hcut : ¬(c = ':' ∧ depth = 0) := fun hc => hcolon hc.1 hc.2
      rw [List.cons_append, groups_cons, if_neg hopens, if_neg hcloses, if_neg hcut,
        ih fun d hd => h d (List.mem_cons_of_mem _ hd), Option.map_map]
      rfl

theorem groups_eq_singleton {cs : List Char} (h : ∀ c ∈ cs, c ≠ ':' ∧ c ≠ '[' ∧ c ≠ ']') :
    groups 0 cs = some [cs] := by
  have happ : groups 0 (cs ++ []) = _ := groups_append
    (fun c hc => ⟨(h c hc).2.1, (h c hc).2.2, fun heq => absurd heq (h c hc).1⟩) []
  rw [List.append_nil] at happ
  rw [happ, groups, Option.map_some, foldr_onFirst, List.append_nil]

-- The brackets of a value are closed where they end, so the value is not cut.
theorem groups_append_bracket {cs value : List Char} (h : ∀ c ∈ cs, c ≠ ':' ∧ c ≠ '[' ∧ c ≠ ']')
    (hvalue : value.all isInnerChar = true) :
    groups 0 (cs ++ '[' :: (value ++ [']'])) = some [cs ++ '[' :: (value ++ [']'])] := by
  have hinner : ∀ c ∈ value, c ≠ '[' ∧ c ≠ ']' ∧ (c = ':' → (1 : Nat) ≠ 0) := by
    intro c hc
    have hchar := List.all_eq_true.1 hvalue c hc
    simp only [isInnerChar, Bool.and_eq_true, decide_eq_true_eq] at hchar
    exact ⟨hchar.1.2, hchar.2, fun _ => Nat.one_ne_zero⟩
  have hcloses : groups 1 [']'] = some [[']']] := by decide
  rw [groups_append (fun c hc => ⟨(h c hc).2.1, (h c hc).2.2, fun heq => absurd heq (h c hc).1⟩),
    groups, if_pos rfl, groups_append hinner, hcloses]
  simp only [Option.map_some, foldr_onFirst, onFirst]

theorem groups_flatMap {names : List (List Char)} (h : ∀ g ∈ names, isGroup g = true)
    {rest : List Char} {pieces : List (List Char)} (hrest : groups 0 rest = some pieces) :
    groups 0 (names.flatMap (· ++ [':']) ++ rest) = some (names ++ pieces) := by
  induction names with
  | nil => exact hrest
  | cons g names ih =>
      -- No character of a group opens or closes a bracket or ends a piece.
      have hg : ∀ c ∈ g, c ≠ '[' ∧ c ≠ ']' ∧ (c = ':' → 0 ≠ 0) := by
        intro c hc
        rcases ne_of_isGroupChar (isGroupChar_of_mem_isGroup (h g List.mem_cons_self) hc)
          with ⟨hcolon, hopens, hcloses, -⟩
        exact ⟨hopens, hcloses, fun heq => absurd heq hcolon⟩
      have hnames := ih fun g' hg' => h g' (List.mem_cons_of_mem _ hg')
      rw [List.flatMap_cons, List.append_assoc, List.append_assoc, groups_append hg,
        List.singleton_append, groups, if_neg (by decide), if_neg (by decide), if_pos ⟨rfl, rfl⟩,
        hnames]
      simp only [Option.map_some, foldr_onFirst, List.append_nil, List.cons_append]

section Shape

variable {s : Shape} (h : s.IsValid)
include h

-- The marks and the core stay in one piece, whatever the tail is.
theorem groups_marks_core :
    groups 0 (marks s.important s.negative ++ s.core)
      = some [marks s.important s.negative ++ s.core] := by
  have hfront : ∀ c ∈ s.front, c ≠ ':' ∧ c ≠ '[' ∧ c ≠ ']' := fun c hc => h.ne_of_mem_front hc
  have htail := h.tail
  rw [Shape.marks_core]
  -- A colon could only be inside of the bracket, where it parts nothing.
  cases htext : s.tail with
  | none =>
      rw [Tail.ending, List.append_nil]
      exact groups_eq_singleton hfront
  | slash digits =>
      rw [htext] at htail
      refine groups_eq_singleton fun c hc => ?_
      rcases List.mem_append.1 hc with hc | hc
      · exact hfront c hc
      · rcases List.mem_cons.1 hc with rfl | hc
        · decide
        · exact ne_of_isDigit (List.all_eq_true.1 htail.2 c hc)
  | bracket value =>
      rw [htext] at htail
      exact groups_append_bracket hfront htail.2

/-- The text of a valid shape is cut behind its groups and nowhere else. -/
theorem groups_text :
    groups 0 s.text = some (s.groups ++ [marks s.important s.negative ++ s.core]) :=
  groups_flatMap h.groups (groups_marks_core h)

/-- Resolving sees the parts of a valid shape. -/
theorem parse?_text : parse? (String.ofList s.text) = some s.token := by
  have hgroups := groups_text h
  have hnames := h.groups
  have hstem := h.stem
  rcases s with ⟨names, important, negative, _ | ⟨c, stem⟩, tail⟩
  · exact absurd hstem Bool.false_ne_true
  · simp only [isStem, Bool.and_eq_true] at hstem
    rcases strip_marks hstem.1 important negative (stem ++ tail.text) with ⟨hbang, hhyphen⟩
    have hany : names.any List.isEmpty = false := by
      rw [List.any_eq_false]
      intro g hg
      rw [List.isEmpty_iff]
      exact isGroup_ne_nil (hnames g hg)
    simp only [Shape.core, List.cons_append] at hgroups
    unfold parse?
    rw [String.toList_ofList, hgroups]
    simp only [List.dropLast_concat, List.getLastD_concat, hbang, hhyphen, hany, startsLower,
      hstem.1, Bool.not_true, Bool.or_self, Bool.false_eq_true, if_false]
    rfl

end Shape

/-! ### Putting the pieces together -/

theorem joinWith_onFirst (c : Char) {pieces : List (List Char)} (h : pieces ≠ []) :
    Text.joinWith ':' (onFirst c pieces) = c :: Text.joinWith ':' pieces := by
  rcases pieces with _ | ⟨piece, _ | ⟨next, pieces⟩⟩
  · exact absurd rfl h
  · rfl
  · rfl

-- Cutting at colons drops nothing but the colons.
theorem joinWith_of_groups {depth : Nat} {cs : List Char} {pieces : List (List Char)}
    (h : groups depth cs = some pieces) : pieces ≠ [] ∧ Text.joinWith ':' pieces = cs := by
  induction cs generalizing depth pieces with
  | nil =>
      cases depth with
      | zero =>
          rw [← Option.some.inj h]
          exact ⟨List.cons_ne_nil _ _, rfl⟩
      | succ depth => simp only [groups, reduceCtorEq] at h
  | cons c cs ih =>
      -- Only the depth differs where the character goes into the first piece.
      have hfirst : ∀ {depth : Nat}, (groups depth cs).map (onFirst c) = some pieces →
          pieces ≠ [] ∧ Text.joinWith ':' pieces = c :: cs := by
        intro depth hmap
        rcases Option.map_eq_some_iff.1 hmap with ⟨later, hlater, rfl⟩
        rcases ih hlater with ⟨hne, hjoin⟩
        rw [joinWith_onFirst c hne, hjoin]
        refine ⟨?_, rfl⟩
        cases later with
        | nil => exact absurd rfl hne
        | cons piece pieces => exact List.cons_ne_nil _ _
      rw [groups_cons] at h
      split at h
      · exact hfirst h
      · split at h
        · exact hfirst (Option.ite_none_left_eq_some.1 h).2
        · split at h
          · next hcolon =>
              rcases Option.map_eq_some_iff.1 h with ⟨later, hlater, rfl⟩
              rcases ih hlater with ⟨hne, hjoin⟩
              refine ⟨List.cons_ne_nil _ _, ?_⟩
              cases later with
              | nil => exact absurd rfl hne
              | cons piece pieces => rw [Text.joinWith, hjoin, hcolon.1, List.nil_append]; exact hne
          · exact hfirst h

theorem joinWith_concat (pieces : List (List Char)) (last : List Char) :
    Text.joinWith ':' (pieces ++ [last]) = pieces.flatMap (· ++ [':']) ++ last := by
  induction pieces with
  | nil => rfl
  | cons piece pieces ih =>
      rw [List.flatMap_cons, List.append_assoc, List.append_assoc, ← ih, List.cons_append]
      cases pieces <;> rfl

/-- Resolving loses nothing of a token: its parts make up the text. -/
theorem text_of_parse? {s : String} {t : Token} (h : parse? s = some t) : t.text = s.toList := by
  unfold parse? at h
  split at h
  · simp only [reduceCtorEq] at h
  · next pieces hpieces =>
      rcases joinWith_of_groups hpieces with ⟨hne, hjoin⟩
      simp only [Option.ite_none_left_eq_some, Option.some.injEq] at h
      rcases h with ⟨-, rfl⟩
      have hlast : pieces.dropLast ++ [pieces.getLastD []] = pieces := by
        rw [List.getLastD_eq_getLast?, List.getLast?_eq_some_getLast hne, Option.getD_some]
        exact List.dropLast_concat_getLast hne
      have hconcat := joinWith_concat pieces.dropLast (pieces.getLastD [])
      rw [hlast, hjoin] at hconcat
      simp only [text, List.flatMap_map, String.toList_ofList]
      rw [marks_strip, hconcat]

/-- Scanning knows a text that resolving takes apart exactly if it knows the names of
    all variants and the core. -/
theorem isSome_shape?_iff {s : String} {t : Token} (h : parse? s = some t) :
    (shape? s.toList).isSome = true ↔
      (∀ v ∈ t.variants, isGroup v.toList = true) ∧ IsCore t.core.toList := by
  constructor
  · intro hsome
    rcases Option.isSome_iff_exists.1 hsome with ⟨shape, hshape⟩
    rcases isValid_of_shape? hshape with ⟨hvalid, htext⟩
    -- What resolving sees is known from the shape.
    have hparse := parse?_text hvalid
    rw [htext, String.ofList_toList, h] at hparse
    rw [Option.some.inj hparse]
    refine ⟨?_, shape.stem, shape.tail, hvalid.stem, hvalid.tail, String.toList_ofList⟩
    intro v hv
    rcases List.mem_map.1 hv with ⟨g, hg, rfl⟩
    rw [String.toList_ofList]
    exact hvalid.groups g hg
  · rintro ⟨hvariants, stem, tail, hstem, htail, hcore⟩
    have hvalid :
        Shape.IsValid ⟨t.variants.map String.toList, t.important, t.negative, stem, tail⟩ :=
      ⟨fun g hg => by
        rcases List.mem_map.1 hg with ⟨v, hv, rfl⟩
        exact hvariants v hv, hstem, htail⟩
    have hshape := shape?_text hvalid
    have htext : Shape.text ⟨t.variants.map String.toList, t.important, t.negative, stem, tail⟩
        = s.toList := by
      rw [← text_of_parse? h, Shape.text, text, Shape.core, ← hcore, List.flatMap_map]
    rw [htext] at hshape
    rw [hshape]
    rfl

/-! ### The two readers -/

/-- Scanning and resolving see the same parts in a token. There is one way to read it
    by its form, no variant is empty or holds a colon, and brackets keep their colons:
    a value in brackets is part of the core as it stands. -/
theorem parse?_of_isToken {s : String} (h : isToken s = true) :
    ∃ shape : Shape, shape? s.toList = some shape ∧
      (∀ other : Shape, other.IsValid ∧ other.text = s.toList ↔ other = shape) ∧
      parse? s = some ⟨shape.groups.map String.ofList, shape.important, shape.negative,
        String.ofList shape.core⟩ ∧
      (∀ g ∈ shape.groups, g ≠ [] ∧ ':' ∉ g) ∧
      ∀ value, shape.tail = .bracket value →
        shape.core = shape.stem ++ '-' :: '[' :: (value ++ [']']) := by
  rcases exists_shape_of_isToken h with ⟨shape, hshape, hvalid, htext⟩
  have hparse := parse?_text hvalid
  rw [htext, String.ofList_toList] at hparse
  refine ⟨shape, hshape, fun other => ?_, hparse, fun g hg => ⟨?_, fun hcolon => ?_⟩, ?_⟩
  · rw [← shape?_eq_some_iff, hshape, Option.some.injEq]
    exact eq_comm
  · exact isGroup_ne_nil (hvalid.groups g hg)
  · exact (ne_of_isGroupChar (isGroupChar_of_mem_isGroup (hvalid.groups g hg) hcolon)).1 rfl
  · intro value hvalue
    rw [Shape.core, hvalue, Tail.text]

theorem parse?_of_isToken_bracket :
    isToken "md:group-hover:!-mt-[a:b]" = true ∧
      parse? "md:group-hover:!-mt-[a:b]"
        = some ⟨["md", "group-hover"], true, true, "mt-[a:b]"⟩ := by
  have htoken : isToken "md:group-hover:!-mt-[a:b]" = true := by decide +kernel
  have hread : shape? "md:group-hover:!-mt-[a:b]".toList
      = some ⟨["md".toList, "group-hover".toList], true, true, "mt".toList,
          .bracket "a:b".toList⟩ := by
    decide +kernel
  rcases parse?_of_isToken htoken with ⟨shape, hshape, -, hparse, -⟩
  rw [hread, Option.some.injEq] at hshape
  subst hshape
  exact ⟨htoken, hparse⟩

end Token

end UtilityCss
