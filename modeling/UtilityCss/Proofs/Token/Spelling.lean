import UtilityCss.Proofs.Text.Pieces
import UtilityCss.Proofs.Token.Pieces

/-!
# The Spelling of a Class Token

Which texts are class tokens, said by counting brackets.

`Token.parse?` goes through a text once and carries the number of open brackets along.
That number decides where a colon cuts and whether the text is refused, so what the parser
accepts is tied to how it reads. Here the same is said of a finished text: as many brackets
close as open, never more of them so far, and in front of a colon more have opened than
closed. A piece of a token is a text of which all of this is true (`isPiece_iff`), and the
count that the parser carries is the surplus of opened brackets (`Closes`).

With that a class token is its parts and nothing else. Parts that may stand in a token are
found again when they are put together, and a text that is not put together of such parts
is refused.

## Main definitions

* `IsBalanced`: Brackets pair up.
* `HidesColons`: Every colon stands inside brackets.
* `IsSpellable`: The parts that a class token can have.
* `spelled`: The parts of a token, joined by colons.

## Theorems

* `closes_cons`: What one character does to the surplus of opened brackets.
* `groups_eq_singleton_iff`: A text is not cut exactly if it closes what is open.
* `isPiece_iff`: A piece is balanced and hides its colons.
* `parse?_spelled_iff`: A text has the given parts exactly if they may stand in a token and
  make up the text, and a text of no such parts is refused.
-/

namespace UtilityCss

namespace Token

/-- Brackets pair up: as many close as open, and none closes before it has opened. -/
def IsBalanced (cs : List Char) : Prop :=
  (∀ front, front <+: cs → front.count ']' ≤ front.count '[') ∧ cs.count '[' = cs.count ']'

/-- Every colon stands inside brackets: more have opened in front of it than closed. -/
def HidesColons (cs : List Char) : Prop :=
  ∀ front, front ++ [':'] <+: cs → front.count ']' < front.count '['

/-- The parts that a class token can have. -/
structure IsSpellable (t : Token) : Prop where
  /-- A variant is a text of its own. -/
  variants : ∀ v ∈ t.variants, v ≠ "" ∧ IsBalanced v.toList ∧ HidesColons v.toList
  /-- The brackets of the core pair up. -/
  balanced : IsBalanced t.core.toList
  /-- The core has its colons in brackets. -/
  colons : HidesColons t.core.toList
  /-- The core starts with a lower-case ASCII letter. -/
  lower : ∃ c rest, t.core.toList = c :: rest ∧ 'a' ≤ c ∧ c ≤ 'z'

/-- The parts of a token, joined by colons. -/
def spelled (t : Token) : String :=
  ":".intercalate (t.variants ++
    [(if t.important then "!" else "") ++ (if t.negative then "-" else "") ++ t.core])

/-- The text closes the brackets that are open in front of it, and its own. No colon of it
    stands outside them. -/
structure Closes (depth : Nat) (cs : List Char) : Prop where
  /-- No bracket closes that is not open. -/
  front : ∀ front, front <+: cs → front.count ']' ≤ depth + front.count '['
  /-- In the end none is open. -/
  whole : depth + cs.count '[' = cs.count ']'
  /-- At a colon some are open. -/
  colon : ∀ front, front ++ [':'] <+: cs → front.count ']' < depth + front.count '['

/-! ### Pieces -/

theorem forall_prefix_cons {P : List Char → Prop} {c : Char} {cs : List Char} :
    (∀ front, front <+: c :: cs → P front) ↔ P [] ∧ ∀ front, front <+: cs → P (c :: front) := by
  constructor
  · intro h
    refine ⟨h [] List.nil_prefix, fun front hfront => h _ ?_⟩
    exact (List.prefix_cons_inj c).2 hfront
  · rintro ⟨hnil, hcons⟩ front hfront
    rcases List.prefix_cons_iff.1 hfront with rfl | ⟨rest, rfl, hrest⟩
    · exact hnil
    · exact hcons rest hrest

theorem forall_colon_cons {P : List Char → Prop} {c : Char} {cs : List Char} :
    (∀ front, front ++ [':'] <+: c :: cs → P front) ↔
      (c = ':' → P []) ∧ ∀ front, front ++ [':'] <+: cs → P (c :: front) := by
  constructor
  · intro h
    refine ⟨?_, fun front hfront => h _ ((List.prefix_cons_inj c).2 hfront)⟩
    rintro rfl
    exact h [] ((List.prefix_cons_inj _).2 List.nil_prefix)
  · rintro ⟨hnil, hcons⟩ front hfront
    cases front with
    | nil => exact hnil ((List.cons_prefix_cons.1 hfront).1.symm)
    | cons d front =>
        rcases List.cons_prefix_cons.1 hfront with ⟨rfl, hrest⟩
        exact hcons front hrest

theorem closes_nil {depth : Nat} : Closes depth [] ↔ depth = 0 := by
  constructor
  · intro h
    simpa only [List.count_nil, Nat.add_zero] using h.whole
  · rintro rfl
    refine ⟨fun front hfront => ?_, rfl, fun front hfront => ?_⟩
    · rw [List.prefix_nil.1 hfront]
      exact Nat.le_refl _
    · exact absurd (List.prefix_nil.1 hfront)
        (List.append_ne_nil_of_right_ne_nil _ (List.cons_ne_nil _ _))

/-- A character in front opens a bracket, closes one that is open, or, being a colon, wants
    one to be open. -/
theorem closes_cons {depth : Nat} {c : Char} {cs : List Char} :
    Closes depth (c :: cs) ↔
      if c = '[' then Closes (depth + 1) cs
      else if c = ']' then depth ≠ 0 ∧ Closes (depth - 1) cs
      else (c = ':' → depth ≠ 0) ∧ Closes depth cs := by
  have hsplit : Closes depth (c :: cs) ↔
      (∀ front, front <+: cs → (c :: front).count ']' ≤ depth + (c :: front).count '[') ∧
        depth + (c :: cs).count '[' = (c :: cs).count ']' ∧ (c = ':' → depth ≠ 0) ∧
        ∀ front, front ++ [':'] <+: cs →
          (c :: front).count ']' < depth + (c :: front).count '[' := by
    constructor
    · intro h
      have hcolon := forall_colon_cons.1 h.colon
      refine ⟨(forall_prefix_cons.1 h.front).2, h.whole, fun hc => ?_, hcolon.2⟩
      exact Nat.pos_iff_ne_zero.1 (hcolon.1 hc)
    · rintro ⟨hfront, hwhole, hfirst, hcolon⟩
      refine ⟨forall_prefix_cons.2 ⟨Nat.zero_le _, hfront⟩, hwhole, ?_⟩
      exact forall_colon_cons.2 ⟨fun hc => Nat.pos_iff_ne_zero.2 (hfirst hc), hcolon⟩
  rw [hsplit]
  by_cases hopens : c = '['
  · subst hopens
    simp only [if_true, List.count_cons_self, List.count_cons_of_ne (show '[' ≠ ']' by decide)]
    constructor
    · rintro ⟨hfront, hwhole, -, hcolon⟩
      exact ⟨fun front h => by have := hfront front h; omega, by omega,
        fun front h => by have := hcolon front h; omega⟩
    · intro h
      exact ⟨fun front hf => by have := h.front front hf; omega, by have := h.whole; omega,
        fun hc => absurd hc (by decide), fun front hf => by have := h.colon front hf; omega⟩
  · rw [if_neg hopens]
    by_cases hcloses : c = ']'
    · subst hcloses
      simp only [if_true, List.count_cons_self, List.count_cons_of_ne (show ']' ≠ '[' by decide)]
      constructor
      · rintro ⟨hfront, hwhole, -, hcolon⟩
        -- With nothing behind it, the bracket still has to close one that is open.
        have hdepth : 1 ≤ depth := by simpa using hfront [] List.nil_prefix
        exact ⟨by omega, fun front h => by have := hfront front h; omega, by omega,
          fun front h => by have := hcolon front h; omega⟩
      · rintro ⟨hdepth, h⟩
        exact ⟨fun front hf => by have := h.front front hf; omega, by have := h.whole; omega,
          fun hc => absurd hc (by decide), fun front hf => by have := h.colon front hf; omega⟩
    · simp only [if_neg hcloses, List.count_cons_of_ne hopens, List.count_cons_of_ne hcloses]
      constructor
      · rintro ⟨hfront, hwhole, hfirst, hcolon⟩
        exact ⟨hfirst, hfront, hwhole, hcolon⟩
      · rintro ⟨hfirst, h⟩
        exact ⟨h.front, h.whole, hfirst, h.colon⟩

-- A character joins the only piece exactly if the rest is one piece.
theorem map_onFirst_eq_singleton {depth : Nat} {c : Char} {cs : List Char} :
    (groups depth cs).map (onFirst c) = some [c :: cs] ↔ groups depth cs = some [cs] := by
  constructor
  · intro h
    rcases map_onFirst_eq_some h with ⟨later, heq, hlater⟩
    rwa [← (List.cons.inj heq).2] at hlater
  · intro h
    rw [h]
    rfl

/-- A text is not cut exactly if it closes the brackets that are open. -/
theorem groups_eq_singleton_iff {depth : Nat} {cs : List Char} :
    groups depth cs = some [cs] ↔ Closes depth cs := by
  induction cs generalizing depth with
  | nil =>
      rw [closes_nil]
      cases depth <;> simp only [groups, reduceCtorEq, Nat.add_one_ne_zero]
  | cons c cs ih =>
      rw [closes_cons, groups_cons]
      by_cases hopens : c = '['
      · rw [if_pos hopens, if_pos hopens, map_onFirst_eq_singleton, ih]
      · rw [if_neg hopens, if_neg hopens]
        by_cases hcloses : c = ']'
        · rw [if_pos hcloses, if_pos hcloses]
          by_cases hdepth : depth = 0
          · simp only [hdepth, if_true, reduceCtorEq, ne_eq, not_true_eq_false, false_and]
          · rw [if_neg hdepth, map_onFirst_eq_singleton, ih]
            exact (and_iff_right hdepth).symm
        · rw [if_neg hcloses, if_neg hcloses]
          by_cases hcut : c = ':' ∧ depth = 0
          -- A cut leaves an empty piece in front, and this text is not empty.
          · rw [if_pos hcut, Option.map_eq_some_iff]
            constructor
            · rintro ⟨later, -, heq⟩
              exact absurd (List.cons.inj heq).1.symm (List.cons_ne_nil c cs)
            · rintro ⟨hfirst, -⟩
              exact absurd hcut.2 (hfirst hcut.1)
          · rw [if_neg hcut, map_onFirst_eq_singleton, ih, not_and] at *
            exact (and_iff_right hcut).symm

/-- A piece is balanced and hides its colons. -/
theorem isPiece_iff {cs : List Char} : IsPiece cs ↔ IsBalanced cs ∧ HidesColons cs := by
  rw [IsPiece, groups_eq_singleton_iff]
  constructor
  · intro h
    simpa only [IsBalanced, HidesColons, Nat.zero_add] using
      And.intro (And.intro h.front h.whole) h.colon
  · rintro ⟨⟨hfront, hwhole⟩, hcolon⟩
    refine ⟨?_, ?_, ?_⟩
    · simpa only [Nat.zero_add] using hfront
    · simpa only [Nat.zero_add] using hwhole
    · simpa only [HidesColons, Nat.zero_add] using hcolon

/-! ### Whole tokens -/

-- The marks are no brackets and no colons, so they belong to the core's piece.
theorem isPiece_marks_append (important negative : Bool) {cs : List Char} :
    IsPiece (marks important negative ++ cs) ↔ IsPiece cs := by
  rw [isPiece_marks_iff]
  cases negative with
  | false => rfl
  | true => exact isPiece_cons (by decide) (by decide) (by decide)

theorem toList_spelled (t : Token) : (spelled t).toList = t.text := by
  have hmarks : ((if t.important then "!" else "") ++ (if t.negative then "-" else "")
      ++ t.core).toList = marks t.important t.negative ++ t.core.toList := by
    rw [String.toList_append, String.toList_append, marks]
    cases t.important <;> cases t.negative <;> rfl
  rw [spelled, show ":" = String.singleton ':' from rfl, Text.toList_intercalate,
    List.map_append, List.map_singleton, hmarks, joinWith_concat, List.flatMap_map]
  rfl

theorem startsLower_iff {cs : List Char} :
    startsLower cs = true ↔ ∃ c rest, cs = c :: rest ∧ 'a' ≤ c ∧ c ≤ 'z' := by
  cases cs with
  | nil => simp only [startsLower, Bool.false_eq_true, reduceCtorEq, false_and, exists_const]
  | cons c rest =>
      constructor
      · intro h
        rcases Bool.and_eq_true_iff.1 h with ⟨hfirst, hlast⟩
        exact ⟨c, rest, rfl, of_decide_eq_true hfirst, of_decide_eq_true hlast⟩
      · rintro ⟨d, tail, heq, hfirst, hlast⟩
        rw [(List.cons.inj heq).1]
        exact Bool.and_eq_true_iff.2 ⟨decide_eq_true hfirst, decide_eq_true hlast⟩

theorem isSpellable_iff {t : Token} :
    t.IsSpellable ↔ (∀ v ∈ t.variants, v.toList ≠ [] ∧ IsPiece v.toList) ∧
      IsPiece (marks t.important t.negative ++ t.core.toList) ∧
      startsLower t.core.toList = true := by
  have hvariant : ∀ v : String, v.toList ≠ [] ∧ IsPiece v.toList ↔
      v ≠ "" ∧ IsBalanced v.toList ∧ HidesColons v.toList := fun v => by
    rw [isPiece_iff, ne_eq, String.toList_eq_nil_iff]
  simp only [hvariant]
  rw [isPiece_marks_append, isPiece_iff, startsLower_iff]
  constructor
  · intro h
    exact ⟨h.variants, ⟨h.balanced, h.colons⟩, h.lower⟩
  · rintro ⟨hvariants, ⟨hbalanced, hcolons⟩, hlower⟩
    exact ⟨hvariants, hbalanced, hcolons, hlower⟩

/-- A text has the given parts exactly if these may stand in a token and make up the text.
    A text that no such parts make up is refused. -/
theorem parse?_spelled_iff (s : String) :
    (∀ t, parse? s = some t ↔ t.IsSpellable ∧ spelled t = s) ∧
      (parse? s = none ↔ ¬∃ t : Token, t.IsSpellable ∧ spelled t = s) := by
  have hparts : ∀ t, parse? s = some t ↔ t.IsSpellable ∧ spelled t = s := by
    intro t
    have hname : name t = spelled t := by rw [name, ← toList_spelled, String.ofList_toList]
    rw [parse?_eq_some_iff, isSpellable_iff, hname, and_comm]
  refine ⟨hparts, ?_⟩
  rw [← Option.not_isSome_iff_eq_none, Option.isSome_iff_exists]
  simp only [hparts]

end Token

end UtilityCss
