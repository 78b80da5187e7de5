import UtilityCss.Token
import UtilityCss.Token.Shape

/-!
# The Form of a Class Token

Which texts scanning takes for class tokens, said without a reader.

`Token.shape?` reads from left to right and decides as it goes: it takes groups
off as long as they end in colons, then the marks, then a stem, and looks at the
end whether a hyphen of the stem belongs to a bracket. What texts it accepts is
hard to see from that. Here the form of a token is said by its parts instead:
`Shape.IsValid` says which characters a part is made of, and `Shape.text` writes
the parts one after the other. `shape?_eq_some_iff` says that scanning reads
exactly these texts, so a text has parts in only one way.

Taking groups off never has to be undone. What follows the last group starts with
a mark or a stem, and the first character there that cannot stand in a group is
not a colon.

## Main definitions

* `isGroup`, `isStem`: The names of variants and the stems that scanning knows.
* `Tail.IsValid`, `Shape.IsValid`: What the parts of a token are made of.
* `Shape.core`: The stem with its tail.
* `Shape.front`, `Tail.ending`: The last piece of a token, cut where a tail departs
  from the stem.
* `Shape.text`: The parts of a token one after the other.

## Theorems

* `groupsOf_flatMap`: Groups are taken off the text behind them.
* `groupsOf_eq`: What was taken off is groups, and nothing is lost.
* `tailOf_text`, `tailOf_eq_some`: The same for tails.
* `strip_marks`, `strip_eq`, `marks_strip`: The same for marks.
* `shape?_text`: A valid shape is read back from its text.
* `isValid_of_shape?`: What is read is valid, and the text is its text.
* `shape?_eq_some_iff`: Scanning reads exactly the texts of valid shapes.
* `exists_shape_of_isToken`: A token is such a text.
-/

namespace UtilityCss

namespace Token

/-- A name of a variant as scanning knows it: lower-case letters, digits and `@`,
    and hyphens behind the first of them. -/
def isGroup : List Char → Bool
  | [] => false
  | c :: cs => isGroupStart c && cs.all isGroupChar

/-- A stem: a lower-case letter, then such letters, digits, dots and hyphens. -/
def isStem : List Char → Bool
  | [] => false
  | c :: cs => c.isLower && cs.all isStemChar

namespace Tail

/-- The characters of a tail. -/
def text : Tail → List Char
  | none => []
  | slash digits => '/' :: digits
  | bracket value => '-' :: '[' :: (value ++ [']'])

/-- The hyphen that a bracket takes from the stem. -/
def hyphen : Tail → List Char
  | bracket _ => ['-']
  | _ => []

/-- What follows the hyphen. -/
def ending : Tail → List Char
  | none => []
  | slash digits => '/' :: digits
  | bracket value => '[' :: (value ++ [']'])

/-- A slash is followed by digits, and brackets enclose characters that can stand
    there. -/
def IsValid : Tail → Prop
  | none => True
  | slash digits => digits ≠ [] ∧ digits.all Char.isDigit = true
  | bracket value => value ≠ [] ∧ value.all isInnerChar = true

end Tail

/-- The marks of importance and of a negated value. -/
def marks (important negative : Bool) : List Char :=
  (if important then ['!'] else []) ++ if negative then ['-'] else []

namespace Shape

/-- The stem with its tail. -/
def core (s : Shape) : List Char := s.stem ++ s.tail.text

/-- The parts one after the other, each group with its colon. -/
def text (s : Shape) : List Char :=
  s.groups.flatMap (· ++ [':']) ++ (marks s.important s.negative ++ s.core)

/-- The marks and the stem, with the hyphen that a bracket takes from it. -/
def front (s : Shape) : List Char := marks s.important s.negative ++ (s.stem ++ s.tail.hyphen)

/-- Every part is made of the characters that belong there. -/
structure IsValid (s : Shape) : Prop where
  groups : ∀ g ∈ s.groups, isGroup g = true
  stem : isStem s.stem = true
  tail : s.tail.IsValid

end Shape

section Characters

variable {c : Char}

theorem isGroupChar_of_isGroupStart (h : isGroupStart c = true) : isGroupChar c = true := by
  rw [isGroupChar, h, Bool.true_or]

theorem isStemChar_of_isLower (h : c.isLower = true) : isStemChar c = true := by
  simp only [isStemChar, h, Bool.true_or]

theorem isStemChar_of_isDigit (h : c.isDigit = true) : isStemChar c = true := by
  simp only [isStemChar, h, Bool.or_true, Bool.true_or]

-- The characters that separate parts belong to no group and to no stem.
theorem ne_of_isGroupChar (h : isGroupChar c = true) :
    c ≠ ':' ∧ c ≠ '[' ∧ c ≠ ']' ∧ c ≠ '!' := by
  refine ⟨?_, ?_, ?_, ?_⟩ <;> rintro rfl <;> exact absurd h (by decide)

theorem ne_of_isStemChar (h : isStemChar c = true) :
    c ≠ ':' ∧ c ≠ '[' ∧ c ≠ ']' ∧ c ≠ '/' := by
  refine ⟨?_, ?_, ?_, ?_⟩ <;> rintro rfl <;> exact absurd h (by decide)

theorem ne_of_isDigit (h : c.isDigit = true) : c ≠ ':' ∧ c ≠ '[' ∧ c ≠ ']' := by
  refine ⟨?_, ?_, ?_⟩ <;> rintro rfl <;> exact absurd h (by decide)

theorem ne_of_isLower (h : c.isLower = true) : c ≠ '!' ∧ c ≠ '-' := by
  refine ⟨?_, ?_⟩ <;> rintro rfl <;> exact absurd h (by decide)

theorem isGroupChar_of_mem_isGroup {g : List Char} (h : isGroup g = true) (hc : c ∈ g) :
    isGroupChar c = true := by
  cases g with
  | nil => exact absurd hc List.not_mem_nil
  | cons d ds =>
      rw [isGroup, Bool.and_eq_true] at h
      rcases List.mem_cons.1 hc with rfl | hc
      · exact isGroupChar_of_isGroupStart h.1
      · exact List.all_eq_true.1 h.2 c hc

theorem isStemChar_of_mem_isStem {stem : List Char} (h : isStem stem = true) (hc : c ∈ stem) :
    isStemChar c = true := by
  cases stem with
  | nil => exact absurd hc List.not_mem_nil
  | cons d ds =>
      rw [isStem, Bool.and_eq_true] at h
      rcases List.mem_cons.1 hc with rfl | hc
      · exact isStemChar_of_isLower h.1
      · exact List.all_eq_true.1 h.2 c hc

theorem isGroup_ne_nil {g : List Char} (h : isGroup g = true) : g ≠ [] := by
  rintro rfl
  exact absurd h (by decide)

end Characters

/-! ### Reading groups -/

-- A text is no group if the first character that cannot stand in one is no colon.
theorem groupsOf_of_head?_ne (here pending : List Char) {cs : List Char}
    (h : (cs.dropWhile isGroupChar).head? ≠ some ':') : groupsOf here pending cs = ([], here) := by
  induction cs generalizing pending with
  | nil => rfl
  | cons c cs ih =>
      rw [groupsOf]
      -- No colon is met before a character that ends the search.
      have hcolon : ¬(c = ':' ∧ pending ≠ []) := by
        rintro ⟨rfl, -⟩
        exact h rfl
      rw [if_neg hcolon]
      by_cases hc : (if pending = [] then isGroupStart c else isGroupChar c) = true
      · -- A character that starts a group can also stand in one.
        have hchar : isGroupChar c = true := by
          split at hc
          · exact isGroupChar_of_isGroupStart hc
          · exact hc
        rw [List.dropWhile_cons_of_pos hchar] at h
        rw [if_pos hc]
        exact ih (c :: pending) h
      · rw [if_neg hc]

-- A group is taken off with its colon, wherever in it the reader stands.
theorem groupsOf_append_colon (here pending : List Char) {cs : List Char}
    (hne : pending ++ cs ≠ []) (hstart : pending = [] → isGroup cs = true)
    (hcs : ∀ c ∈ cs, isGroupChar c = true) (rest : List Char) :
    groupsOf here pending (cs ++ ':' :: rest)
      = ((pending.reverse ++ cs) :: (groupsOf rest [] rest).1, (groupsOf rest [] rest).2) := by
  induction cs generalizing pending with
  | nil =>
      rw [List.append_nil] at hne ⊢
      rw [List.nil_append, groupsOf, if_pos ⟨rfl, hne⟩]
  | cons c cs ih =>
      have hchar := hcs c List.mem_cons_self
      have hcolon : ¬(c = ':' ∧ pending ≠ []) := fun hc => (ne_of_isGroupChar hchar).1 hc.1
      -- The first character starts the group, and each further one continues it.
      have htest : (if pending = [] then isGroupStart c else isGroupChar c) = true := by
        split
        · next hp =>
            have hgroup := hstart hp
            rw [isGroup, Bool.and_eq_true] at hgroup
            exact hgroup.1
        · exact hchar
      rw [List.cons_append, groupsOf, if_neg hcolon, if_pos htest,
        ih (c :: pending) (by simp only [List.cons_append, ne_eq, reduceCtorEq, not_false_eq_true])
          (fun hp => absurd hp (List.cons_ne_nil _ _))
          (fun d hd => hcs d (List.mem_cons_of_mem _ hd)),
        List.reverse_cons, List.append_assoc, List.singleton_append]

-- What was taken off is groups with their colons, and nothing is lost.
theorem groupsOf_eq (here pending : List Char) {cs : List Char}
    (hhere : here = pending.reverse ++ cs)
    (hpending : pending ≠ [] → isGroup pending.reverse = true) :
    (∀ g ∈ (groupsOf here pending cs).1, isGroup g = true) ∧
      here = (groupsOf here pending cs).1.flatMap (· ++ [':']) ++ (groupsOf here pending cs).2 := by
  induction cs generalizing here pending with
  | nil => exact ⟨fun g hg => absurd hg List.not_mem_nil, rfl⟩
  | cons c cs ih =>
      rw [groupsOf]
      split
      -- A colon ends the group that is pending.
      · next hc =>
          rcases ih cs [] rfl (fun hne => absurd rfl hne) with ⟨hgroups, hrest⟩
          refine ⟨?_, ?_⟩
          · intro g hg
            rcases List.mem_cons.1 hg with rfl | hg
            · exact hpending hc.2
            · exact hgroups g hg
          · rw [List.flatMap_cons, List.append_assoc, ← hrest, hhere, hc.1, List.append_assoc,
              List.singleton_append]
      · by_cases hc : (if pending = [] then isGroupStart c else isGroupChar c) = true
        · rw [if_pos hc]
          refine ih here (c :: pending) ?_ fun _ => ?_
          · rw [hhere, List.reverse_cons, List.append_assoc, List.singleton_append]
          · -- The character is the first one of the group or continues it.
            rw [List.reverse_cons]
            rcases hrev : pending.reverse with _ | ⟨d, ds⟩
            · rw [if_pos (List.reverse_eq_nil_iff.1 hrev)] at hc
              rw [List.nil_append, isGroup, hc]
              rfl
            · have hne : pending ≠ [] := by
                rintro rfl
                simp only [List.reverse_nil, reduceCtorEq] at hrev
              have hgroup := hpending hne
              rw [hrev, isGroup, Bool.and_eq_true] at hgroup
              rw [if_neg hne] at hc
              rw [List.cons_append, isGroup, Bool.and_eq_true, List.all_append, hgroup.2,
                Bool.true_and, List.all_cons, List.all_nil, Bool.and_true]
              exact ⟨hgroup.1, hc⟩
        · rw [if_neg hc]
          exact ⟨fun g hg => absurd hg List.not_mem_nil, rfl⟩

theorem groupsOf_flatMap {groups : List (List Char)} (h : ∀ g ∈ groups, isGroup g = true)
    {rest : List Char} (hrest : (rest.dropWhile isGroupChar).head? ≠ some ':') :
    groupsOf (groups.flatMap (· ++ [':']) ++ rest) [] (groups.flatMap (· ++ [':']) ++ rest)
      = (groups, rest) := by
  induction groups with
  | nil => exact groupsOf_of_head?_ne rest [] hrest
  | cons g groups ih =>
      have hg := h g List.mem_cons_self
      have hchars : ∀ c ∈ g, isGroupChar c = true := fun c hc => isGroupChar_of_mem_isGroup hg hc
      rw [List.flatMap_cons, List.append_assoc, List.append_assoc, List.singleton_append,
        groupsOf_append_colon _ [] (by rw [List.nil_append]; exact isGroup_ne_nil hg)
          (fun _ => hg) hchars, ih fun g' hg' => h g' (List.mem_cons_of_mem _ hg'),
        List.reverse_nil, List.nil_append]

/-! ### Reading tails -/

-- A tail is valid where it was read, and together with what is left of the stem it
-- is the text that was read.
theorem tailOf_eq_some {stem stem' cs : List Char} {tail : Tail}
    (h : tailOf stem cs = some (stem', tail)) :
    tail.IsValid ∧ stem' ++ tail.text = stem ++ cs ∧ ∀ c ∈ stem', c ∈ stem := by
  unfold tailOf at h
  split at h
  · rcases Prod.mk.inj (Option.some.inj h) with ⟨rfl, rfl⟩
    exact ⟨trivial, rfl, fun c hc => hc⟩
  · next digits =>
      split at h
      · simp only [reduceCtorEq] at h
      · next hdigits =>
          rcases Prod.mk.inj (Option.some.inj h) with ⟨rfl, rfl⟩
          simp only [Bool.or_eq_true, Bool.not_eq_true', not_or, Bool.not_eq_false,
            Bool.not_eq_true, List.isEmpty_eq_false_iff] at hdigits
          exact ⟨hdigits, rfl, fun c hc => hc⟩
  · next inner =>
      simp only [Option.ite_none_right_eq_some, Bool.and_eq_true, decide_eq_true_eq,
        Bool.not_eq_true', List.isEmpty_eq_false_iff, Option.some.injEq, Prod.mk.injEq] at h
      rcases h with ⟨⟨⟨⟨hhyphen, hcloses⟩, hne⟩, hall⟩, rfl, rfl⟩
      refine ⟨⟨hne, hall⟩, ?_, fun c hc => (List.dropLast_sublist stem).subset hc⟩
      -- The hyphen before the bracket was the last character of the stem.
      rcases List.getLast?_eq_some_iff.1 hhyphen with ⟨front, rfl⟩
      rcases List.getLast?_eq_some_iff.1 hcloses with ⟨value, rfl⟩
      rw [Tail.text, List.dropLast_concat, List.dropLast_concat, List.append_assoc,
        List.singleton_append]
  · simp only [reduceCtorEq] at h

-- A valid tail is found behind the characters of a stem.
theorem tailOf_text {stem : List Char} (hstem : stem.all isStemChar = true) {tail : Tail}
    (htail : tail.IsValid) :
    tailOf ((stem ++ tail.text).takeWhile isStemChar) ((stem ++ tail.text).dropWhile isStemChar)
      = some (stem, tail) := by
  have hall : ∀ c ∈ stem, isStemChar c = true := List.all_eq_true.1 hstem
  rw [List.takeWhile_append_of_pos hall, List.dropWhile_append_of_pos hall]
  cases tail with
  | none => rw [Tail.text, List.takeWhile_nil, List.dropWhile_nil, List.append_nil, tailOf]
  | slash digits =>
      have hslash : ¬isStemChar '/' = true := by decide
      have htest : (digits.isEmpty || !digits.all Char.isDigit) = false := by
        rw [htail.2, List.isEmpty_eq_false_iff.2 htail.1]
        rfl
      rw [Tail.text, List.takeWhile_cons_of_neg hslash, List.dropWhile_cons_of_neg hslash,
        List.append_nil, tailOf, htest, if_neg Bool.false_ne_true]
  | bracket value =>
      -- The hyphen before a bracket can stand in a stem, so it is taken up and given back.
      have hhyphen : isStemChar '-' = true := by decide
      have hopens : ¬isStemChar '[' = true := by decide
      have htest : (decide ((stem ++ ['-']).getLast? = some '-')
          && decide ((value ++ [']']).getLast? = some ']')
          && !(value ++ [']']).dropLast.isEmpty && (value ++ [']']).dropLast.all isInnerChar)
          = true := by
        rw [List.getLast?_concat, List.getLast?_concat, List.dropLast_concat, htail.2,
          List.isEmpty_eq_false_iff.2 htail.1]
        rfl
      rw [Tail.text, List.takeWhile_cons_of_pos hhyphen, List.dropWhile_cons_of_pos hhyphen,
        List.takeWhile_cons_of_neg hopens, List.dropWhile_cons_of_neg hopens, tailOf, if_pos htest,
        List.dropLast_concat, List.dropLast_concat]

/-! ### Reading marks -/

theorem strip_eq (c : Char) (cs : List Char) :
    (if (strip c cs).1 then [c] else []) ++ (strip c cs).2 = cs := by
  cases cs with
  | nil => rfl
  | cons d cs =>
      rw [strip]
      split
      · next hd =>
          rw [hd]
          rfl
      · rfl

/-- The marks in front of a core and the core make up the piece they are taken from. -/
theorem marks_strip (piece : List Char) :
    marks (strip '!' piece).1 (strip '-' (strip '!' piece).2).1
      ++ (strip '-' (strip '!' piece).2).2 = piece := by
  rw [marks, List.append_assoc, strip_eq '-', strip_eq '!']

theorem strip_of_head?_ne {c : Char} {cs : List Char} (h : cs.head? ≠ some c) :
    strip c cs = (false, cs) := by
  cases cs with
  | nil => rfl
  | cons d cs =>
      have hd : d ≠ c := fun heq => h (by rw [List.head?_cons, heq])
      rw [strip, if_neg hd]

theorem strip_append {c : Char} {cs : List Char} (h : cs.head? ≠ some c) (marked : Bool) :
    strip c ((if marked then [c] else []) ++ cs) = (marked, cs) := by
  cases marked with
  | true =>
      rw [if_pos rfl, List.singleton_append, strip, if_pos rfl]
  | false =>
      rw [if_neg Bool.false_ne_true, List.nil_append]
      exact strip_of_head?_ne h

-- Both marks are found in front of a stem, and the stem is what is left.
theorem strip_marks {c : Char} (hc : c.isLower = true) (important negative : Bool)
    (rest : List Char) :
    strip '!' (marks important negative ++ c :: rest)
        = (important, (if negative then ['-'] else []) ++ c :: rest) ∧
      strip '-' ((if negative then ['-'] else []) ++ c :: rest) = (negative, c :: rest) := by
  rcases ne_of_isLower hc with ⟨hbang, hhyphen⟩
  have hhead : ((if negative then ['-'] else []) ++ c :: rest).head? ≠ some '!' := by
    cases negative with
    | true => exact fun h => absurd (Option.some.inj h) (by decide)
    | false => exact fun h => hbang (Option.some.inj h)
  have hstem : (c :: rest).head? ≠ some '-' := fun h => hhyphen (Option.some.inj h)
  refine ⟨?_, strip_append hstem negative⟩
  rw [marks, List.append_assoc]
  exact strip_append hhead important

/-! ### Reading shapes -/

-- Both readers take the marks off in the same way. A pattern names its character, so
-- this is said for each mark by itself.
theorem bang_eq_strip (cs : List Char) :
    (match cs with
      | '!' :: rest => (true, rest)
      | _ => (false, cs)) = strip '!' cs := by
  split
  · rw [strip, if_pos rfl]
  · next hne =>
      refine (strip_of_head?_ne fun h => ?_).symm
      rcases List.head?_eq_some_iff.1 h with ⟨rest, heq⟩
      exact hne rest heq

theorem hyphen_eq_strip (cs : List Char) :
    (match cs with
      | '-' :: rest => (true, rest)
      | _ => (false, cs)) = strip '-' cs := by
  split
  · rw [strip, if_pos rfl]
  · next hne =>
      refine (strip_of_head?_ne fun h => ?_).symm
      rcases List.head?_eq_some_iff.1 h with ⟨rest, heq⟩
      exact hne rest heq

theorem shape?_eq (cs : List Char) :
    shape? cs =
      match (strip '-' (strip '!' (groupsOf cs [] cs).2).2).2 with
      | [] => none
      | c :: rest =>
        if c.isLower then
          (tailOf (rest.takeWhile isStemChar) (rest.dropWhile isStemChar)).map fun (stem, tail) =>
            ⟨(groupsOf cs [] cs).1, (strip '!' (groupsOf cs [] cs).2).1,
              (strip '-' (strip '!' (groupsOf cs [] cs).2).2).1, c :: stem, tail⟩
        else none := by
  unfold shape?
  rcases groupsOf cs [] cs with ⟨groups, rest⟩
  rewrite [← bang_eq_strip rest, ← hyphen_eq_strip]
  rfl

-- The first character behind the groups that cannot stand in one is no colon.
theorem head?_dropWhile_ne {cs ds : List Char} (hcs : ':' ∉ cs)
    (hds : ∀ d, ds.head? = some d → isGroupChar d = false ∧ d ≠ ':') :
    ((cs ++ ds).dropWhile isGroupChar).head? ≠ some ':' := by
  induction cs with
  | nil =>
      cases ds with
      | nil => simp only [List.append_nil, List.dropWhile_nil, List.head?_nil, ne_eq, reduceCtorEq,
          not_false_eq_true]
      | cons d ds =>
          rcases hds d rfl with ⟨hchar, hcolon⟩
          rw [List.nil_append,
            List.dropWhile_cons_of_neg (by rw [hchar]; exact Bool.false_ne_true)]
          exact fun h => hcolon (Option.some.inj h)
  | cons c cs ih =>
      simp only [List.mem_cons, not_or] at hcs
      rw [List.cons_append]
      -- A character that cannot stand in a group is met here, and it is no colon.
      by_cases hc : isGroupChar c = true
      · rw [List.dropWhile_cons_of_pos hc]
        exact ih hcs.2
      · rw [List.dropWhile_cons_of_neg hc]
        exact fun h => hcs.1 (Option.some.inj h).symm

theorem mem_marks {important negative : Bool} {c : Char} (h : c ∈ marks important negative) :
    c = '!' ∨ c = '-' := by
  rcases List.mem_append.1 h with h | h
  · cases important with
    | true => exact Or.inl (List.mem_singleton.1 h)
    | false => exact absurd h List.not_mem_nil
  · cases negative with
    | true => exact Or.inr (List.mem_singleton.1 h)
    | false => exact absurd h List.not_mem_nil

-- Nothing in front of a tail is a colon or a bracket, and neither is the hyphen that a
-- bracket takes from the stem.
theorem Shape.IsValid.ne_of_mem_front {s : Shape} (h : s.IsValid) {c : Char} (hc : c ∈ s.front) :
    c ≠ ':' ∧ c ≠ '[' ∧ c ≠ ']' := by
  rcases List.mem_append.1 hc with hc | hc
  · rcases mem_marks hc with rfl | rfl <;> decide
  · rcases List.mem_append.1 hc with hc | hc
    · rcases ne_of_isStemChar (isStemChar_of_mem_isStem h.stem hc)
        with ⟨hcolon, hopens, hcloses, -⟩
      exact ⟨hcolon, hopens, hcloses⟩
    · cases htail : s.tail with
      | none => exact absurd (htail ▸ hc) List.not_mem_nil
      | slash digits => exact absurd (htail ▸ hc) List.not_mem_nil
      | bracket value =>
          rw [htail, Tail.hyphen] at hc
          rw [List.mem_singleton.1 hc]
          decide

theorem Shape.marks_core (s : Shape) :
    marks s.important s.negative ++ s.core = s.front ++ s.tail.ending := by
  unfold Shape.core Shape.front
  cases s.tail <;> simp only [Tail.text, Tail.hyphen, Tail.ending, List.append_assoc,
    List.append_nil, List.cons_append, List.nil_append]

-- The marks and the core are no further group.
theorem Shape.IsValid.head?_ne {s : Shape} (h : s.IsValid) :
    ((marks s.important s.negative ++ s.core).dropWhile isGroupChar).head? ≠ some ':' := by
  have hfront : ':' ∉ s.front := fun hmem => (h.ne_of_mem_front hmem).1 rfl
  rw [Shape.marks_core]
  refine head?_dropWhile_ne hfront fun d hd => ?_
  -- A tail that goes on behind its hyphen goes on with a slash or a bracket.
  cases htail : s.tail with
  | none => simp only [htail, Tail.ending, List.head?_nil, reduceCtorEq] at hd
  | slash digits =>
      rw [htail] at hd
      rw [← Option.some.inj hd]
      decide
  | bracket value =>
      rw [htail] at hd
      rw [← Option.some.inj hd]
      decide

/-! ### Characters of a shape -/

-- No part brings in a character of its own but the marks that separate parts.
theorem Shape.IsValid.of_mem_text {s : Shape} (h : s.IsValid) {c : Char} (hc : c ∈ s.text) :
    isGroupChar c = true ∨ isStemChar c = true ∨ isInnerChar c = true ∨
      c ∈ [':', '!', '-', '/', '[', ']'] := by
  rcases List.mem_append.1 hc with hc | hc
  · rcases List.mem_flatMap.1 hc with ⟨g, hg, hc⟩
    rcases List.mem_append.1 hc with hc | hc
    · exact Or.inl (isGroupChar_of_mem_isGroup (h.groups g hg) hc)
    · rw [List.mem_singleton.1 hc]
      decide
  rcases List.mem_append.1 hc with hc | hc
  · rcases mem_marks hc with rfl | rfl <;> decide
  rcases List.mem_append.1 hc with hc | hc
  · exact Or.inr (Or.inl (isStemChar_of_mem_isStem h.stem hc))
  have hvalid := h.tail
  cases htail : s.tail with
  | none => exact absurd (htail ▸ hc) List.not_mem_nil
  | slash digits =>
      rw [htail] at hc hvalid
      rcases List.mem_cons.1 hc with rfl | hc
      · decide
      · exact Or.inr (Or.inl (isStemChar_of_isDigit (List.all_eq_true.1 hvalid.2 c hc)))
  | bracket value =>
      rw [htail, Tail.text, List.mem_cons, List.mem_cons, List.mem_append,
        List.mem_singleton] at hc
      rw [htail] at hvalid
      rcases hc with rfl | rfl | hc | rfl
      · decide
      · decide
      · exact Or.inr (Or.inr (Or.inl (List.all_eq_true.1 hvalid.2 c hc)))
      · decide

-- A token that starts with a hyphen is negated, and a stem follows.
theorem Shape.IsValid.isLower_of_text_eq {s : Shape} (h : s.IsValid) {cs : List Char}
    (htext : s.text = '-' :: cs) : ∃ c rest, cs = c :: rest ∧ c.isLower = true := by
  have hgroups := h.groups
  have hstem := h.stem
  -- Neither a group nor a stem starts with a hyphen, so there is no group, and the hyphen
  -- is the mark of a negative.
  rcases s with ⟨_ | ⟨_ | ⟨d, ds⟩, groups⟩, important, negative, _ | ⟨c, stem⟩, tail⟩
  · exact absurd hstem Bool.false_ne_true
  · simp only [isStem, Bool.and_eq_true] at hstem
    have hfirst : c ≠ '-' := (ne_of_isLower hstem.1).2
    simp only [Shape.text, marks, Shape.core, List.flatMap_nil, List.nil_append,
      List.cons_append] at htext
    cases important with
    | true =>
        simp only [if_true, List.cons_append, List.cons.injEq] at htext
        exact absurd htext.1 (by decide)
    | false =>
        cases negative with
        | true =>
            simp only [if_true, Bool.false_eq_true, if_false, List.nil_append, List.cons_append,
              List.cons.injEq, true_and] at htext
            exact ⟨c, _, htext.symm, hstem.1⟩
        | false =>
            simp only [Bool.false_eq_true, if_false, List.nil_append, List.cons.injEq] at htext
            exact absurd htext.1 hfirst
  · exact absurd (hgroups [] List.mem_cons_self) Bool.false_ne_true
  · exact absurd (hgroups [] List.mem_cons_self) Bool.false_ne_true
  · exact absurd hstem Bool.false_ne_true
  · have hgroup := hgroups (d :: ds) List.mem_cons_self
    simp only [Shape.text, List.flatMap_cons, List.cons_append, List.cons.injEq] at htext
    rw [htext.1, isGroup, Bool.and_eq_true] at hgroup
    exact absurd hgroup.1 (by decide)

/-- A valid shape is read back from its text. -/
theorem shape?_text {s : Shape} (h : s.IsValid) : shape? s.text = some s := by
  have hgroups : groupsOf s.text [] s.text = (s.groups, marks s.important s.negative ++ s.core) :=
    groupsOf_flatMap h.groups h.head?_ne
  have hstem := h.stem
  have htail := h.tail
  rcases s with ⟨groups, important, negative, _ | ⟨c, stem⟩, tail⟩
  · exact absurd hstem Bool.false_ne_true
  · simp only [isStem, Bool.and_eq_true] at hstem
    rcases strip_marks hstem.1 important negative (stem ++ tail.text) with ⟨hbang, hhyphen⟩
    rw [shape?_eq, hgroups, Shape.core, List.cons_append, hbang]
    simp only [hhyphen]
    rw [if_pos hstem.1, tailOf_text hstem.2 htail]
    rfl

/-- What is read is a valid shape, and the text is its text. -/
theorem isValid_of_shape? {cs : List Char} {s : Shape} (h : shape? cs = some s) :
    s.IsValid ∧ s.text = cs := by
  rw [shape?_eq] at h
  rcases groupsOf_eq cs [] (List.nil_append cs).symm (fun hne => absurd rfl hne)
    with ⟨hgroups, htext⟩
  have hpiece := marks_strip (groupsOf cs [] cs).2
  rcases hrest : (strip '-' (strip '!' (groupsOf cs [] cs).2).2).2 with _ | ⟨c, rest⟩
  · rw [hrest] at h
    simp only [reduceCtorEq] at h
  · rw [hrest] at h hpiece
    simp only [Option.ite_none_right_eq_some, Option.map_eq_some_iff, Prod.exists] at h
    rcases h with ⟨hlower, stem, tail, htail, rfl⟩
    rcases tailOf_eq_some htail with ⟨hvalid, heq, hmem⟩
    -- The stem is part of the characters that can stand in one.
    have hstem : ∀ d ∈ stem, isStemChar d = true := fun d hd =>
      List.all_eq_true.1 List.all_takeWhile d (hmem d hd)
    refine ⟨⟨hgroups, ?_, hvalid⟩, ?_⟩
    · rw [isStem, hlower, List.all_eq_true.2 hstem]
      rfl
    · -- The core is what is left behind the marks, and the marks behind the groups.
      rw [List.takeWhile_append_dropWhile] at heq
      simp only [Shape.text, Shape.core, List.cons_append, heq]
      rw [hpiece, ← htext]

theorem getLast?_append_ne {c : Char} {ys : List Char} (hne : ys ≠ []) (h : c ∉ ys)
    (xs : List Char) : (xs ++ ys).getLast? ≠ some c := by
  rw [List.getLast?_append, List.getLast?_eq_some_getLast hne, Option.some_or]
  exact fun hlast => h (Option.some.inj hlast ▸ List.getLast_mem hne)

-- The last piece of a token is a stem, digits or a bracket, so it is no colon.
theorem Shape.IsValid.getLast?_ne {s : Shape} (h : s.IsValid) : s.text.getLast? ≠ some ':' := by
  have htail := h.tail
  rw [Shape.text, Shape.core, ← List.append_assoc, ← List.append_assoc]
  -- The text ends in the stem, in digits or in a bracket.
  cases htext : s.tail with
  | none =>
      have hne : s.stem ≠ [] := by
        intro hnil
        have hstem := h.stem
        rw [hnil] at hstem
        exact absurd hstem Bool.false_ne_true
      have hcolon : ':' ∉ s.stem := fun hmem =>
        (ne_of_isStemChar (isStemChar_of_mem_isStem h.stem hmem)).1 rfl
      rw [Tail.text, List.append_nil]
      exact getLast?_append_ne hne hcolon _
  | slash digits =>
      rw [htext] at htail
      have hcolon : ':' ∉ digits := fun hmem =>
        (ne_of_isDigit (List.all_eq_true.1 htail.2 _ hmem)).1 rfl
      rw [Tail.text, List.append_cons]
      exact getLast?_append_ne htail.1 hcolon _
  | bracket value =>
      rw [Tail.text, List.append_cons, List.append_cons, ← List.append_assoc]
      exact getLast?_append_ne (List.cons_ne_nil _ _) (by decide) _

/-- Scanning reads exactly the texts of valid shapes. -/
theorem shape?_eq_some_iff {cs : List Char} {s : Shape} :
    shape? cs = some s ↔ s.IsValid ∧ s.text = cs := by
  constructor
  · exact isValid_of_shape?
  · rintro ⟨hvalid, rfl⟩
    exact shape?_text hvalid

/-- A token is the text of a valid shape. -/
theorem exists_shape_of_isToken {token : String} (h : isToken token = true) :
    ∃ s, shape? token.toList = some s ∧ s.IsValid ∧ s.text = token.toList := by
  rw [isToken, Bool.and_eq_true] at h
  rcases Option.isSome_iff_exists.1 h.2 with ⟨s, hs⟩
  exact ⟨s, hs, isValid_of_shape? hs⟩

theorem getLast?_ne_of_isToken {token : String} (h : isToken token = true) :
    token.toList.getLast? ≠ some ':' := by
  rcases exists_shape_of_isToken h with ⟨shape, -, hvalid, htext⟩
  exact htext ▸ hvalid.getLast?_ne

end Token

end UtilityCss
