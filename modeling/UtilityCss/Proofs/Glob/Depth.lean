import Mathlib.Tactic.Tauto
import UtilityCss.Proofs.Glob.Start
import UtilityCss.Proofs.Text.Words

/-!
# How Deep Globs Match

How many slashes a text that matches a glob can have.

Where parts are separated, a piece takes up the slashes that it names and no others, unless it
is two stars. So a pattern without two stars matches no text with more slashes than the pattern
has itself. Slashes in branches are counted in all of them, although only one is taken; they
have to stand in the pattern all the same.

Classes are the exception. A class takes up any byte that it holds, and it can hold the slash
without naming it: as one that is not excluded, or between the ends of a range.

## Main definitions

* `GlobPiece.slashes`: The slashes that a piece names.
* `Glob.namesSlashes`: All classes with a slash name it.
* `GlobDraft.Bounded`: A draft names so many slashes at most.

## Theorems

* `GlobPiece.count_le_of_mem_rests`: A piece takes up the slashes that it names.
* `GlobDraft.Bounded.read?`: What is read names no more slashes than the text has.
* `Glob.count_slash_le_of_accepts`: A text that matches has no more slashes than the pattern.
-/

namespace UtilityCss

namespace GlobPiece

/-- A range has a slash at one of its ends. -/
def namesSlash (r : Char × Char) : Bool := r.1 = '/' || r.2 = '/'

mutual

/-- The slashes that a piece names, those of all branches together. -/
def slashes : GlobPiece → Nat
  | char c => if c = '/' then 1 else 0
  | oneOf _ ranges => if ranges.any namesSlash then 1 else 0
  | oneBranch branches => slashesOfBranches branches
  | _ => 0

/-- The slashes that some pieces name. -/
def slashesOfList : List GlobPiece → Nat
  | [] => 0
  | p :: ps => p.slashes + slashesOfList ps

/-- The slashes that some branches name. -/
def slashesOfBranches : List (List GlobPiece) → Nat
  | [] => 0
  | b :: bs => slashesOfList b + slashesOfBranches bs

end

mutual

/-- The piece has a property, and so have those in its branches. -/
def all (f : GlobPiece → Bool) : GlobPiece → Bool
  | oneBranch branches => f (oneBranch branches) && allOfBranches f branches
  | p => f p

/-- All pieces have a property, and so have those in their branches. -/
def allOfList (f : GlobPiece → Bool) : List GlobPiece → Bool
  | [] => true
  | p :: ps => p.all f && allOfList f ps

/-- All pieces of some branches have a property. -/
def allOfBranches (f : GlobPiece → Bool) : List (List GlobPiece) → Bool
  | [] => true
  | b :: bs => allOfList f b && allOfBranches f bs

end

/-- The piece is no two stars. -/
def isStarless : GlobPiece → Bool
  | leading => false
  | trailing => false
  | between => false
  | _ => true

/-- The piece is no class with a slash that it does not name. -/
def isExplicit : GlobPiece → Bool
  | oneOf negated ranges => !inClass negated ranges slash || ranges.any namesSlash
  | _ => true

theorem slashesOfList_append (ps qs : List GlobPiece) :
    slashesOfList (ps ++ qs) = slashesOfList ps + slashesOfList qs := by
  induction ps with
  | nil => rw [List.nil_append, slashesOfList, Nat.zero_add]
  | cons p ps ih => rw [List.cons_append, slashesOfList, slashesOfList, ih, Nat.add_assoc]

theorem slashesOfBranches_append (bs bs' : List (List GlobPiece)) :
    slashesOfBranches (bs ++ bs') = slashesOfBranches bs + slashesOfBranches bs' := by
  induction bs with
  | nil => rw [List.nil_append, slashesOfBranches, Nat.zero_add]
  | cons b bs ih =>
      rw [List.cons_append, slashesOfBranches, slashesOfBranches, ih, Nat.add_assoc]

theorem slashesOfList_reverse (ps : List GlobPiece) :
    slashesOfList ps.reverse = slashesOfList ps := by
  induction ps with
  | nil => rfl
  | cons p ps ih =>
      rw [List.reverse_cons, slashesOfList_append, ih, slashesOfList, slashesOfList,
        slashesOfList, Nat.add_zero, Nat.add_comm]

theorem slashesOfBranches_reverse (bs : List (List GlobPiece)) :
    slashesOfBranches bs.reverse = slashesOfBranches bs := by
  induction bs with
  | nil => rfl
  | cons b bs ih =>
      rw [List.reverse_cons, slashesOfBranches_append, ih, slashesOfBranches, slashesOfBranches,
        slashesOfBranches, Nat.add_zero, Nat.add_comm]

theorem allOfList_eq (f : GlobPiece → Bool) (ps : List GlobPiece) :
    allOfList f ps = ps.all (all f) := by
  induction ps with
  | nil => rfl
  | cons p ps ih => rw [allOfList, List.all_cons, ih]

theorem allOfBranches_eq (f : GlobPiece → Bool) (bs : List (List GlobPiece)) :
    allOfBranches f bs = bs.all (allOfList f) := by
  induction bs with
  | nil => rfl
  | cons b bs ih => rw [allOfBranches, List.all_cons, ih]

theorem allOfList_reverse (f : GlobPiece → Bool) (ps : List GlobPiece) :
    allOfList f ps.reverse = allOfList f ps := by
  rw [allOfList_eq, allOfList_eq, List.all_reverse]

theorem allOfBranches_reverse (f : GlobPiece → Bool) (bs : List (List GlobPiece)) :
    allOfBranches f bs.reverse = allOfBranches f bs := by
  rw [allOfBranches_eq, allOfBranches_eq, List.all_reverse]

theorem allOfBranches_append (f : GlobPiece → Bool) (bs bs' : List (List GlobPiece)) :
    allOfBranches f (bs ++ bs') = (allOfBranches f bs && allOfBranches f bs') := by
  rw [allOfBranches_eq, allOfBranches_eq, allOfBranches_eq, List.all_append]

/-! ### Matching -/

theorem count_of_mem_afterRun {s r : List UInt8} (h : r ∈ afterRun true s) :
    s.count slash = r.count slash := by
  induction s with
  | nil =>
      rw [List.mem_singleton.1 h]
  | cons b s ih =>
      rw [afterRun, List.mem_cons] at h
      rcases h with rfl | h
      · rfl
      · by_cases hb : b = slash
        · simp only [hb, decide_true, Bool.and_self, if_true, List.not_mem_nil] at h
        · rw [decide_eq_false hb, Bool.and_false, if_neg Bool.false_ne_true] at h
          rw [List.count_cons_of_ne hb, ih h]

mutual

/-- A piece takes up the slashes that it names. -/
theorem count_le_of_mem_rests (p : GlobPiece) (hstars : p.all isStarless = true)
    (hclasses : p.all isExplicit = true) {s r : List UInt8} (h : r ∈ rests true s p) :
    s.count slash ≤ p.slashes + r.count slash := by
  cases p with
  | char c =>
      rw [rests, bytes_eq, mem_afterWord_iff] at h
      rw [h, List.count_append]
      exact Nat.add_le_add_right (Nat.le_of_eq (Text.count_slash_utf8EncodeChar c)) _
  | anyByte =>
      rcases mem_afterByte_iff.1 h with ⟨b, hb, rfl⟩
      have hne : b ≠ slash := by
        rintro rfl
        cases hb
      rw [List.count_cons_of_ne hne]
      exact Nat.le_add_left _ _
  | run =>
      rw [rests] at h
      rw [count_of_mem_afterRun h]
      exact Nat.le_add_left _ _
  | oneOf negated ranges =>
      rcases mem_afterByte_iff.1 h with ⟨b, hb, rfl⟩
      rw [slashes, List.count_cons]
      -- A class that takes up a slash is one that names it, as the classes here do.
      by_cases hslash : b = slash
      · have hnames : (!inClass negated ranges slash || ranges.any namesSlash) = true := hclasses
        rw [hslash] at hb ⊢
        rw [hb, Bool.not_true, Bool.false_or] at hnames
        simp only [hnames, beq_self_eq_true, if_true]
        exact Nat.le_of_eq (Nat.add_comm _ _)
      · rw [beq_eq_false_iff_ne.2 hslash]
        exact Nat.le_add_left _ _
  | oneBranch branches =>
      rw [all, Bool.and_eq_true] at hstars hclasses
      rcases mem_rests_oneBranch.1 h with ⟨-, rfl⟩ | ⟨-, h⟩
      · exact Nat.le_add_left _ _
      · rw [slashes]
        exact count_le_of_mem_restsOfBranches branches hstars.2 hclasses.2 h
  | leading | trailing | between => exact absurd hstars Bool.false_ne_true

theorem count_le_of_mem_restsOfList (ps : List GlobPiece) (hstars : allOfList isStarless ps = true)
    (hclasses : allOfList isExplicit ps = true) {s r : List UInt8}
    (h : r ∈ restsOfList true [s] ps) : s.count slash ≤ slashesOfList ps + r.count slash := by
  cases ps with
  | nil =>
      rw [List.mem_singleton.1 h]
      exact Nat.le_add_left _ _
  | cons p ps =>
      rw [allOfList, Bool.and_eq_true] at hstars hclasses
      rcases mem_restsOfList_cons.1 h with ⟨m, hm, hr⟩
      have hfirst := count_le_of_mem_rests p hstars.1 hclasses.1 hm
      have hrest := count_le_of_mem_restsOfList ps hstars.2 hclasses.2 hr
      rw [slashesOfList]
      omega

theorem count_le_of_mem_restsOfBranches (bs : List (List GlobPiece))
    (hstars : allOfBranches isStarless bs = true) (hclasses : allOfBranches isExplicit bs = true)
    {s r : List UInt8} (h : r ∈ restsOfBranches true s bs) :
    s.count slash ≤ slashesOfBranches bs + r.count slash := by
  cases bs with
  | nil => exact absurd h List.not_mem_nil
  | cons b bs =>
      rw [allOfBranches, Bool.and_eq_true] at hstars hclasses
      rw [slashesOfBranches]
      rcases mem_restsOfBranches_cons.1 h with ⟨-, h⟩ | h
      · have hbranch := count_le_of_mem_restsOfList b hstars.1 hclasses.1 h
        omega
      · have hbranches := count_le_of_mem_restsOfBranches bs hstars.2 hclasses.2 h
        omega

end

end GlobPiece

/-! ### Reading -/

namespace GlobClass

/-- The slashes that a class names: one, if any. -/
def slashes (k : GlobClass) : Nat := if k.ranges.any GlobPiece.namesSlash then 1 else 0

theorem slashes_le_of_any {k k' : GlobClass}
    (h : k'.ranges.any GlobPiece.namesSlash = true → k.ranges.any GlobPiece.namesSlash = true) :
    k'.slashes ≤ k.slashes := by
  rw [slashes, slashes]
  by_cases hany : k'.ranges.any GlobPiece.namesSlash = true
  · exact Nat.le_of_eq ((if_pos hany).trans (if_pos (h hany)).symm)
  · rw [if_neg hany]
    exact Nat.zero_le _

theorem slashes_le_of_add? {k k' : GlobClass} {c : Char} (h : k.add? c = some k') :
    k'.slashes ≤ k.slashes + if c = '/' then 1 else 0 := by
  by_cases hc : c = '/'
  · rw [if_pos hc, slashes]
    split <;> omega
  · rw [if_neg hc]
    refine slashes_le_of_any fun hany => ?_
    have hplain : decide (c = '/') = false := decide_eq_false hc
    rw [add?] at h
    split at h
    · next first last rest hpending hranges =>
        split at h
        · cases h
        · cases h
          -- The range has been named by its first end.
          simp only [hranges, List.any_cons, GlobPiece.namesSlash, hplain, Bool.or_false,
            Bool.or_eq_true] at hany ⊢
          tauto
    · cases h
      simpa only [List.any_cons, GlobPiece.namesSlash, hplain, Bool.or_false,
        Bool.false_or] using hany

/-- A character of a class is named if it is a slash. -/
theorem slashes_le_of_read? {k k' : GlobClass} {c : Char} (h : k.read? c = some (.inl k')) :
    k'.slashes ≤ k.slashes + if c = '/' then 1 else 0 := by
  rw [read?] at h
  split at h
  · cases h
    exact Nat.le_add_right _ _
  · split at h
    · cases h
    · split at h
      · cases h
        exact Nat.le_add_right _ _
      · rcases Option.map_eq_some_iff.1 h with ⟨k'', hadd, heq⟩
        cases heq
        exact slashes_le_of_add? hadd

theorem slashes_of_read? {k : GlobClass} {c : Char} {p : GlobPiece}
    (h : k.read? c = some (.inr p)) :
    p.slashes = k.slashes ∧ p.all GlobPiece.isStarless = true := by
  -- The class is closed by its last character, and by nothing else.
  have hpiece : p = k.piece := by
    rw [read?] at h
    split at h
    · cases h
    · split at h
      · cases h
        rfl
      · split at h
        · cases h
        · rcases Option.map_eq_some_iff.1 h with ⟨k', -, heq⟩
          cases heq
  rw [hpiece]
  refine ⟨?_, rfl⟩
  rw [piece, GlobPiece.slashes, slashes, List.any_reverse]
  cases k.pending <;> rfl

end GlobClass

namespace GlobDraft

open GlobPiece

/-- The lists of pieces of a draft, those outside of braces included. -/
def branches (d : GlobDraft) : List (List GlobPiece) :=
  d.pieces :: d.around.flatMap fun opened => opened.2 :: opened.1

/-- A draft has no two stars and names so many slashes at most. -/
structure Bounded (d : GlobDraft) (n : Nat) : Prop where
  /-- No piece is two stars. -/
  starless : allOfBranches isStarless d.branches = true
  /-- The slashes are few. -/
  slashes : slashesOfBranches d.branches ≤ n

variable {d d' : GlobDraft} {n : Nat}

theorem Bounded.of_le (h : Bounded d n) {m : Nat} (hn : n ≤ m) : Bounded d m :=
  ⟨h.starless, Nat.le_trans h.slashes hn⟩

theorem bounded_empty : Bounded empty 0 := ⟨rfl, Nat.le_refl 0⟩

theorem Bounded.push (h : Bounded d n) {p : GlobPiece} (hp : p.all isStarless = true) :
    Bounded (d.push p) (n + p.slashes) := by
  rcases h with ⟨hstarless, hslashes⟩
  rw [branches] at hstarless hslashes
  constructor
  · show (p.all isStarless && allOfList isStarless d.pieces && _) = true
    rw [hp]
    exact hstarless
  · show p.slashes + slashesOfList d.pieces
      + slashesOfBranches (d.around.flatMap fun opened => opened.2 :: opened.1) ≤ _
    rw [slashesOfBranches] at hslashes
    omega

theorem Bounded.openBrace (h : Bounded d n) : Bounded d.openBrace n := by
  rcases h with ⟨hstarless, hslashes⟩
  refine ⟨hstarless, ?_⟩
  show 0 + slashesOfBranches d.branches ≤ n
  rw [Nat.zero_add]
  exact hslashes

theorem Bounded.comma (h : Bounded d n) : Bounded d.comma n := by
  rcases d with ⟨pieces, _ | ⟨⟨bs, before⟩, around⟩⟩
  · exact h.push rfl
  · rcases h with ⟨hstarless, hslashes⟩
    simp only [branches, List.flatMap_cons, List.cons_append, allOfBranches, slashesOfBranches,
      allOfBranches_append, slashesOfBranches_append, Bool.and_eq_true] at hstarless hslashes
    constructor
    · simp only [GlobDraft.comma, branches, List.flatMap_cons, List.cons_append, allOfBranches,
        allOfBranches_append, allOfList_reverse, allOfList, Bool.and_eq_true, true_and]
      tauto
    · simp only [GlobDraft.comma, branches, List.flatMap_cons, List.cons_append,
        slashesOfBranches, slashesOfBranches_append, slashesOfList_reverse, slashesOfList]
      omega

theorem Bounded.closeBrace (h : Bounded d n) (hd : d.closeBrace? = some d') : Bounded d' n := by
  rcases d with ⟨pieces, _ | ⟨⟨bs, before⟩, around⟩⟩
  · cases hd
  · cases hd
    rcases h with ⟨hstarless, hslashes⟩
    simp only [branches, List.flatMap_cons, List.cons_append, allOfBranches, slashesOfBranches,
      allOfBranches_append, slashesOfBranches_append, Bool.and_eq_true] at hstarless hslashes
    constructor
    · simp only [branches, allOfBranches, allOfList, all, isStarless, allOfBranches_reverse,
        allOfList_reverse, Bool.and_eq_true, true_and]
      tauto
    · simp only [branches, slashesOfBranches, slashesOfList, GlobPiece.slashes,
        slashesOfBranches_reverse, slashesOfList_reverse]
      omega

/-- What is read names no more slashes than the text has. -/
theorem Bounded.read? {here : Option GlobClass} {before : Option Char} {cs : List Char}
    (h : Bounded d n) (hcs : Text.hasWord ['*', '*'] cs = false)
    (hread : Glob.read? here before d cs = some d') :
    Bounded d' (n + (here.elim 0 GlobClass.slashes) + cs.count '/') := by
  have hcount : ∀ (c : Char) (cs : List Char),
      (c :: cs).count '/' = (if c = '/' then 1 else 0) + cs.count '/' := by
    intro c cs
    simp only [List.count_cons, beq_iff_eq, Nat.add_comm]
  -- A character that stands for no slash adds none.
  have hskip : ∀ {m : Nat} {c : Char} {cs : List Char},
      m + cs.count '/' ≤ m + (c :: cs).count '/' := fun {m c cs} =>
    Nat.add_le_add_left List.count_le_count_cons m
  fun_induction Glob.read? here before d cs generalizing n with
  | case1 here before d hhere =>
      rw [← Option.some.inj hread]
      exact h.of_le (by omega)
  | case4 before d c cs k k' hk ih =>
      have hclass := GlobClass.slashes_le_of_read? hk
      refine (ih h (Text.hasWord_tail hcs) hread).of_le ?_
      rw [hcount, Option.elim_some, Option.elim_some]
      omega
  | case5 before d c cs k p hp ih =>
      rcases GlobClass.slashes_of_read? hp with ⟨hslashes, hstarless⟩
      refine (ih (h.push hstarless) (Text.hasWord_tail hcs) hread).of_le ?_
      rw [hslashes]
      exact hskip
  | case6 before d d₁ c cs hstars ih => cases hcs
  | case7 before d d₁ takes cs hnone hstars ih => cases hcs
  | case8 before d cs hstar ih => exact (ih (h.push rfl) (Text.hasWord_tail hcs) hread).of_le hskip
  | case9 before d cs ih => exact (ih (h.push rfl) (Text.hasWord_tail hcs) hread).of_le hskip
  | case10 before d cs ih => exact (ih h (Text.hasWord_tail hcs) hread).of_le hskip
  | case11 before d cs ih => exact (ih h.openBrace (Text.hasWord_tail hcs) hread).of_le hskip
  | case12 before d cs d₁ hclose ih =>
      exact (ih (h.closeBrace hclose) (Text.hasWord_tail hcs) hread).of_le hskip
  | case14 before d cs ih => exact (ih h.comma (Text.hasWord_tail hcs) hread).of_le hskip
  | case16 before d e cs ih =>
      refine (ih (h.push rfl) (Text.hasWord_tail (Text.hasWord_tail hcs)) hread).of_le ?_
      rw [hcount, hcount, GlobPiece.slashes]
      omega
  | case17 before d c cs hstars hstar hany hbracket hopen hclose hcomma hlone hpair ih =>
      refine (ih (h.push rfl) (Text.hasWord_tail hcs) hread).of_le ?_
      rw [hcount, GlobPiece.slashes]
      omega
  | case2 | case3 | case13 | case15 => cases hread

end GlobDraft

namespace Glob

open GlobPiece

/-- All classes of a glob that hold a slash name it. -/
def isExplicit (g : Glob) : Bool := allOfList GlobPiece.isExplicit g.pieces

/-- A text that matches has no more slashes than the pattern, if there are no two stars. -/
theorem count_slash_le_of_accepts {pattern text : String} {g : Glob}
    (hg : parse? pattern = some g) (hstars : Reach.hasTwoStars pattern = false)
    (hclasses : g.isExplicit = true) (h : g.accepts true text = true) :
    text.toList.count '/' ≤ pattern.toList.count '/' := by
  rcases exists_read?_of_parse? hg with ⟨d, hread, haround, hpieces⟩
  have hbounded := GlobDraft.bounded_empty.read? hstars hread
  have hstarless : allOfList isStarless g.pieces = true := by
    have hall := hbounded.starless
    rw [GlobDraft.branches, allOfBranches, Bool.and_eq_true] at hall
    rw [hpieces, allOfList_reverse]
    exact hall.1
  have hslashes : slashesOfList g.pieces ≤ pattern.toList.count '/' := by
    have hfew := hbounded.slashes
    rw [GlobDraft.branches, slashesOfBranches] at hfew
    rw [hpieces, slashesOfList_reverse]
    simp only [Option.elim_none, Nat.zero_add] at hfew
    omega
  have hne : g.pieces ≠ [.leading] := by
    intro hleading
    rw [hleading] at hstarless
    cases hstarless
  -- The whole text is taken up, so nothing of its slashes is left over.
  have hcount := count_le_of_mem_restsOfList g.pieces hstarless hclasses
    (mem_restsOfList_of_accepts hne h)
  rw [Text.encode_eq, slash, Text.count_slash_encode, List.count_nil] at hcount
  omega

end Glob

end UtilityCss
