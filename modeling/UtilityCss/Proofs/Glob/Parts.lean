import UtilityCss.Proofs.Glob.Below

/-!
# Globs Part by Part

When a glob can be matched one part of a path after another.

A glob is matched against a whole path, and nothing in the pieces says where its parts meet. But
cutting the text of a pattern at its slashes and reading each part as a glob by itself can give
the same answers. Two things must be right for that. The slashes at which the text is cut have to
be slashes of the glob, so that no class and no brace is open there, and no other piece may take
up a slash.

The first is a question about the text alone: a part has to be a glob when the slash behind it is
read with it. Then it is read alike behind whatever has been read before (`read?_onto`), and what
comes later does not change it (`read?_append_of_getLast?`). A backslash at the end of a part is
the one thing that the slash changes. Such a part is no glob without it.

The second is needed for the matching. If the pieces of a part take up no slash, and what is read
next takes up one first, then they take up the first name of a path, the whole of it and nothing
else (`mem_restsOfList_of_isSlash`). Classes at the edges of a part may hold a slash: what they
would take up is a slash next to another one, and no name of a path is empty.

Two stars are left out. They take a slash that belongs to the part before them, so parts can be
taken apart only up to the first one that has them.

## Main definitions

* `GlobPiece.StayInPart`: Pieces that take up no slash in a path.
* `GlobDraft.onto`: A draft behind what has been read before.
* `Glob.IsReadAs`: The pieces of a part, wherever it stands.

## Theorems

* `GlobPiece.mem_restsOfList_of_append`: What pieces take up does not depend on what is left.
* `GlobPiece.StayInPart.mem_restsOfList_of_isSlash`: Pieces in front of a slash take up one name.
* `Glob.read?_onto`: Reading goes on from a draft as from the empty one.
* `Glob.exists_isReadAs`: A part that is a glob with the slash behind it has pieces.
-/

namespace UtilityCss

/-! ### Matching -/

namespace GlobPiece

theorem mem_afterRun_of_append {s m r : List UInt8} (h : m ++ r ∈ afterRun true (s ++ r)) :
    m ∈ afterRun false s := by
  induction s with
  | nil =>
      have hsuffix : m ++ r <:+ r := (mem_afterRun_append h).1
      have hnil : m = [] := List.self_eq_append_left.1 (hsuffix.eq_of_length_le (by simp)).symm
      rw [hnil]
      exact List.mem_cons_self
  | cons b s ih =>
      rw [List.cons_append, afterRun, List.mem_cons] at h
      rw [afterRun, Bool.false_and, if_neg Bool.false_ne_true, List.mem_cons]
      rcases h with h | h
      · exact .inl (List.append_cancel_right h)
      -- The run goes on, so it did not have to stop at a slash.
      · refine .inr (ih ?_)
        by_cases hstop : (true && decide (b = slash)) = true
        · rw [if_pos hstop] at h
          exact absurd h List.not_mem_nil
        · rwa [if_neg hstop] at h

mutual

/-- What a piece takes up of a text it takes up of that alone, also where parts are not
    separated. -/
theorem mem_rests_of_append (p : GlobPiece) (hstars : p.all isStarless = true)
    {s m r : List UInt8} (h : m ++ r ∈ rests true (s ++ r) p) : m ∈ rests false s p := by
  -- A byte that is taken up with parts separated is taken up without.
  have hbyte : ∀ {f f' : UInt8 → Bool}, (∀ b, f b = true → f' b = true) →
      m ++ r ∈ afterByte f (s ++ r) → m ∈ afterByte f' s := by
    intro f f' hf h
    rcases mem_afterByte_iff.1 h with ⟨b, hb, heq⟩
    rw [← List.cons_append] at heq
    exact mem_afterByte_iff.2 ⟨b, hf b hb, List.append_cancel_right heq⟩
  cases p with
  | char c =>
      rw [rests, mem_afterWord_iff, ← List.append_assoc] at h
      rw [rests, mem_afterWord_iff]
      exact List.append_cancel_right h
  | anyByte =>
      rw [rests] at h ⊢
      exact hbyte (fun _ _ => rfl) h
  | oneOf negated ranges =>
      rw [rests] at h ⊢
      exact hbyte (fun _ hb => hb) h
  | run =>
      rw [rests] at h ⊢
      exact mem_afterRun_of_append h
  | oneBranch branches =>
      rw [all, Bool.and_eq_true] at hstars
      rcases mem_rests_oneBranch.1 h with ⟨hvoid, h⟩ | ⟨hvoid, h⟩
      · exact mem_rests_oneBranch.2 (.inl ⟨hvoid, List.append_cancel_right h⟩)
      · exact mem_rests_oneBranch.2
          (.inr ⟨hvoid, mem_restsOfBranches_of_append branches hstars.2 h⟩)
  | leading | trailing | between => exact absurd hstars Bool.false_ne_true

theorem mem_restsOfList_of_append (ps : List GlobPiece) (hstars : allOfList isStarless ps = true)
    {s m r : List UInt8} (h : m ++ r ∈ restsOfList true [s ++ r] ps) :
    m ∈ restsOfList false [s] ps := by
  cases ps with
  | nil =>
      rw [restsOfList, List.mem_singleton] at h ⊢
      exact List.append_cancel_right h
  | cons p ps =>
      rw [allOfList, Bool.and_eq_true] at hstars
      rcases mem_restsOfList_cons.1 h with ⟨left, hleft, hr⟩
      -- What the first piece leaves ends with what all of them leave.
      rcases (mem_restsOfList_more ps hr).1 with ⟨first, rfl⟩
      rw [← List.append_assoc] at hleft hr
      exact mem_restsOfList_cons.2 ⟨first ++ m, mem_rests_of_append p hstars.1 hleft,
        mem_restsOfList_of_append ps hstars.2 hr⟩

theorem mem_restsOfBranches_of_append (bs : List (List GlobPiece))
    (hstars : allOfBranches isStarless bs = true) {s m r : List UInt8}
    (h : m ++ r ∈ restsOfBranches true (s ++ r) bs) : m ∈ restsOfBranches false s bs := by
  cases bs with
  | nil => exact absurd h List.not_mem_nil
  | cons b bs =>
      rw [allOfBranches, Bool.and_eq_true] at hstars
      rcases mem_restsOfBranches_cons.1 h with ⟨hvoid, h⟩ | h
      · exact mem_restsOfBranches_cons.2
          (.inl ⟨hvoid, mem_restsOfList_of_append b hstars.1 h⟩)
      · exact mem_restsOfBranches_cons.2 (.inr (mem_restsOfBranches_of_append bs hstars.2 h))

end

/-- Pieces without a class at their start. -/
def afterClass : List GlobPiece → List GlobPiece
  | .oneOf _ _ :: ps => ps
  | ps => ps

/-- Pieces without a class at their start and one at their end. -/
def inner (ps : List GlobPiece) : List GlobPiece := (afterClass (afterClass ps).reverse).reverse

/-- Pieces that take up no slash in a path: there are no two stars and no slash among them, and no
    class holds a slash, unless it is the first or the last piece. There a class would take up
    the slash of an empty name. -/
structure StayInPart (ps : List GlobPiece) : Prop where
  /-- No piece is two stars. -/
  starless : allOfList isStarless ps = true
  /-- Every slash that a class holds is named. -/
  explicit : allOfList isExplicit (inner ps) = true
  /-- No slash is named. -/
  slashes : slashesOfList ps = 0

variable {ps : List GlobPiece} {s : List UInt8}

/-- No piece, or one class. -/
def IsEdge (ps : List GlobPiece) : Prop := ps = [] ∨ ∃ negated ranges, ps = [.oneOf negated ranges]

theorem IsEdge.reverse_eq (h : IsEdge ps) : ps.reverse = ps := by
  rcases h with rfl | ⟨negated, ranges, rfl⟩ <;> rfl

theorem IsEdge.eq_or_exists (h : IsEdge ps) {left : List UInt8}
    (hleft : left ∈ restsOfList true [s] ps) : s = left ∨ ∃ b, s = b :: left := by
  rcases h with rfl | ⟨negated, ranges, rfl⟩
  · exact .inl (List.mem_singleton.1 hleft).symm
  · rcases mem_restsOfList_cons.1 hleft with ⟨m, hm, hend⟩
    rw [restsOfList, List.mem_singleton] at hend
    rw [rests] at hm
    rcases mem_afterByte_iff.1 hm with ⟨b, -, hs⟩
    exact .inr ⟨b, hend ▸ hs⟩

theorem exists_afterClass (ps : List GlobPiece) :
    ∃ first, IsEdge first ∧ ps = first ++ afterClass ps := by
  unfold afterClass
  split
  · next negated ranges ps => exact ⟨[.oneOf negated ranges], .inr ⟨negated, ranges, rfl⟩, rfl⟩
  · exact ⟨[], .inl rfl, rfl⟩

theorem exists_inner (ps : List GlobPiece) :
    ∃ first last, IsEdge first ∧ IsEdge last ∧ ps = first ++ (inner ps ++ last) := by
  rcases exists_afterClass ps with ⟨first, hfirst, hps⟩
  rcases exists_afterClass (afterClass ps).reverse with ⟨last, hlast, hrest⟩
  refine ⟨first, last, hfirst, hlast, ?_⟩
  have hinner : inner ps ++ last = afterClass ps := by
    rw [inner, ← hlast.reverse_eq, ← List.reverse_append, ← hrest, List.reverse_reverse]
  rw [hinner]
  exact hps

theorem StayInPart.exists_append_inner (h : StayInPart ps) {left : List UInt8}
    (hleft : left ∈ restsOfList true [s] (inner ps)) :
    ∃ before, s = before ++ left ∧ slash ∉ before := by
  rcases (mem_restsOfList_more (inner ps) hleft).1 with ⟨before, rfl⟩
  rcases exists_inner ps with ⟨first, last, -, -, hps⟩
  have hstarless := h.starless
  have hslashes := h.slashes
  rw [hps, allOfList_eq, List.all_append, List.all_append, Bool.and_eq_true, Bool.and_eq_true,
    ← allOfList_eq, ← allOfList_eq] at hstarless
  rw [hps, slashesOfList_append, slashesOfList_append] at hslashes
  have hcount := count_le_of_mem_restsOfList (inner ps) hstarless.2.1 h.explicit hleft
  rw [List.count_append] at hcount
  refine ⟨before, rfl, List.count_eq_zero.1 ?_⟩
  omega

/-- Of a text that does not start with a slash, at most the last byte that is taken up is one. -/
theorem StayInPart.exists_append (h : StayInPart ps) (hs : ∀ s', s ≠ slash :: s')
    {left : List UInt8} (hleft : left ∈ restsOfList true [s] ps) :
    ∃ before, slash ∉ before ∧ (s = before ++ left ∨ s = before ++ slash :: left) := by
  rcases exists_inner ps with ⟨first, last, hfirst, hlast, hps⟩
  rw [hps, restsOfList_append, mem_restsOfList_iff] at hleft
  rcases hleft with ⟨m, hm, hleft⟩
  rw [restsOfList_append, mem_restsOfList_iff] at hleft
  rcases hleft with ⟨m', hm', hleft⟩
  -- Only the first and the last piece may be a class that takes up a slash. The first would
  -- take up the first byte of the text, which is none.
  have hstart : ∃ before, s = before ++ m ∧ slash ∉ before := by
    rcases hfirst.eq_or_exists hm with heq | ⟨b, heq⟩
    · exact ⟨[], heq, List.not_mem_nil⟩
    · refine ⟨[b], heq, fun hb => hs m ?_⟩
      rw [heq, List.mem_singleton.1 hb]
  rcases hstart with ⟨before, rfl, hnone⟩
  rcases h.exists_append_inner hm' with ⟨before', rfl, hnone'⟩
  have hboth : slash ∉ before ++ before' := fun h => (List.mem_append.1 h).elim hnone hnone'
  rw [← List.append_assoc]
  rcases hlast.eq_or_exists hleft with rfl | ⟨b, rfl⟩
  · exact ⟨_, hboth, .inl rfl⟩
  · by_cases hb : b = slash
    · exact ⟨_, hboth, .inr (by rw [hb])⟩
    -- The last byte is no slash either, so none is taken up at all.
    · refine ⟨before ++ before' ++ [b], fun h => ?_, .inl ?_⟩
      · rcases List.mem_append.1 h with h | h
        · exact hboth h
        · exact hb (List.mem_singleton.1 h).symm
      · rw [List.append_assoc _ [b], List.singleton_append]

theorem mem_restsOfList_slash {separated : Bool} {r : List UInt8} :
    r ∈ restsOfList separated [slash :: s] (.char '/' :: ps) ↔
      r ∈ restsOfList separated [s] ps := by
  have hbytes : bytes '/' = [slash] := bytes_eq '/'
  rw [mem_restsOfList_cons]
  simp only [rests, hbytes, mem_afterWord_iff, List.singleton_append, List.cons.injEq, true_and,
    exists_eq_left']

-- A text has one first slash.
theorem eq_of_append_slash {s s' r r' : List UInt8} (hs : slash ∉ s) (hs' : slash ∉ s')
    (h : s ++ slash :: r = s' ++ slash :: r') : s = s' ∧ r = r' := by
  induction s generalizing s' with
  | nil =>
      cases s' with
      | nil => exact ⟨rfl, (List.cons.inj h).2⟩
      | cons b s' => exact absurd (List.mem_cons.2 (.inl (List.cons.inj h).1)) hs'
  | cons b s ih =>
      cases s' with
      | nil => exact absurd (List.mem_cons.2 (.inl (List.cons.inj h).1.symm)) hs
      | cons b' s' =>
          rw [List.mem_cons, not_or] at hs hs'
          rcases List.cons.inj h with ⟨rfl, hrest⟩
          rcases ih hs.2 hs'.2 hrest with ⟨rfl, hr⟩
          exact ⟨rfl, hr⟩

/-- A name and what stands behind it and a slash in a path: neither the name nor the next one is
    empty. -/
structure IsFirstName (name rest : List UInt8) : Prop where
  /-- The name is not empty. -/
  filled : name ≠ []
  /-- It has no slash. -/
  noSlash : slash ∉ name
  /-- Another name follows. -/
  next : ∃ b s, rest = b :: s ∧ b ≠ slash

variable {name rest : List UInt8}

/-- If pieces leave nothing of a path, or what starts with a slash, they take up the first name. -/
theorem StayInPart.left_eq (h : StayInPart ps) (hpath : IsFirstName name rest) {left : List UInt8}
    (hleft : left ∈ restsOfList true [name ++ slash :: rest] ps)
    (hend : left = [] ∨ ∃ s, left = slash :: s) : left = slash :: rest := by
  -- The name is not empty and has no slash.
  have hstart : ∀ s', name ++ slash :: rest ≠ slash :: s' := by
    intro s' heq
    rcases List.exists_cons_of_ne_nil hpath.filled with ⟨b, name', hname⟩
    rw [hname] at heq
    exact hpath.noSlash (hname ▸ List.mem_cons.2 (.inl (List.cons.inj heq).1.symm))
  rcases h.exists_append hstart hleft with ⟨before, hnone, heq | heq⟩
  · rcases hend with rfl | ⟨s, rfl⟩
    · rw [List.append_nil] at heq
      exact absurd (heq ▸ List.mem_append_right name List.mem_cons_self) hnone
    · rw [(eq_of_append_slash hpath.noSlash hnone heq).2]
  · -- A slash that is taken up at the end leaves the next name, which is not empty.
    rcases hpath.next with ⟨b, s, hrest, hb⟩
    rw [← (eq_of_append_slash hpath.noSlash hnone heq).2, hrest] at hend
    rcases hend with hnil | ⟨s', hcons⟩
    · exact absurd hnil (List.cons_ne_nil _ _)
    · exact absurd (List.cons.inj hcons).1 hb

/-- Pieces in front of one that takes up a slash first take up the first name of a path. -/
theorem StayInPart.mem_restsOfList_of_isSlash (h : StayInPart ps) (hpath : IsFirstName name rest)
    {p : GlobPiece} (hp : p.isSlash = true) {qs : List GlobPiece}
    (htaken : [] ∈ restsOfList true [name ++ slash :: rest] (ps ++ p :: qs)) :
    [] ∈ restsOfList false [name] ps ∧ [] ∈ restsOfList true [slash :: rest] (p :: qs) := by
  rw [restsOfList_append, mem_restsOfList_iff] at htaken
  rcases htaken with ⟨left, hleft, hqs⟩
  rcases mem_restsOfList_cons.1 hqs with ⟨m, hm, -⟩
  have hleft' := h.left_eq hpath hleft (.inr (exists_of_isSlash hp hm))
  rw [hleft'] at hleft hqs
  exact ⟨mem_restsOfList_of_append ps h.starless hleft, hqs⟩

/-- No pieces of a part take up more than a name. -/
theorem StayInPart.not_mem (h : StayInPart ps) (hpath : IsFirstName name rest) :
    [] ∉ restsOfList true [name ++ slash :: rest] ps := fun htaken =>
  List.cons_ne_nil slash rest (h.left_eq hpath htaken (.inl rfl)).symm

end GlobPiece

/-! ### Reading behind a draft -/

namespace GlobDraft

/-- Pieces put before the first piece outside of all braces. -/
def under (base : List GlobPiece) :
    List (List (List GlobPiece) × List GlobPiece) → List (List (List GlobPiece) × List GlobPiece)
  | [] => []
  | [opened] => [(opened.1, opened.2 ++ base)]
  | opened :: around => opened :: under base around

/-- The draft behind pieces that have been read before. -/
def onto (base : List GlobPiece) (d : GlobDraft) : GlobDraft :=
  ⟨if d.around.isEmpty then d.pieces ++ base else d.pieces, under base d.around⟩

variable {base : List GlobPiece} {d : GlobDraft}

theorem onto_of_around (h : d.around = []) : d.onto base = ⟨d.pieces ++ base, []⟩ := by
  rw [onto, h]
  rfl

theorem around_onto : (d.onto base).around = [] ↔ d.around = [] := by
  rcases d with ⟨pieces, _ | ⟨opened, _ | ⟨opened', around⟩⟩⟩ <;>
    simp only [onto, under, reduceCtorEq]

theorem push_onto (p : GlobPiece) : (d.onto base).push p = (d.push p).onto base := by
  rcases d with ⟨pieces, _ | ⟨opened, around⟩⟩ <;> rfl

theorem openBrace_onto : (d.onto base).openBrace = d.openBrace.onto base := by
  rcases d with ⟨pieces, _ | ⟨opened, around⟩⟩ <;> rfl

theorem comma_onto : (d.onto base).comma = d.comma.onto base := by
  rcases d with ⟨pieces, _ | ⟨opened, _ | ⟨opened', around⟩⟩⟩ <;> rfl

theorem closeBrace_onto : (d.onto base).closeBrace? = d.closeBrace?.map (onto base) := by
  rcases d with ⟨pieces, _ | ⟨opened, _ | ⟨opened', around⟩⟩⟩ <;> rfl

end GlobDraft

namespace Glob

open GlobDraft

/-- Without two stars, a text is read behind other pieces as it is read alone. -/
theorem read?_onto (base : List GlobPiece) {cs : List Char}
    (hcs : Text.hasWord ['*', '*'] cs = false) (here : Option GlobClass)
    (before before' : Option Char) (d : GlobDraft) :
    read? here before (d.onto base) cs = (read? here before' d cs).map (onto base) := by
  -- Only two stars look at the pieces before them, and the hypothesis leaves none.
  fun_induction read? here before' d cs generalizing before with
  | case1 here before' d hhere => rw [read?, if_pos hhere, Option.map_some]
  | case2 here before' d hhere => rw [read?, if_neg hhere, Option.map_none]
  | case3 before' d c cs k hk => rw [read?, hk, Option.map_none]
  | case4 before' d c cs k k' hk ih =>
      rw [read?, hk]
      exact ih (Text.hasWord_tail hcs) _
  | case5 before' d c cs k p hp ih =>
      rw [read?, hp, ← ih (Text.hasWord_tail hcs), ← push_onto]
  | case6 before' d d₁ c cs hstars ih => cases hcs
  | case7 before' d d₁ takes cs hnone hstars ih => cases hcs
  | case8 before' d cs hstar ih =>
      rw [read?, push_onto, ih (Text.hasWord_tail hcs)]
      exact hstar
  | case9 before' d cs ih => rw [read?, push_onto, ih (Text.hasWord_tail hcs)]
  | case10 before' d cs ih => rw [read?, ih (Text.hasWord_tail hcs)]
  | case11 before' d cs ih => rw [read?, openBrace_onto, ih (Text.hasWord_tail hcs)]
  | case12 before' d cs d₁ hclose ih =>
      rw [read?, closeBrace_onto, hclose]
      exact ih (Text.hasWord_tail hcs) _
  | case13 before' d cs hclose => rw [read?, closeBrace_onto, hclose]; rfl
  | case14 before' d cs ih => rw [read?, comma_onto, ih (Text.hasWord_tail hcs)]
  | case15 before' d => rfl
  | case16 before' d e cs ih =>
      rw [read?, push_onto, ih (Text.hasWord_tail (Text.hasWord_tail hcs))]
  | case17 before' d c cs htwo hstar hany hbracket hopen hclose hcomma hlone hpair ih =>
      rw [← ih (Text.hasWord_tail hcs), ← push_onto]
      exact read?_self hstar hany hbracket hopen hclose hcomma (ne_backslash hlone hpair) _ _ _

/-- What has been read up to a slash does not depend on what comes behind it, if the slash is
    read as one. -/
theorem read?_append_of_getLast? {here : Option GlobClass} {before : Option Char}
    {d d' : GlobDraft} {cs : List Char} (hcs : Text.hasWord ['*', '*'] cs = false)
    (hlast : (before.toList ++ cs).getLast? = some '/') (hread : read? here before d cs = some d')
    (more : List Char) : read? here before d (cs ++ more) = read? none (some '/') d' more := by
  -- The last character stays the last one from step to step, and at the end it is the one
  -- before.
  have htail : ∀ {c e : Char} {cs : List Char} {before : Option Char},
      (before.toList ++ c :: cs).getLast? = some '/' → (c = '/' → e = '/') →
        ((some e).toList ++ cs).getLast? = some '/' := by
    intro c e cs before h he
    cases cs with
    | nil =>
        have hc : c = '/' := by simpa using h
        rw [he hc]
        rfl
    | cons c' cs => simpa using h
  fun_induction read? here before d cs with
  | case1 here before d hhere =>
      rw [← Option.some.inj hread, Option.isNone_iff_eq_none.1 hhere]
      have hbefore : before = some '/' := by
        cases before <;> simp_all
      rw [hbefore, List.nil_append]
  | case4 before d c cs k k' hk ih =>
      rw [List.cons_append, read?, hk]
      exact ih (Text.hasWord_tail hcs) (htail hlast id) hread
  | case5 before d c cs k p hp ih =>
      rw [List.cons_append, read?, hp]
      exact ih (Text.hasWord_tail hcs) (htail hlast id) hread
  | case6 before d d₁ c cs hstars ih => cases hcs
  | case7 before d d₁ takes cs hnone hstars ih => cases hcs
  | case8 before d cs hstar ih =>
      rw [List.cons_append, ← ih (Text.hasWord_tail hcs) (htail hlast id) hread]
      refine read?_star fun hhead => ?_
      cases cs with
      | nil => exact absurd hlast (by simp)
      | cons e cs => exact hstar cs (congrArg (· :: cs) (Option.some.inj hhead))
  | case9 before d cs ih | case10 before d cs ih | case11 before d cs ih | case14 before d cs ih =>
      exact ih (Text.hasWord_tail hcs) (htail hlast id) hread
  | case12 before d cs d₁ hclose ih =>
      rw [List.cons_append, read?, hclose]
      exact ih (Text.hasWord_tail hcs) (htail hlast id) hread
  | case16 before d e cs ih =>
      have hrest : ((none : Option Char).toList ++ e :: cs).getLast? = some '/' := by
        simpa using hlast
      exact ih (Text.hasWord_tail (Text.hasWord_tail hcs)) (htail hrest id) hread
  | case17 before d c cs htwo hstar hany hbracket hopen hclose hcomma hlone hpair ih =>
      rw [← ih (Text.hasWord_tail hcs) (htail hlast id) hread, List.cons_append]
      exact read?_self hstar hany hbracket hopen hclose hcomma (ne_backslash hlone hpair) _ _ _
  | case2 | case3 | case13 | case15 => cases hread

/-! ### The pieces of a part -/

/-- The pieces of a part of a pattern. They are read of it wherever it stands, at the end or in
    front of a slash, and take up no slash. -/
structure IsReadAs (part : String) (ps : List GlobPiece) : Prop where
  /-- The pieces take up no slash. -/
  stay : GlobPiece.StayInPart ps
  /-- What is read of the part at the end. -/
  last : ∀ {before d d'}, d.around = [] → read? none before d part.toList = some d' →
    d'.around = [] → d'.pieces = ps.reverse ++ d.pieces
  /-- What is read of the part and a slash behind it. -/
  inner : ∀ {d}, d.around = [] → ∀ before more, read? none before d (part.toList ++ '/' :: more)
    = read? none (some '/') ⟨.char '/' :: (ps.reverse ++ d.pieces), []⟩ more

theorem IsReadAs.pieces_eq {part : String} {ps : List GlobPiece} (h : IsReadAs part ps) {g : Glob}
    (hg : parse? part = some g) : g.pieces = ps := by
  rcases exists_read?_of_parse? hg with ⟨d, hread, haround, hpieces⟩
  have hlast : d.pieces = ps.reverse ++ [] := h.last rfl hread haround
  rw [hpieces, hlast, List.append_nil, List.reverse_reverse]

theorem hasWord_append_slash {cs : List Char} (h : Text.hasWord ['*', '*'] cs = false) :
    Text.hasWord ['*', '*'] (cs ++ ['/']) = false := by
  induction cs with
  | nil => rfl
  | cons c cs ih =>
      rw [Text.hasWord, Bool.or_eq_false_iff] at h
      rw [List.cons_append, Text.hasWord, Bool.or_eq_false_iff]
      refine ⟨?_, ih h.2⟩
      cases cs with
      | nil =>
          by_cases hc : '*' = c
          · rw [← hc]
            rfl
          · rw [List.nil_append, Text.dropWord?, if_neg hc]
            rfl
      | cons e cs =>
          -- Only the first two characters are looked at.
          have hpair : ∀ cs, (Text.dropWord? ['*', '*'] (c :: e :: cs)).isSome
              = (Text.dropWord? ['*', '*'] [c, e]).isSome := by
            intro cs
            simp only [Text.dropWord?]
            split_ifs <;> rfl
          rw [List.cons_append, hpair, ← hpair cs]
          exact h.1

/-- What is read of a part with the slash behind it ends in the slash, and there is no other. -/
theorem exists_pieces_eq_slash {part : String} (hslash : '/' ∉ part.toList)
    (hstars : Text.hasWord ['*', '*'] (part.toList ++ ['/']) = false) {d : GlobDraft}
    (hread : read? none none GlobDraft.empty (part.toList ++ ['/']) = some d)
    (haround : d.around = []) : ∃ ps, d.pieces = .char '/' :: ps ∧
      GlobPiece.allOfList GlobPiece.isStarless ps = true ∧ GlobPiece.slashesOfList ps = 0 := by
  have hbounded := bounded_empty.read? hstars hread
  rcases hbounded with ⟨hstarless, hslashes⟩
  rw [branches, haround, List.flatMap_nil, GlobPiece.allOfBranches, GlobPiece.allOfBranches,
    Bool.and_true] at hstarless
  rw [branches, haround, List.flatMap_nil, GlobPiece.slashesOfBranches,
    GlobPiece.slashesOfBranches, List.count_append, List.count_eq_zero.2 hslash] at hslashes
  have hends : d.EndsInSlash := endsInSlash_of_read? hread List.getLast?_concat
  -- The slash at the end is the one slash that the bound leaves, so the other pieces have
  -- none.
  rcases hends with hleading | ⟨p, ps, hps, hp⟩
  · rw [hleading] at hstarless
    cases hstarless
  · rcases hp with rfl | rfl
    · rw [hps, GlobPiece.allOfList, Bool.and_eq_true] at hstarless
      rw [hps, GlobPiece.slashesOfList, GlobPiece.slashes, if_pos rfl] at hslashes
      refine ⟨ps, hps, hstarless.2, ?_⟩
      simp only [Option.elim_none, List.count_singleton_self] at hslashes
      omega
    · rw [hps] at hstarless
      cases hstarless

/-- All classes inside of a part that hold a slash name it. The part is read with the slash behind
    it, which is the last piece. -/
def isExplicitInside (g : Glob) : Bool :=
  GlobPiece.allOfList GlobPiece.isExplicit (GlobPiece.inner g.pieces.dropLast)

/-- A part that is a glob with the slash behind it has pieces, if it has no two stars and no class
    inside of it takes up a slash. -/
theorem exists_isReadAs {part : String} (hslash : '/' ∉ part.toList)
    (hstars : Reach.hasTwoStars part = false) {g : Glob} (hg : parse? (part ++ "/") = some g)
    (hexplicit : g.isExplicitInside = true) : ∃ ps, IsReadAs part ps := by
  have hword : Text.hasWord ['*', '*'] (part.toList ++ ['/']) = false :=
    hasWord_append_slash hstars
  rcases exists_read?_of_parse? hg with ⟨d₁, hread, haround, hpieces⟩
  rw [String.toList_append, show ("/" : String).toList = ['/'] from rfl] at hread
  rcases exists_pieces_eq_slash hslash hword hread haround with ⟨ps, hps, hstarless, hslashes⟩
  rw [isExplicitInside, hpieces, hps, List.reverse_cons, List.dropLast_concat] at hexplicit
  have honto : ∀ {d : GlobDraft}, d.around = [] → d = GlobDraft.empty.onto d.pieces := by
    rintro ⟨pieces, around⟩ rfl
    rfl
  refine ⟨ps.reverse, ⟨?_, hexplicit, ?_⟩, ?_, ?_⟩
  · rw [GlobPiece.allOfList_reverse]
    exact hstarless
  · rw [GlobPiece.slashesOfList_reverse]
    exact hslashes
  · intro before d d' hd hpart hd'
    -- With the slash behind it, the part is read as the part and a slash.
    rw [honto hd, read?_onto _ hstars none before none, Option.map_eq_some_iff] at hpart
    rcases hpart with ⟨d₂, hread₂, rfl⟩
    have haround₂ : d₂.around = [] := around_onto.1 hd'
    have htwo : part.toList ≠ ['*', '*'] := by
      intro heq
      rw [Reach.hasTwoStars, heq] at hstars
      cases hstars
    have hleaves : GlobDraft.empty.LeavesSlash none part.toList := ⟨nofun, fun _ _ _ => htwo⟩
    have hmore := (read?_append_slash hslash (Option.some_ne_none _).symm hleaves hread₂
      haround₂).2 []
    rw [hread] at hmore
    have hd₁ : d₁ = d₂.push (.char '/') := Option.some.inj hmore
    rw [hd₁] at hps
    rw [onto_of_around haround₂, List.reverse_reverse, (List.cons.inj hps).2]
  · intro d hd before more
    have hpart : read? none before d (part.toList ++ ['/']) = some (d₁.onto d.pieces) := by
      rw [honto hd, read?_onto _ hword none before none, hread]
      rfl
    have hend := read?_append_of_getLast? hword (by simp) hpart more
    rw [List.append_assoc] at hend
    rw [List.reverse_reverse, ← List.cons_append, ← hps, ← onto_of_around haround]
    exact hend

end Glob

end UtilityCss
