import UtilityCss.Proofs.Glob.Depth

/-!
# How Globs End

What a text that matches a glob has to end with if the pattern ends in a slash.

A piece takes up the start of a text and leaves the rest, and what it takes up does not depend
on what is left: with more text behind it, it can still take up the same. So a text that matches
ends with what the last piece takes up.

The last piece of a pattern that ends in a slash takes up a slash in the end. Either it is the
slash itself, or it is two stars that the slash belongs to. Two stars may also stand for
nothing, but behind something else they have taken the slash before them, and that one is then
the last. Two stars that start the pattern are different, and alone they match everything.

## Main definitions

* `GlobDraft.IsSettled`: Two stars are the first piece of a draft, or the last one.
* `GlobDraft.EndsInSlash`: The last piece takes up a slash in the end.

## Theorems

* `GlobPiece.mem_rests_append`: What is left is the end, and more text changes nothing.
* `GlobDraft.IsSettled.endsInSlash`: A pattern that ends in a slash is read as one.
* `Glob.endsInSlash_of_accepts`: A pattern that ends in a slash matches what does.
-/

namespace UtilityCss

/-! ### What pieces take up -/

namespace GlobPiece

variable {separated : Bool}

theorem mem_afterRun_append {s r : List UInt8} (h : r ∈ afterRun separated s) :
    r <:+ s ∧ ∀ more, r ++ more ∈ afterRun separated (s ++ more) := by
  have hself : ∀ s : List UInt8, s ∈ afterRun separated s := by
    intro s
    cases s with
    | nil => exact List.mem_cons_self
    | cons b s => exact List.mem_cons_self
  induction s with
  | nil =>
      rw [List.mem_singleton.1 h]
      exact ⟨List.suffix_refl _, fun more => hself more⟩
  | cons b s ih =>
      rw [afterRun, List.mem_cons] at h
      rcases h with rfl | h
      · exact ⟨List.suffix_refl _, fun more => hself _⟩
      -- A run that has to stop at a slash leaves nothing further.
      · by_cases hstop : (separated && decide (b = slash)) = true
        · rw [if_pos hstop] at h
          exact absurd h List.not_mem_nil
        · rw [if_neg hstop] at h
          refine ⟨(ih h).1.trans (List.suffix_cons b s), fun more => ?_⟩
          rw [List.cons_append, afterRun, if_neg hstop]
          exact List.mem_cons_of_mem _ ((ih h).2 more)

theorem mem_afterSlashes_append {s r : List UInt8} (h : r ∈ afterSlashes s) :
    r <:+ s ∧ ∀ more, r ++ more ∈ afterSlashes (s ++ more) := by
  induction s with
  | nil => exact absurd h List.not_mem_nil
  | cons b s ih =>
      rw [afterSlashes] at h
      by_cases hb : b = slash
      · rw [if_pos hb, List.mem_cons] at h
        rcases h with rfl | h
        · refine ⟨List.suffix_cons b r, fun more => ?_⟩
          rw [List.cons_append, afterSlashes, if_pos hb]
          exact List.mem_cons_self
        · refine ⟨(ih h).1.trans (List.suffix_cons b s), fun more => ?_⟩
          rw [List.cons_append, afterSlashes, if_pos hb]
          exact List.mem_cons_of_mem _ ((ih h).2 more)
      · rw [if_neg hb] at h
        refine ⟨(ih h).1.trans (List.suffix_cons b s), fun more => ?_⟩
        rw [List.cons_append, afterSlashes, if_neg hb]
        exact (ih h).2 more

theorem getLast?_of_mem_afterSlashes {s : List UInt8} (h : [] ∈ afterSlashes s) :
    s.getLast? = some slash := by
  induction s with
  | nil => exact absurd h List.not_mem_nil
  | cons b s ih =>
      rw [afterSlashes] at h
      by_cases hb : b = slash
      · rw [if_pos hb, List.mem_cons] at h
        rcases h with rfl | h
        · rw [hb]
          rfl
        · rw [List.getLast?_cons, ih h]
          rfl
      · rw [if_neg hb] at h
        rw [List.getLast?_cons, ih h]
        rfl

/-- What ends with a piece that takes up a slash in the end, ends in a slash. -/
theorem getLast?_of_nil_mem_rests {p : GlobPiece} (hp : p = .char '/' ∨ p = .between)
    {s : List UInt8} (h : [] ∈ rests separated s p) : s.getLast? = some slash := by
  rcases hp with rfl | rfl
  · rw [rests, bytes_eq, mem_afterWord_iff] at h
    rw [h]
    rfl
  · rw [rests] at h
    rcases exists_of_mem_afterSlash h with ⟨s, rfl⟩
    rw [afterSlash, if_pos rfl, List.mem_cons] at h
    rcases h with h | h
    · rw [← h]
      rfl
    · rw [List.getLast?_cons, getLast?_of_mem_afterSlashes h]
      rfl

theorem mem_parts_append {s r : List UInt8} (h : r ∈ s :: afterSlashes s) :
    r <:+ s ∧ ∀ more, r ++ more ∈ (s ++ more) :: afterSlashes (s ++ more) := by
  rcases List.mem_cons.1 h with rfl | h
  · exact ⟨List.suffix_refl _, fun more => List.mem_cons_self⟩
  · rcases mem_afterSlashes_append h with ⟨hsuffix, hmore⟩
    exact ⟨hsuffix, fun more => List.mem_cons_of_mem _ (hmore more)⟩

theorem mem_afterSlash_append {f : List UInt8 → List (List UInt8)} {s r : List UInt8}
    (hf : ∀ {s}, r ∈ f s → r <:+ s ∧ ∀ more, r ++ more ∈ f (s ++ more))
    (h : r ∈ afterSlash f s) :
    r <:+ s ∧ ∀ more, r ++ more ∈ afterSlash f (s ++ more) := by
  rcases exists_of_mem_afterSlash h with ⟨s, rfl⟩
  rw [afterSlash, if_pos rfl] at h
  refine ⟨(hf h).1.trans (List.suffix_cons _ s), fun more => ?_⟩
  rw [List.cons_append, afterSlash, if_pos rfl]
  exact (hf h).2 more

theorem mem_afterByte_append {f : UInt8 → Bool} {s r : List UInt8} (h : r ∈ afterByte f s) :
    r <:+ s ∧ ∀ more, r ++ more ∈ afterByte f (s ++ more) := by
  rcases mem_afterByte_iff.1 h with ⟨b, hb, rfl⟩
  exact ⟨List.suffix_cons b r, fun more => mem_afterByte_iff.2 ⟨b, hb, rfl⟩⟩

mutual

/-- What a piece leaves is the end of the text, and it leaves as much more if there is more. -/
theorem mem_rests_append (p : GlobPiece) {s r : List UInt8} (h : r ∈ rests separated s p) :
    r <:+ s ∧ ∀ more, r ++ more ∈ rests separated (s ++ more) p := by
  cases p with
  | char c =>
      rw [rests, mem_afterWord_iff] at h
      refine ⟨⟨bytes c, h.symm⟩, fun more => ?_⟩
      rw [rests, mem_afterWord_iff, h, List.append_assoc]
  | anyByte | oneOf =>
      rw [rests] at h
      simp only [rests]
      exact mem_afterByte_append h
  | run =>
      rw [rests] at h
      simp only [rests]
      exact mem_afterRun_append h
  | leading =>
      rw [rests] at h
      simp only [rests]
      exact mem_parts_append h
  | trailing =>
      rw [rests] at h
      simp only [rests]
      exact mem_afterSlash_append mem_afterRun_append h
  | between =>
      rw [rests] at h
      simp only [rests]
      exact mem_afterSlash_append mem_parts_append h
  | oneBranch branches =>
      rcases mem_rests_oneBranch.1 h with ⟨hvoid, rfl⟩ | ⟨hvoid, h⟩
      · exact ⟨List.suffix_refl _, fun more => mem_rests_oneBranch.2 (.inl ⟨hvoid, rfl⟩)⟩
      · rcases mem_restsOfBranches_append branches h with ⟨hsuffix, hmore⟩
        exact ⟨hsuffix, fun more => mem_rests_oneBranch.2 (.inr ⟨hvoid, hmore more⟩)⟩

theorem mem_restsOfList_more (ps : List GlobPiece) {s r : List UInt8}
    (h : r ∈ restsOfList separated [s] ps) :
    r <:+ s ∧ ∀ more, r ++ more ∈ restsOfList separated [s ++ more] ps := by
  cases ps with
  | nil =>
      rw [List.mem_singleton.1 h]
      exact ⟨List.suffix_refl _, fun more => List.mem_cons_self⟩
  | cons p ps =>
      rcases mem_restsOfList_cons.1 h with ⟨m, hm, hr⟩
      rcases mem_rests_append p hm with ⟨hfirst, hmore⟩
      rcases mem_restsOfList_more ps hr with ⟨hrest, hmore'⟩
      exact ⟨hrest.trans hfirst, fun more =>
        mem_restsOfList_cons.2 ⟨m ++ more, hmore more, hmore' more⟩⟩

theorem mem_restsOfBranches_append (bs : List (List GlobPiece)) {s r : List UInt8}
    (h : r ∈ restsOfBranches separated s bs) :
    r <:+ s ∧ ∀ more, r ++ more ∈ restsOfBranches separated (s ++ more) bs := by
  cases bs with
  | nil => exact absurd h List.not_mem_nil
  | cons b bs =>
      rcases mem_restsOfBranches_cons.1 h with ⟨hvoid, h⟩ | h
      · rcases mem_restsOfList_more b h with ⟨hsuffix, hmore⟩
        exact ⟨hsuffix, fun more => mem_restsOfBranches_cons.2 (.inl ⟨hvoid, hmore more⟩)⟩
      · rcases mem_restsOfBranches_append bs h with ⟨hsuffix, hmore⟩
        exact ⟨hsuffix, fun more => mem_restsOfBranches_cons.2 (.inr (hmore more))⟩

end

end GlobPiece

/-! ### Reading on -/

namespace GlobDraft

variable {d d' : GlobDraft} {here : Option GlobClass} {cs : List Char}

/-- The last piece takes up a slash in the end, or there is nothing but two stars. -/
def EndsInSlash (d : GlobDraft) : Prop :=
  d.pieces = [.leading] ∨ ∃ p rest, d.pieces = p :: rest ∧ (p = .char '/' ∨ p = .between)

/-- Two stars are the last piece only if they are the first one, too, or the branch or the
    pattern ends behind them. -/
structure IsSettled (here : Option GlobClass) (d : GlobDraft) (cs : List Char) : Prop where
  /-- Two stars at the start. -/
  leading : ∀ rest, d.pieces = .leading :: rest → rest = []
  /-- Two stars at the end. -/
  trailing : ∀ rest, d.pieces = .trailing :: rest → here = none ∧
    ∀ c, cs.head? = some c → c = ',' ∨ c = '}'

theorem isSettled_of_nil (h : d.pieces = []) : IsSettled here d cs := by
  constructor
  · intro rest heq
    rw [h] at heq
    cases heq
  · intro rest heq
    rw [h] at heq
    cases heq

theorem isSettled_of_cons {p : GlobPiece} {rest : List GlobPiece} (h : d.pieces = p :: rest)
    (hleading : p ≠ .leading) (htrailing : p ≠ .trailing) : IsSettled here d cs := by
  constructor
  · intro rest' heq
    rw [h] at heq
    exact absurd (List.cons.inj heq).1 hleading
  · intro rest' heq
    rw [h] at heq
    exact absurd (List.cons.inj heq).1 htrailing

theorem isSettled_closeBrace (h : d.closeBrace? = some d') : IsSettled here d' cs := by
  rcases d with ⟨pieces, _ | ⟨⟨branches, before⟩, around⟩⟩
  · cases h
  · cases h
    exact isSettled_of_cons rfl GlobPiece.noConfusion GlobPiece.noConfusion

theorem isSettled_comma : IsSettled here d.comma cs := by
  rcases d with ⟨pieces, _ | ⟨⟨branches, before⟩, around⟩⟩
  · exact isSettled_of_cons rfl GlobPiece.noConfusion GlobPiece.noConfusion
  · exact isSettled_of_nil rfl

/-- What a draft stays that is not settled by what comes next. -/
theorem IsSettled.of_ne {c : Char} (h : IsSettled none d (c :: cs)) (hcomma : c ≠ ',')
    (hclose : c ≠ '}') {here : Option GlobClass} {cs' : List Char} : IsSettled here d cs' := by
  refine ⟨h.leading, fun rest heq => ?_⟩
  rcases (h.trailing rest heq).2 c rfl with heq | heq
  · exact absurd heq hcomma
  · exact absurd heq hclose

theorem isSettled_stars {p : GlobPiece} (h : IsSettled none d ('*' :: cs)) (hleading : p ≠ .leading)
    {cs' : List Char} (htrailing : p = .trailing → ∀ c, cs'.head? = some c → c = ',' ∨ c = '}') :
    IsSettled none (d.stars p) cs' ∧ (d.pieces ≠ [] → p = .between → EndsInSlash (d.stars p)) := by
  have hsettled : IsSettled none d cs' := h.of_ne (by decide) (by decide)
  rw [stars]
  split
  · next rest heq =>
      exact ⟨hsettled, fun _ _ => .inl (h.leading rest heq ▸ heq)⟩
  · next rest heq =>
      rcases (h.trailing rest heq).2 '*' rfl with heq | heq
      · exact absurd heq (by decide)
      · exact absurd heq (by decide)
  · refine ⟨⟨fun rest heq => absurd (List.cons.inj heq).1 hleading, fun rest heq => ?_⟩,
      fun _ hp => .inr ⟨p, _, rfl, .inr hp⟩⟩
    exact ⟨rfl, htrailing (List.cons.inj heq).1⟩

theorem eq_of_closes {k : GlobClass} {c : Char} {p : GlobPiece} (h : k.read? c = some (.inr p)) :
    c = ']' ∧ p = k.piece := by
  rw [GlobClass.read?] at h
  split at h
  · cases h
  · split at h
    · next hclose =>
        rw [Bool.and_eq_true, decide_eq_true_eq] at hclose
        cases h
        exact ⟨hclose.1, rfl⟩
    · split at h
      · cases h
      · rcases Option.map_eq_some_iff.1 h with ⟨k', -, heq⟩
        cases heq

/-- Two stars that have been read, with the slash behind them if it belongs to them. -/
def Settles (cs : List Char) : GlobDraft × Bool → Prop
  | (d, true) => ∃ cs', cs = '/' :: cs' ∧ IsSettled none d cs' ∧ EndsInSlash d
  | (d, false) => IsSettled none d cs

theorem IsSettled.twoStars (h : IsSettled none d ('*' :: '*' :: cs)) (before : Option Char) :
    Settles cs (d.twoStars before cs.head?) := by
  have hslash : cs.head? = some '/' → ∃ cs', cs = '/' :: cs' := fun hhead =>
    ⟨cs.tail, (List.cons_head?_tail hhead).symm⟩
  -- What two stars become depends on whether pieces stand before them and on what follows:
  -- they lead, they are pushed as runs, or they stand at an end or between slashes.
  have hleading : ∀ cs', d.pieces = [] → IsSettled none (d.push .leading) cs' := fun cs' hnil =>
    ⟨fun rest heq => (List.cons.inj heq).2 ▸ hnil, fun rest heq => by cases heq⟩
  have hruns : Settles cs (d.runs, false) :=
    isSettled_of_cons rfl GlobPiece.noConfusion GlobPiece.noConfusion
  have htrailing : (∀ c, cs.head? = some c → c = ',' ∨ c = '}') →
      Settles cs (d.stars .trailing, false) := fun hend =>
    (isSettled_stars h GlobPiece.noConfusion fun _ => hend).1
  unfold GlobDraft.twoStars
  split
  · next hempty =>
      have hnil := List.isEmpty_iff.1 hempty
      split
      · exact hleading cs hnil
      · next hhead =>
          rcases hslash hhead with ⟨cs', hcs⟩
          exact ⟨cs', hcs, hleading cs' hnil, .inl (congrArg (GlobPiece.leading :: ·) hnil)⟩
      · exact hruns
  · next hempty =>
      have hne : d.pieces ≠ [] := fun hnil => hempty (List.isEmpty_iff.2 hnil)
      split
      · split
        · next hhead =>
            exact htrailing fun c hc => by rw [hhead] at hc; cases hc
        · next hhead =>
            rcases hslash hhead with ⟨cs', hcs⟩
            have hstars : IsSettled none (d.stars .between) cs' ∧
                (d.pieces ≠ [] → GlobPiece.between = .between → EndsInSlash (d.stars .between)) :=
              isSettled_stars h GlobPiece.noConfusion GlobPiece.noConfusion
            exact ⟨cs', hcs, hstars.1, hstars.2 hne rfl⟩
        · next c _ hhead =>
            split
            · next hclose =>
                refine htrailing fun c' hc' => ?_
                rw [hhead, Option.some.injEq] at hc'
                rw [Bool.and_eq_true, Bool.or_eq_true, decide_eq_true_eq, decide_eq_true_eq]
                  at hclose
                exact hc' ▸ hclose.2
            · exact hruns
      · exact hruns

/-- A text that ends in a slash is read as one. -/
theorem IsSettled.endsInSlash {before : Option Char} (h : IsSettled here d cs)
    (hread : Glob.read? here before d cs = some d') (hempty : cs = [] → EndsInSlash d)
    (hlast : ∀ c, cs.getLast? = some c → c = '/') : EndsInSlash d' := by
  have htail : ∀ {c : Char} {cs : List Char}, (∀ c', (c :: cs).getLast? = some c' → c' = '/') →
      ∀ c', cs.getLast? = some c' → c' = '/' := by
    intro c cs hlast c' hc'
    refine hlast c' ?_
    rw [List.getLast?_cons, hc']
    rfl
  -- A character that is no slash is not the last one.
  have hmore : ∀ {c : Char} {cs : List Char} {d : GlobDraft}, c ≠ '/' →
      (∀ c', (c :: cs).getLast? = some c' → c' = '/') → cs = [] → EndsInSlash d := by
    intro c cs d hc hlast hnil
    exact absurd (hlast c (by rw [hnil]; rfl)) hc
  have hpush : ∀ {p : GlobPiece} {here : Option GlobClass} {cs : List Char} {d : GlobDraft},
      p ≠ .leading → p ≠ .trailing → IsSettled here (d.push p) cs := fun hleading htrailing =>
    isSettled_of_cons rfl hleading htrailing
  have hchar : ∀ {c : Char} {cs : List Char} {d : GlobDraft},
      (∀ c', (c :: cs).getLast? = some c' → c' = '/') → cs = [] →
        EndsInSlash (d.push (.char c)) := by
    intro c cs d hlast hnil
    exact .inr ⟨_, _, rfl, .inl (congrArg GlobPiece.char (hlast c (by rw [hnil]; rfl)))⟩
  fun_induction Glob.read? here before d cs with
  | case1 here before d hhere =>
      rw [← Option.some.inj hread]
      exact hempty rfl
  | case4 before d c cs k k' hk ih =>
      refine ih ⟨h.leading, fun rest heq => absurd (h.trailing rest heq).1 (Option.some_ne_none k)⟩
        hread (fun hnil => ?_) (htail hlast)
      rw [hnil] at hread
      cases hread
  | case5 before d c cs k p hp ih =>
      rcases eq_of_closes hp with ⟨rfl, rfl⟩
      exact ih (hpush GlobPiece.noConfusion GlobPiece.noConfusion) hread
        (hmore (by decide) hlast) (htail hlast)
  | case6 before d d₁ c cs hstars ih =>
      have hsettles := h.twoStars before
      rw [hstars] at hread hsettles
      rcases hsettles with ⟨cs', hcs, hsettled, hends⟩
      cases hcs
      exact ih hsettled hread (fun _ => hends) (htail (htail (htail hlast)))
  | case7 before d d₁ takes cs hnone hstars ih =>
      have hsettles := h.twoStars before
      rw [hstars] at hread hsettles
      cases takes with
      | true =>
          rcases hsettles with ⟨cs', rfl, -⟩
          exact absurd rfl (hnone '/' cs' rfl)
      | false =>
          exact ih hsettles hread (hmore (by decide) (htail hlast)) (htail (htail hlast))
  | case8 before d cs hstar ih | case9 before d cs ih =>
      exact ih (hpush GlobPiece.noConfusion GlobPiece.noConfusion) hread
        (hmore (by decide) hlast) (htail hlast)
  | case10 before d cs ih =>
      exact ih (h.of_ne (by decide) (by decide)) hread (hmore (by decide) hlast) (htail hlast)
  | case11 before d cs ih =>
      exact ih (isSettled_of_nil rfl) hread (hmore (by decide) hlast) (htail hlast)
  | case12 before d cs d₁ hclose ih =>
      exact ih (isSettled_closeBrace hclose) hread (hmore (by decide) hlast) (htail hlast)
  | case14 before d cs ih =>
      exact ih isSettled_comma hread (hmore (by decide) hlast) (htail hlast)
  | case16 before d e cs ih =>
      exact ih (hpush GlobPiece.noConfusion GlobPiece.noConfusion) hread (hchar (htail hlast))
        (htail (htail hlast))
  | case17 before d c cs hstars hstar hany hbracket hopen hclose hcomma hlone hpair ih =>
      exact ih (hpush GlobPiece.noConfusion GlobPiece.noConfusion) hread (hchar hlast) (htail hlast)
  | case2 | case3 | case13 | case15 => cases hread

/-- A text that ends in a slash is read to a draft that does. -/
theorem endsInSlash_of_read? (hread : Glob.read? none none empty cs = some d)
    (hlast : cs.getLast? = some '/') : EndsInSlash d := by
  refine (isSettled_of_nil rfl).endsInSlash hread (fun hnil => ?_) fun c hc => ?_
  · rw [hnil] at hlast
    cases hlast
  · rw [hlast] at hc
    exact (Option.some.inj hc).symm

end GlobDraft

/-! ### What a glob matches -/

namespace Glob

/-- What ends in the byte of a slash ends in a slash. -/
theorem endsInSlash_of_bytes {text : String}
    (h : (Text.encode text).getLast? = some GlobPiece.slash) : Path.endsInSlash text = true := by
  rw [Text.encode_eq] at h
  rw [Path.endsInSlash, decide_eq_true_eq]
  rcases List.eq_nil_or_concat text.toList with hnil | ⟨init, c, hconcat⟩
  · rw [hnil] at h
    cases h
  · rw [List.concat_eq_append] at hconcat
    rw [hconcat, List.flatMap_append, List.flatMap_singleton,
      List.getLast?_append_of_ne_nil _ String.utf8EncodeChar_ne_nil] at h
    rw [hconcat, List.getLast?_concat]
    by_contra hc
    exact Text.not_mem_utf8EncodeChar (fun heq => hc (congrArg some heq))
      (List.mem_of_getLast? h)

/-- A pattern that ends in a slash matches what does, unless it matches everything. -/
theorem endsInSlash_of_accepts {pattern text : String} {g : Glob} (hg : parse? pattern = some g)
    (hslash : Path.endsInSlash pattern = true) (hsome : g.isEverything = false)
    (h : g.accepts true text = true) : Path.endsInSlash text = true := by
  rcases exists_read?_of_parse? hg with ⟨d, hread, -, hpieces⟩
  have hends := GlobDraft.endsInSlash_of_read? hread (of_decide_eq_true hslash)
  have hne : g.pieces ≠ [.leading] := by
    intro heq
    rw [show g = ⟨[.leading]⟩ by rw [← heq]] at hsome
    cases hsome
  rcases hends with hleading | ⟨p, rest, hrest, hp⟩
  · rw [hleading] at hpieces
    exact absurd hpieces hne
  · -- The last piece takes up the end of the text, so the text ends as what it takes up.
    have hrests := mem_restsOfList_of_accepts hne h
    rw [hpieces, hrest, List.reverse_cons, GlobPiece.restsOfList_append,
      GlobPiece.mem_restsOfList_iff] at hrests
    rcases hrests with ⟨s, hs, hend⟩
    rcases GlobPiece.mem_restsOfList_cons.1 hend with ⟨m, hm, hnil⟩
    rw [← List.mem_singleton.1 hnil] at hm
    have hlast : s.getLast? = some GlobPiece.slash := GlobPiece.getLast?_of_nil_mem_rests hp hm
    rcases (GlobPiece.mem_restsOfList_more rest.reverse hs).1 with ⟨before, hbytes⟩
    refine endsInSlash_of_bytes ?_
    rw [← hbytes, List.getLast?_append, hlast]
    rfl

end Glob

end UtilityCss
