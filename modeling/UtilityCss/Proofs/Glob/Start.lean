import UtilityCss.Content.Reach
import UtilityCss.Proofs.Text.Bytes

/-!
# How Globs Start

What a text has to start with to match a glob.

A pattern may name directories before its first wildcard. They are read as characters that
stand for themselves, and whatever is read later is put behind them. There is one exception:
two stars take the place of the slash before them. But what they become takes up a slash first,
so the text still has to start with the directories and a slash.

A backslash in front of a character is not part of what has to be there. This is what the
names in a text can differ by from those in a pattern.

## Main definitions

* `Glob.literal`, `Glob.plain`: What a text without wildcards stands for.
* `GlobDraft.Begins`: A draft starts with some pieces and a slash.

## Theorems

* `Glob.read?_literal`: What is read of a text without wildcards.
* `GlobDraft.Begins.read?`: Reading on does not change how a draft starts.
* `Glob.eq_plain_of_accepts`: A glob without wildcards matches one text.
* `Glob.exists_eq_of_accepts`: A text that matches starts as the pattern does.
-/

namespace UtilityCss

/-! ### Matching -/

namespace GlobPiece

theorem bytes_eq (c : Char) : bytes c = String.utf8EncodeChar c := by
  rw [bytes, Text.encode_eq, String.toList_singleton, List.flatMap_singleton]

theorem mem_afterWord_iff {word s m : List UInt8} : m ∈ afterWord word s ↔ s = word ++ m := by
  induction word generalizing s with
  | nil => rw [afterWord, List.mem_singleton, List.nil_append, eq_comm]
  | cons a word ih =>
      cases s with
      | nil => simp only [afterWord, List.not_mem_nil, List.cons_append, reduceCtorEq]
      | cons b s =>
          rw [afterWord, List.cons_append, List.cons.injEq]
          by_cases hab : a = b
          · rw [if_pos hab, ih, hab, eq_self, true_and]
          · rw [if_neg hab]
            simp only [List.not_mem_nil, false_iff, not_and]
            exact fun heq => absurd heq.symm hab

theorem mem_afterByte_iff {f : UInt8 → Bool} {s r : List UInt8} :
    r ∈ afterByte f s ↔ ∃ b, f b = true ∧ s = b :: r := by
  cases s with
  | nil => simp only [afterByte, List.not_mem_nil, reduceCtorEq, and_false, exists_const]
  | cons b s =>
      rw [afterByte]
      by_cases hb : f b = true
      · rw [if_pos hb, List.mem_singleton]
        constructor
        · rintro rfl
          exact ⟨b, hb, rfl⟩
        · rintro ⟨b', -, heq⟩
          exact (List.cons.inj heq).2.symm
      · rw [if_neg hb]
        refine iff_of_false List.not_mem_nil ?_
        rintro ⟨b', hb', heq⟩
        exact hb ((List.cons.inj heq).1 ▸ hb')

variable {separated : Bool} {ss : List (List UInt8)} {r : List UInt8}

theorem mem_rests_oneBranch {s : List UInt8} {branches : List (List GlobPiece)} :
    r ∈ rests separated s (.oneBranch branches) ↔ (areVoid branches = true ∧ r = s) ∨
      (areVoid branches = false ∧ r ∈ restsOfBranches separated s branches) := by
  rw [rests]
  cases areVoid branches <;>
    simp only [if_true, Bool.false_eq_true, if_false, reduceCtorEq, false_and, true_and, or_false,
      false_or, List.mem_singleton]

theorem mem_restsOfBranches_cons {s : List UInt8} {b : List GlobPiece}
    {bs : List (List GlobPiece)} :
    r ∈ restsOfBranches separated s (b :: bs) ↔
      (isVoidList b = false ∧ r ∈ restsOfList separated [s] b) ∨
        r ∈ restsOfBranches separated s bs := by
  rw [restsOfBranches, List.mem_append]
  cases isVoidList b <;>
    simp only [if_true, Bool.false_eq_true, if_false, reduceCtorEq, false_and, true_and,
      List.not_mem_nil]

theorem mem_restsOfList_iff {ps : List GlobPiece} :
    r ∈ restsOfList separated ss ps ↔ ∃ s ∈ ss, r ∈ restsOfList separated [s] ps := by
  induction ps generalizing ss with
  | nil => simp only [restsOfList, List.mem_singleton, exists_eq_right']
  | cons p ps ih =>
      rw [restsOfList, ih]
      simp only [restsOfList, List.mem_eraseDups, List.mem_flatMap, List.flatMap_singleton]
      constructor
      · rintro ⟨m, ⟨s, hs, hm⟩, hr⟩
        exact ⟨s, hs, ih.2 ⟨m, List.mem_eraseDups.2 hm, hr⟩⟩
      · rintro ⟨s, hs, hr⟩
        rcases ih.1 hr with ⟨m, hm, hr⟩
        exact ⟨m, ⟨s, hs, List.mem_eraseDups.1 hm⟩, hr⟩

theorem mem_restsOfList_cons {s : List UInt8} {p : GlobPiece} {ps : List GlobPiece} :
    r ∈ restsOfList separated [s] (p :: ps) ↔
      ∃ m ∈ rests separated s p, r ∈ restsOfList separated [m] ps := by
  rw [restsOfList, List.flatMap_singleton, mem_restsOfList_iff]
  simp only [List.mem_eraseDups]

theorem restsOfList_append (ps qs : List GlobPiece) :
    restsOfList separated ss (ps ++ qs)
      = restsOfList separated (restsOfList separated ss ps) qs := by
  induction ps generalizing ss with
  | nil => rfl
  | cons p ps ih => rw [List.cons_append, restsOfList, restsOfList, ih]

/-- Characters are taken up if the text starts with their bytes. -/
theorem mem_restsOfList_chars {s : List UInt8} {cs : List Char} :
    r ∈ restsOfList separated [s] (cs.map char) ↔
      s = cs.flatMap String.utf8EncodeChar ++ r := by
  induction cs generalizing s with
  | nil => rw [List.map_nil, restsOfList, List.mem_singleton, List.flatMap_nil, List.nil_append,
      eq_comm]
  | cons c cs ih =>
      rw [List.map_cons, mem_restsOfList_cons, List.flatMap_cons, List.append_assoc]
      simp only [rests, bytes_eq, mem_afterWord_iff, ih]
      constructor
      · rintro ⟨m, hs, hm⟩
        rw [hs, hm]
      · intro hs
        exact ⟨_, hs, rfl⟩

/-- The piece takes up a slash first. -/
def isSlash : GlobPiece → Bool
  | char c => c = '/'
  | trailing => true
  | between => true
  | _ => false

theorem exists_of_mem_afterSlash {f : List UInt8 → List (List UInt8)} {s m : List UInt8}
    (h : m ∈ afterSlash f s) : ∃ s', s = slash :: s' := by
  cases s with
  | nil => exact absurd h List.not_mem_nil
  | cons b s =>
      rw [afterSlash] at h
      by_cases hb : b = slash
      · exact ⟨s, by rw [hb]⟩
      · rw [if_neg hb] at h
        exact absurd h List.not_mem_nil

theorem exists_of_isSlash {p : GlobPiece} (hp : p.isSlash = true) {s m : List UInt8}
    (h : m ∈ rests separated s p) : ∃ s', s = slash :: s' := by
  cases p with
  | char c =>
      rw [of_decide_eq_true hp, rests, bytes_eq, mem_afterWord_iff] at h
      exact ⟨m, h⟩
  | trailing | between =>
      rw [rests] at h
      exact exists_of_mem_afterSlash h
  | anyByte | run | leading | oneOf | oneBranch => exact absurd hp Bool.false_ne_true

end GlobPiece

/-! ### Reading -/

namespace Glob

/-- The characters that a text without wildcards stands for: those that are left when a
    backslash is taken off wherever it takes the meaning of the next one away. -/
def literal : List Char → List Char
  | [] => []
  | ['\\'] => []
  | '\\' :: e :: cs => e :: literal cs
  | c :: cs => c :: literal cs

theorem literal_cons {c : Char} (hc : c ≠ '\\') (cs : List Char) :
    literal (c :: cs) = c :: literal cs := by
  rw [literal]
  · exact fun h _ => hc h
  · exact fun _ _ h _ => hc h

-- A character that no case for backslashes applies to is none.
theorem ne_backslash {c : Char} {cs : List Char} (hlone : c = '\\' → cs = [] → False)
    (hpair : ∀ e cs', c = '\\' → cs = e :: cs' → False) : c ≠ '\\' := by
  rintro rfl
  cases cs with
  | nil => exact hlone rfl rfl
  | cons e cs => exact hpair e cs rfl rfl

theorem literal_append_slash (cs rest : List Char) :
    literal (cs ++ '/' :: rest) = literal cs ++ '/' :: literal rest := by
  fun_induction literal cs with
  | case1 => rfl
  | case2 => rfl
  | case3 e cs ih =>
      show e :: literal (cs ++ '/' :: rest) = _
      rw [ih]
      rfl
  | case4 c cs hlone hpair ih =>
      rw [List.cons_append, literal_cons (ne_backslash hlone hpair), ih, List.cons_append]

theorem length_literal_le (cs : List Char) : (literal cs).length ≤ cs.length := by
  fun_induction literal cs with
  | case1 | case2 => exact Nat.zero_le _
  | case3 e cs ih =>
      rw [List.length_cons, List.length_cons, List.length_cons]
      omega
  | case4 c cs hlone hpair ih => exact Nat.succ_le_succ ih

/-- What stands for itself has no backslash. -/
theorem not_mem_of_literal_eq {cs : List Char} (h : literal cs = cs) : '\\' ∉ cs := by
  fun_induction literal cs with
  | case1 => exact List.not_mem_nil
  | case2 => cases h
  | case3 e cs ih =>
      have hlength := congrArg List.length h
      have hle := length_literal_le cs
      rw [List.length_cons, List.length_cons, List.length_cons] at hlength
      omega
  | case4 c cs hlone hpair ih =>
      rw [List.mem_cons, not_or]
      exact ⟨(ne_backslash hlone hpair).symm, ih (List.cons.inj h).2⟩

theorem literal_of_not_mem {cs : List Char} (h : '\\' ∉ cs) : literal cs = cs := by
  induction cs with
  | nil => rfl
  | cons c cs ih =>
      rw [List.mem_cons, not_or] at h
      rw [literal_cons (Ne.symm h.1), ih h.2]

/-- The text that a text without wildcards stands for. -/
def plain (text : String) : String := String.ofList (literal text.toList)

theorem plain_append (text more : String) :
    plain (text ++ "/" ++ more) = plain text ++ "/" ++ plain more := by
  have hlist : (text ++ "/" ++ more).toList = text.toList ++ '/' :: more.toList := by
    rw [String.toList_append, String.toList_append, List.append_assoc]
    rfl
  rw [plain, hlist, literal_append_slash]
  refine String.toList_inj.1 ?_
  simp only [plain, String.toList_append, String.toList_ofList, List.append_assoc]
  rfl

theorem plain_of_not_mem {text : String} (h : '\\' ∉ text.toList) : plain text = text := by
  rw [plain, literal_of_not_mem h, String.ofList_toList]

/-- Parts that are put together stand for what they stand for one by one. -/
theorem plain_intercalate (parts : List String) :
    plain ("/".intercalate parts) = "/".intercalate (parts.map plain) := by
  induction parts with
  | nil => rfl
  | cons part parts ih =>
      cases parts with
      | nil => rfl
      | cons next parts =>
          rw [String.intercalate_cons_cons, plain_append, ih, List.map_cons, List.map_cons,
            List.map_cons, String.intercalate_cons_cons]

theorem literal_subset (cs : List Char) : literal cs ⊆ cs := by
  fun_induction literal cs with
  | case1 => exact List.Subset.refl _
  | case2 => exact List.nil_subset _
  | case3 e cs ih => exact List.subset_cons_of_subset _ (List.cons_subset_cons e ih)
  | case4 c cs hlone hpair ih => exact List.cons_subset_cons c ih

end Glob

namespace GlobDraft

/-- Characters that stand for themselves added. -/
def pushAll (d : GlobDraft) (cs : List Char) : GlobDraft :=
  { d with pieces := (cs.map GlobPiece.char).reverse ++ d.pieces }

theorem pushAll_cons (d : GlobDraft) (c : Char) (cs : List Char) :
    d.pushAll (c :: cs) = (d.push (.char c)).pushAll cs := by
  rw [pushAll, pushAll, push, List.map_cons, List.reverse_cons, List.append_assoc]
  rfl

end GlobDraft

namespace Glob

/-- A character without a meaning stands for itself. -/
theorem read?_self {c : Char} (hstar : c ≠ '*') (hany : c ≠ '?') (hbracket : c ≠ '[')
    (hopen : c ≠ '{') (hclose : c ≠ '}') (hcomma : c ≠ ',') (hescape : c ≠ '\\')
    (before : Option Char) (d : GlobDraft) (cs : List Char) :
    read? none before d (c :: cs) = read? none (some c) (d.push (.char c)) cs := by
  rw [read?]
  all_goals
    intros
    contradiction

theorem read?_char {c : Char} (hwild : (c = '*' || c = '?' || c = '[' || c = '{') = false)
    (hescape : c ≠ '\\') (hclose : c ≠ '}') {before : Option Char} {d : GlobDraft}
    (haround : d.around = []) (cs : List Char) :
    read? none before d (c :: cs) = read? none (some c) (d.push (.char c)) cs := by
  simp only [Bool.or_eq_false_iff, decide_eq_false_iff_not] at hwild
  rcases hwild with ⟨⟨⟨hstar, hany⟩, hbracket⟩, hopen⟩
  by_cases hcomma : c = ','
  · -- Outside of braces a comma stands for itself, too.
    have hpush : d.comma = d.push (.char ',') := by
      rw [GlobDraft.comma, haround]
    rw [hcomma, ← hpush]
    rfl
  · exact read?_self hstar hany hbracket hopen hclose hcomma hescape before d cs

/-- Without an open brace there is none to close. -/
theorem read?_closes {before : Option Char} {d : GlobDraft} (haround : d.around = [])
    (cs : List Char) : read? none before d ('}' :: cs) = none := by
  have hnone : d.closeBrace? = none := by
    rw [GlobDraft.closeBrace?, haround]
  simp only [read?, hnone]

/-- What is read of a text without wildcards, if it can be read before something. A backslash at
    its end belongs to what follows, so there must be none then. -/
theorem read?_literal {cs more : List Char}
    (hcs : (cs.any fun c => c = '*' || c = '?' || c = '[' || c = '{') = false)
    (hend : more = [] ∨ cs.getLast? ≠ some '\\')
    {before : Option Char} {d d' : GlobDraft} (haround : d.around = [])
    (h : read? none before d (cs ++ more) = some d') :
    ∃ before', ∀ more', read? none before d (cs ++ more')
      = read? none before' (d.pushAll (literal cs)) more' := by
  -- A backslash at the end of what is left is one at the end of the text.
  have hrest : ∀ {c cs}, (more = [] ∨ (c :: cs).getLast? ≠ some '\\') →
      more = [] ∨ cs.getLast? ≠ some '\\' := by
    intro c cs h
    refine h.imp_right fun hlast => ?_
    cases cs with
    | nil => exact nofun
    | cons e cs => exact List.getLast?_cons_cons ▸ hlast
  fun_induction literal cs generalizing before d with
  | case1 => exact ⟨before, fun more' => rfl⟩
  | case2 =>
      rcases hend with rfl | hend
      · cases h
      · exact absurd rfl hend
  | case3 e cs ih =>
      rw [List.any_cons, Bool.or_eq_false_iff, List.any_cons] at hcs
      rw [GlobDraft.pushAll_cons]
      exact ih (Bool.or_eq_false_iff.1 hcs.2).2 (hrest (hrest hend)) haround h
  | case4 c cs hlone hpair ih =>
      rw [List.any_cons, Bool.or_eq_false_iff] at hcs
      -- A closing brace could not be read, as no brace is open.
      have hclose : c ≠ '}' := by
        rintro rfl
        rw [List.cons_append, read?_closes haround] at h
        cases h
      have hchar : ∀ rest, read? none before d (c :: rest)
          = read? none (some c) (d.push (.char c)) rest :=
        read?_char hcs.1 (ne_backslash hlone hpair) hclose haround
      rw [List.cons_append, hchar] at h
      rw [GlobDraft.pushAll_cons]
      rcases ih hcs.2 (hrest hend) (d := d.push (.char c)) haround h with ⟨before', hmore⟩
      refine ⟨before', fun more' => ?_⟩
      rw [List.cons_append, hchar, hmore]

end Glob

/-! ### Reading on -/

namespace GlobDraft

variable {init : List GlobPiece} {d d' : GlobDraft} {p : GlobPiece}

/-- The pieces outside of all braces, last one first. -/
def outer (d : GlobDraft) : List GlobPiece :=
  match d.around.getLast? with
  | none => d.pieces
  | some (_, before) => before

theorem outer_of_around (h : d.around = []) : d.outer = d.pieces := by
  rw [outer, h]
  rfl

/-- The draft starts with some pieces and one that takes up a slash first. -/
def Begins (init : List GlobPiece) (d : GlobDraft) : Prop :=
  ∃ p : GlobPiece, p.isSlash = true ∧ p :: init.reverse <:+ d.outer

theorem Begins.of_suffix (h : Begins init d) (hd : d.outer <:+ d'.outer) : Begins init d' := by
  rcases h with ⟨p, hp, hsuffix⟩
  exact ⟨p, hp, hsuffix.trans hd⟩

theorem Begins.push (h : Begins init d) (p : GlobPiece) : Begins init (d.push p) := by
  refine h.of_suffix ?_
  rcases d with ⟨pieces, _ | ⟨first, around⟩⟩
  · exact List.suffix_cons p pieces
  · exact List.suffix_refl _

theorem Begins.openBrace (h : Begins init d) : Begins init d.openBrace := by
  refine h.of_suffix ?_
  rcases d with ⟨pieces, _ | ⟨first, around⟩⟩
  · exact List.suffix_refl _
  · exact List.suffix_refl _

theorem Begins.comma (h : Begins init d) : Begins init d.comma := by
  rcases d with ⟨pieces, _ | ⟨⟨branches, before⟩, around⟩⟩
  · exact h.push _
  · refine h.of_suffix ?_
    cases around <;> exact List.suffix_refl _

theorem Begins.closeBrace (h : Begins init d) (hd : d.closeBrace? = some d') :
    Begins init d' := by
  refine h.of_suffix ?_
  rcases d with ⟨pieces, _ | ⟨⟨branches, before⟩, around⟩⟩
  · cases hd
  · cases hd
    cases around with
    | nil => exact List.suffix_cons _ _
    | cons => exact List.suffix_refl _

theorem Begins.stars (h : Begins init d) (hp : p.isSlash = true) : Begins init (d.stars p) := by
  have hreplace : Begins init (d.replaceLast p) := by
    rcases d with ⟨pieces, _ | ⟨first, around⟩⟩
    · rcases h with ⟨q, hq, hsuffix⟩
      cases pieces with
      | nil => exact absurd (List.suffix_nil.1 hsuffix) (List.cons_ne_nil _ _)
      | cons last pieces =>
          -- What is replaced is the first slash, or it comes later.
          rcases List.suffix_cons_iff.1 hsuffix with heq | hsuffix
          · refine ⟨p, hp, ?_⟩
            rw [(List.cons.inj heq).2]
            exact List.suffix_refl _
          · exact ⟨q, hq, hsuffix.trans (List.suffix_cons p pieces)⟩
    · exact h.of_suffix (List.suffix_refl _)
  rw [GlobDraft.stars]
  split
  · exact h
  · exact h
  · exact hreplace

theorem Begins.twoStars (h : Begins init d) (before after : Option Char) :
    Begins init (d.twoStars before after).1 := by
  have hleading : Begins init (d.push .leading) := h.push _
  have hruns : Begins init d.runs := (h.push _).push _
  have htrailing : Begins init (d.stars .trailing) := h.stars rfl
  have hbetween : Begins init (d.stars .between) := h.stars rfl
  unfold GlobDraft.twoStars
  repeat' split
  all_goals assumption

/-- Reading on does not change how a draft starts. -/
theorem Begins.read? {here : Option GlobClass} {before : Option Char} {cs : List Char}
    (h : Begins init d) (hread : Glob.read? here before d cs = some d') : Begins init d' := by
  -- Every step pushes a piece, opens, closes or parts a choice, or reads on within a class.
  fun_induction Glob.read? here before d cs with
  | case1 here before d hhere =>
      rw [← Option.some.inj hread]
      exact h
  | case4 before d c cs k k' hk ih => exact ih h hread
  | case5 before d c cs k p hp ih => exact ih (h.push p) hread
  | case6 before d d₁ c cs hstars ih =>
      rw [hstars] at hread
      refine ih ?_ hread
      have hbegins := h.twoStars before (c :: cs).head?
      rw [hstars] at hbegins
      exact hbegins
  | case7 before d d₁ takes cs hnone hstars ih =>
      have hbegins := h.twoStars before cs.head?
      rw [hstars] at hread hbegins
      refine ih hbegins ?_
      rcases takes with _ | _
      · exact hread
      · cases cs with
        | nil => exact hread
        | cons c cs => exact (hnone c cs rfl rfl).elim
  | case8 before d cs hstar ih => exact ih (h.push .run) hread
  | case9 before d cs ih => exact ih (h.push .anyByte) hread
  | case10 before d cs ih => exact ih h hread
  | case11 before d cs ih => exact ih h.openBrace hread
  | case12 before d cs d₁ hclose ih => exact ih (h.closeBrace hclose) hread
  | case14 before d cs ih => exact ih h.comma hread
  | case16 before d e cs ih => exact ih (h.push (.char e)) hread
  | case17 before d c cs hstars hstar hany hbracket hopen hclose hcomma hlone hpair ih =>
      exact ih (h.push (.char c)) hread
  | case2 | case3 | case13 | case15 => cases hread

end GlobDraft

/-! ### What a glob matches -/

namespace Glob

variable {pattern text : String} {g : Glob}

theorem exists_read?_of_parse? (h : parse? pattern = some g) :
    ∃ d, read? none none GlobDraft.empty pattern.toList = some d ∧ d.around = [] ∧
      g.pieces = d.pieces.reverse := by
  rw [parse?] at h
  rcases hread : read? none none GlobDraft.empty pattern.toList with _ | d
  · rw [hread] at h
    cases h
  · rw [hread] at h
    dsimp only at h
    by_cases haround : d.around.isEmpty = true
    · rw [if_pos haround] at h
      cases h
      exact ⟨d, rfl, List.isEmpty_iff.1 haround, rfl⟩
    · rw [if_neg haround] at h
      cases h

theorem mem_restsOfList_of_accepts (hg : g.pieces ≠ [.leading]) (h : g.accepts true text = true) :
    [] ∈ GlobPiece.restsOfList true [Text.encode text] g.pieces := by
  rw [accepts, Bool.or_eq_true] at h
  rcases h with h | h
  · unfold isEverything at h
    split at h
    · exact absurd rfl hg
    · cases h
  · exact List.contains_iff_mem.1 h

/-- A glob without wildcards matches one text. -/
theorem eq_plain_of_accepts (hg : parse? pattern = some g)
    (hwild : Reach.hasWildcard pattern = false) (h : g.accepts true text = true) :
    text = plain pattern := by
  rcases exists_read?_of_parse? hg with ⟨d, hread, -, hpieces⟩
  rw [← List.append_nil pattern.toList] at hread
  rcases read?_literal hwild (.inl rfl) rfl hread with ⟨before, hend⟩
  rw [hend] at hread
  have hchars : g.pieces = (literal pattern.toList).map .char := by
    rw [hpieces, ← Option.some.inj hread, GlobDraft.pushAll, List.reverse_append,
      List.reverse_reverse]
    rfl
  -- Two stars alone would match everything, but every piece is a character.
  have hne : g.pieces ≠ [.leading] := by
    intro hleading
    have hmem : GlobPiece.leading ∈ (literal pattern.toList).map .char := by
      rw [← hchars, hleading]
      exact List.mem_cons_self
    rcases List.mem_map.1 hmem with ⟨c, -, hc⟩
    cases hc
  have hrests := mem_restsOfList_of_accepts hne h
  rw [hchars, GlobPiece.mem_restsOfList_chars, List.append_nil, ← Text.encode_ofList] at hrests
  exact Text.encode_injective hrests

/-- What is read of a text without wildcards, a slash and more starts with the characters of the
    text and a slash. -/
theorem exists_pieces_eq (hg : parse? pattern = some g) {init rest : String}
    (hpattern : pattern = init ++ "/" ++ rest) (hinit : Reach.hasWildcard init = false) :
    ∃ (p : GlobPiece) (more : List GlobPiece), p.isSlash = true ∧
      g.pieces = (literal init.toList).map .char ++ p :: more := by
  rcases exists_read?_of_parse? hg with ⟨d, hread, haround, hpieces⟩
  have hsplit : pattern.toList = (init.toList ++ ['/']) ++ rest.toList := by
    rw [hpattern, String.toList_append, String.toList_append]
    rfl
  have hwild : ((init.toList ++ ['/']).any fun c => c = '*' || c = '?' || c = '[' || c = '{')
      = false := by
    rw [Reach.hasWildcard] at hinit
    rw [List.any_append, hinit]
    rfl
  have hlast : (init.toList ++ ['/']).getLast? ≠ some '\\' := by
    rw [List.getLast?_concat]
    decide
  rw [hsplit] at hread
  rcases read?_literal hwild (.inr hlast) rfl hread with ⟨before, hmore⟩
  rw [hmore, literal_append_slash] at hread
  -- The draft starts so when the slash has been read, and reading on does not change its
  -- start.
  have hbegins : GlobDraft.Begins ((literal init.toList).map .char)
      (GlobDraft.empty.pushAll (literal init.toList ++ '/' :: literal [])) := by
    refine ⟨.char '/', rfl, ?_⟩
    show _ <:+ ((literal init.toList ++ ['/']).map GlobPiece.char).reverse ++ []
    rw [List.append_nil, List.map_append, List.reverse_append]
    exact List.suffix_refl _
  rcases hbegins.read? hread with ⟨p, hp, hsuffix⟩
  rw [GlobDraft.outer_of_around haround] at hsuffix
  rcases hsuffix with ⟨more, hmore⟩
  refine ⟨p, more.reverse, hp, ?_⟩
  rw [hpieces, ← hmore, List.reverse_append, List.reverse_cons, List.reverse_reverse,
    List.append_assoc, List.singleton_append]

/-- A text that matches starts as the pattern does. -/
theorem exists_eq_of_accepts (hg : parse? pattern = some g) {init rest : String}
    (hpattern : pattern = init ++ "/" ++ rest) (hinit : Reach.hasWildcard init = false)
    (h : g.accepts true text = true) : ∃ rest', text = plain init ++ "/" ++ rest' := by
  rcases exists_pieces_eq hg hpattern hinit with ⟨p, more, hp, hstart⟩
  have hne : g.pieces ≠ [.leading] := by
    intro hleading
    have hmem : p ∈ [GlobPiece.leading] := by
      rw [← hleading, hstart]
      exact List.mem_append_right _ List.mem_cons_self
    rw [List.mem_singleton.1 hmem] at hp
    cases hp
  have hrests := mem_restsOfList_of_accepts hne h
  rw [hstart, GlobPiece.restsOfList_append, GlobPiece.mem_restsOfList_iff] at hrests
  rcases hrests with ⟨s, hs, hend⟩
  rcases GlobPiece.mem_restsOfList_cons.1 hend with ⟨m, hm, -⟩
  -- The piece behind the text takes up a slash, so the slash stands behind it in the match.
  rcases GlobPiece.exists_of_isSlash hp hm with ⟨s', rfl⟩
  rw [GlobPiece.mem_restsOfList_chars, Text.encode_eq] at hs
  have hprefix : literal init.toList ++ ['/'] <+: text.toList := by
    refine Text.prefix_of_bytes_prefix ⟨s', ?_⟩
    rw [hs, List.flatMap_append, List.append_assoc]
    rfl
  rcases hprefix with ⟨rest', hrest⟩
  refine ⟨String.ofList rest', String.toList_inj.1 ?_⟩
  simp only [← hrest, plain, String.toList_append, String.toList_ofList]
  rfl

end Glob

end UtilityCss
