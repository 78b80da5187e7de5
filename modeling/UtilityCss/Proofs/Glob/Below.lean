import UtilityCss.Discovery
import UtilityCss.Proofs.Glob.End

/-!
# Patterns for a Directory

What a pattern matches that is made of the name of a directory and of extensions.

Such a pattern is not written with care for what the name means. It is put in front of a slash
as it is, so the question is what reading makes of the name there, when all that is known is
what it makes of the name alone. Reading goes from left to right and does not look ahead, with
one exception: two stars look at the character behind them, and a slash there belongs to them.
So behind a text without slashes a slash is read on from what has been read so far
(`read?_append_slash`), unless the text is nothing but two stars, which with the slash become a
piece of their own. That name is dealt with apart, and the pattern matches all the same.

The rest of the pattern is fixed. Extensions have no character with a meaning, so they are read
as they are, one alone and several as the branches of a brace.

For the matching it is enough to show one way in which the text is taken up. The name is taken
up by its own pieces, what lies between is left out by two stars, and the last name is a run, a
dot and one of the extensions.

## Main definitions

* `GlobDraft.LeavesSlash`: A slash behind the name stands alone.
* `Glob.isLetter`: A character that stands for itself everywhere in a pattern.
* `Glob.chars`, `Glob.choice`: The pieces of a text and of one of several texts.

## Theorems

* `read?_append_slash`: A slash behind a name is read on from what has been read.
* `read?_extensionPattern`: What is read of the extensions that a pattern ends in.
* `parse?_here`, `parse?_below_stars`, `parse?_below`: What the patterns are read as.
* `accepts_of_mem_rests`: What a pattern matches that ends in a star, a dot and extensions.
* `exists_accepts_here`: The pattern for the root matches the files in it.
* `exists_accepts_below`: The pattern for a directory matches the files below it, if the name of
  the directory matches itself.
-/

namespace UtilityCss

/-! ### Reading a directory -/

namespace GlobDraft

variable {here : Option GlobClass} {d d' : GlobDraft} {before : Option Char} {cs : List Char}

theorem around_twoStars (d : GlobDraft) (before after : Option Char) :
    (d.twoStars before after).1.around = d.around := by
  have hstars : ∀ p, (d.stars p).around = d.around := by
    intro p
    rw [stars]
    split <;> rfl
  unfold twoStars
  split
  · split <;> rfl
  · split
    · split
      · exact hstars _
      · exact hstars _
      · split
        · exact hstars _
        · rfl
    · rfl

/-- Outside of braces, two stars that do not start a part are two runs. -/
theorem twoStars_eq_runs (hpieces : d.pieces ≠ []) (haround : d.around = [])
    (hbefore : before ≠ some '/') (after : Option Char) :
    d.twoStars before after = (d.runs, false) := by
  have hempty : d.pieces.isEmpty = false := eq_false_of_ne_true fun h =>
    hpieces (List.isEmpty_iff.1 h)
  have hpart : d.startsPart before = false := by
    rw [startsPart, decide_eq_false hbefore, haround]
    rfl
  unfold twoStars
  rw [hempty, hpart, if_neg Bool.false_ne_true, if_neg Bool.false_ne_true]

/-- Only a slash belongs to two stars. -/
theorem after_of_takes {after : Option Char} (h : (d.twoStars before after).2 = true) :
    after = some '/' := by
  unfold twoStars at h
  split at h
  · split at h
    · cases h
    · rfl
    · cases h
  · split at h
    · split at h
      · cases h
      · rfl
      · split at h <;> cases h
    · cases h

theorem twoStars_eq {after : Option Char} (h : after ≠ some '/') :
    d.twoStars before after = ((d.twoStars before after).1, false) :=
  Prod.ext rfl (eq_false_of_ne_true fun htakes => h (after_of_takes htakes))

/-- A slash behind the rest of a name does not belong to two stars in front of it. -/
structure LeavesSlash (here : Option GlobClass) (d : GlobDraft) (cs : List Char) : Prop where
  /-- What has been read is more than two stars. -/
  leading : d.pieces ≠ [.leading]
  /-- If nothing has been read, the rest is more than two stars. -/
  start : here = none → d.pieces = [] → d.around = [] → cs ≠ ['*', '*']

theorem LeavesSlash.of_ne_nil (hne : d.pieces ≠ []) (hleading : d.pieces ≠ [.leading]) :
    LeavesSlash here d cs :=
  ⟨hleading, fun _ hnil => absurd hnil hne⟩

theorem leavesSlash_of_cons {p : GlobPiece} {rest : List GlobPiece} (h : d.pieces = p :: rest)
    (hp : p ≠ .leading) : LeavesSlash here d cs := by
  refine .of_ne_nil ?_ ?_
  · exact h ▸ List.cons_ne_nil p rest
  · exact fun heq => hp (List.cons.inj (h.symm.trans heq)).1

/-- Inside of a class two stars have no meaning. -/
theorem LeavesSlash.within (h : LeavesSlash here d cs) {k : GlobClass} {cs' : List Char} :
    LeavesSlash (some k) d cs' :=
  ⟨h.leading, fun hnone => absurd hnone (Option.some_ne_none k)⟩

theorem leavesSlash_openBrace : LeavesSlash here d.openBrace cs :=
  ⟨(List.cons_ne_nil _ _).symm, fun _ _ hout => absurd hout (List.cons_ne_nil _ _)⟩

theorem leavesSlash_closeBrace (h : d.closeBrace? = some d') : LeavesSlash here d' cs := by
  rcases d with ⟨pieces, _ | ⟨⟨branches, before⟩, around⟩⟩
  · cases h
  · cases h
    exact leavesSlash_of_cons rfl GlobPiece.noConfusion

theorem leavesSlash_comma : LeavesSlash here d.comma cs := by
  rcases d with ⟨pieces, _ | ⟨⟨branches, before⟩, around⟩⟩
  · exact leavesSlash_of_cons rfl GlobPiece.noConfusion
  · exact ⟨(List.cons_ne_nil _ _).symm, fun _ _ hout => absurd hout (List.cons_ne_nil _ _)⟩

/-- Two stars that more than a slash follows are not read as the only piece. -/
theorem LeavesSlash.twoStars (h : LeavesSlash none d ('*' :: '*' :: cs)) (before : Option Char)
    {c : Char} (hc : c ≠ '/') {cs' : List Char} :
    LeavesSlash none (d.twoStars before (some c)).1 cs' := by
  -- Two single stars end in a piece that is not the leading one.
  have hruns : LeavesSlash none d.runs cs' := leavesSlash_of_cons rfl GlobPiece.noConfusion
  unfold GlobDraft.twoStars
  split
  · split
    · next heq => cases heq
    · next heq => exact absurd (Option.some.inj heq) hc
    · exact hruns
  -- Behind other pieces the two stars are pushed as one piece, which cannot be the only
  -- one.
  · next hempty =>
      have hne : d.pieces ≠ [] := fun hnil => hempty (List.isEmpty_iff.2 hnil)
      split
      · split
        · next heq => cases heq
        · next heq => exact absurd (Option.some.inj heq) hc
        · split
          · unfold stars
            split
            · exact .of_ne_nil hne h.leading
            · exact .of_ne_nil hne h.leading
            · exact leavesSlash_of_cons rfl GlobPiece.noConfusion
          · exact hruns
      · exact hruns

end GlobDraft

namespace Glob

theorem read?_star {before : Option Char} {d : GlobDraft} {cs : List Char}
    (h : cs.head? ≠ some '*') :
    read? none before d ('*' :: cs) = read? none (some '*') (d.push .run) cs := by
  rw [read?]
  rintro cs' rfl
  exact h rfl

theorem read?_twoStars {before : Option Char} {d d' : GlobDraft} {cs : List Char}
    (h : d.twoStars before cs.head? = (d', false)) :
    read? none before d ('*' :: '*' :: cs) = read? none (some '*') d' cs := by
  rw [read?]
  case heq => exact h
  exact fun _ _ _ htakes => Bool.false_ne_true htakes

section

variable {before : Option Char} {d d' : GlobDraft}

/-- Two stars that end a name without starting it are runs, with a slash behind them and
    without. -/
theorem read?_twoStars_end (hbefore : before ≠ some '/') (hpieces : d.around = [] → d.pieces ≠ [])
    (hread : read? none before d ['*', '*'] = some d') (haround : d'.around = []) :
    d' = d.runs ∧ ∀ more, read? none before d ('*' :: '*' :: '/' :: more)
      = read? none (some '/') (d.runs.push (.char '/')) more := by
  have hnone : ([] : List Char).head? ≠ some '/' := nofun
  rw [read?_twoStars (GlobDraft.twoStars_eq hnone)] at hread
  have hlast : (d.twoStars before none).1 = d' := Option.some.inj hread
  have hout : d.around = [] := by
    rw [← d.around_twoStars before none, hlast, haround]
  have hruns : ∀ after, d.twoStars before after = (d.runs, false) :=
    GlobDraft.twoStars_eq_runs (hpieces hout) hout hbefore
  refine ⟨?_, fun more => ?_⟩
  · rw [← hlast, hruns]
  · rw [read?_twoStars (hruns _)]
    exact read?_char (d := d.runs) (by decide) (by decide) (by decide) hout more

/-- Two stars in front of another character than a slash are read alone. -/
theorem read?_twoStars_cons (before : Option Char) {c : Char} (hc : c ≠ '/') (cs : List Char) :
    read? none before d ('*' :: '*' :: c :: cs)
      = read? none (some '*') (d.twoStars before (some c)).1 (c :: cs) :=
  read?_twoStars (GlobDraft.twoStars_eq fun hslash => hc (Option.some.inj hslash))

end

/-- A slash behind a text without slashes is read on from what has been read, unless the text is
    nothing but two stars. -/
theorem read?_append_slash {here : Option GlobClass} {before : Option Char} {d d' : GlobDraft}
    {cs : List Char} (hcs : '/' ∉ cs) (hbefore : before ≠ some '/') (h : d.LeavesSlash here cs)
    (hread : read? here before d cs = some d') (haround : d'.around = []) :
    d'.pieces ≠ [.leading] ∧ ∀ more, read? here before d (cs ++ '/' :: more)
      = read? none (some '/') (d'.push (.char '/')) more := by
  have hmore : ∀ {c : Char} {cs : List Char}, '/' ∉ c :: cs → c ≠ '/' ∧ '/' ∉ cs := fun h =>
    ⟨Ne.symm (List.ne_and_not_mem_of_not_mem_cons h).1,
      (List.ne_and_not_mem_of_not_mem_cons h).2⟩
  have hsome : ∀ {c : Char}, c ≠ '/' → some c ≠ some '/' := fun hc heq => hc (Option.some.inj heq)
  have hpush : ∀ {p : GlobPiece} {d : GlobDraft} {cs : List Char}, p ≠ .leading →
      (d.push p).LeavesSlash none cs := fun hp => GlobDraft.leavesSlash_of_cons rfl hp
  -- The induction is on the reading of the name. What carries it is that the pieces are never
  -- the one that two stars at the start become: that piece would take the slash for itself.
  fun_induction read? here before d cs with
  | case1 here before d hhere =>
      cases hread
      rw [Option.isNone_iff_eq_none.1 hhere]
      refine ⟨h.leading, fun more => ?_⟩
      exact read?_char (by decide) (by decide) (by decide) haround more
  | case4 before d c cs k k' hk ih =>
      rcases hmore hcs with ⟨hc, hcs⟩
      rcases ih hcs (hsome hc) h.within hread with ⟨hd', hread'⟩
      refine ⟨hd', fun more => ?_⟩
      rw [List.cons_append, read?, hk]
      exact hread' more
  | case5 before d c cs k p hp ih =>
      rcases hmore hcs with ⟨hc, hcs⟩
      have hclass : p ≠ .leading := by
        rw [(GlobDraft.eq_of_closes hp).2]
        exact GlobPiece.noConfusion
      rcases ih hcs (hsome hc) (hpush hclass) hread with ⟨hd', hread'⟩
      refine ⟨hd', fun more => ?_⟩
      rw [List.cons_append, read?, hp]
      exact hread' more
  | case6 before d d₁ c cs htwo ih =>
      -- The slash behind two stars is not there.
      have hslash := GlobDraft.after_of_takes (congrArg Prod.snd htwo)
      exact absurd (Option.some.inj hslash) (hmore (hmore (hmore hcs).2).2).1
  | case7 before d d₁ takes cs hnone htwo ih =>
      have hrest := (hmore (hmore hcs).2).2
      have hrun : read? none before d ('*' :: '*' :: cs) = some d' := by
        rw [read?.eq_def]
        exact hread
      cases cs with
      | nil =>
          have hpieces : d.around = [] → d.pieces ≠ [] := fun hout hnil =>
            h.start rfl hnil hout rfl
          rcases read?_twoStars_end hbefore hpieces hrun haround with ⟨rfl, hslash⟩
          exact ⟨fun heq => GlobPiece.noConfusion (List.cons.inj heq).1, hslash⟩
      | cons c cs =>
          have hc := (hmore hrest).1
          have hfirst : (d.twoStars before (some c)).1 = d₁ := congrArg Prod.fst htwo
          have hleaves : d₁.LeavesSlash none (c :: cs) := hfirst ▸ h.twoStars before hc
          rw [read?_twoStars_cons before hc, hfirst] at hrun
          rcases ih hrest (by decide) hleaves hrun with ⟨hd', hread'⟩
          refine ⟨hd', fun more => ?_⟩
          rw [← hread' more, ← hfirst]
          exact read?_twoStars_cons before hc _
  | case8 before d cs hstar ih =>
      rcases ih (hmore hcs).2 (by decide) (hpush GlobPiece.noConfusion) hread with ⟨hd', hread'⟩
      refine ⟨hd', fun more => ?_⟩
      rw [← hread' more]
      refine read?_star fun hhead => ?_
      cases cs with
      | nil => exact absurd (Option.some.inj hhead) (by decide)
      | cons e cs => exact hstar cs (congrArg (· :: cs) (Option.some.inj hhead))
  | case9 before d cs ih =>
      exact ih (hmore hcs).2 (by decide) (hpush GlobPiece.noConfusion) hread
  | case10 before d cs ih => exact ih (hmore hcs).2 (by decide) h.within hread
  | case11 before d cs ih =>
      exact ih (hmore hcs).2 (by decide) GlobDraft.leavesSlash_openBrace hread
  | case12 before d cs d₁ hclose ih =>
      rcases ih (hmore hcs).2 (by decide) (GlobDraft.leavesSlash_closeBrace hclose) hread with
        ⟨hd', hread'⟩
      refine ⟨hd', fun more => ?_⟩
      rw [← hread' more, List.cons_append, read?, hclose]
  | case14 before d cs ih =>
      exact ih (hmore hcs).2 (by decide) GlobDraft.leavesSlash_comma hread
  | case16 before d e cs ih =>
      rcases hmore (hmore hcs).2 with ⟨he, hcs⟩
      exact ih hcs (hsome he) (hpush GlobPiece.noConfusion) hread
  | case17 before d c cs htwo hstar hany hbracket hopen hclose hcomma hlone hpair ih =>
      rcases hmore hcs with ⟨hc, hcs⟩
      rcases ih hcs (hsome hc) (hpush GlobPiece.noConfusion) hread with ⟨hd', hread'⟩
      refine ⟨hd', fun more => ?_⟩
      rw [← hread' more, List.cons_append]
      exact read?_self hstar hany hbracket hopen hclose hcomma (ne_backslash hlone hpair) _ _ _
  | case2 | case3 | case13 | case15 => cases hread

/-! ### Reading extensions -/

/-- The character stands for itself everywhere in a pattern. -/
def isLetter (c : Char) : Bool := !(['*', '?', '[', '{', '}', ',', '\\'].contains c)

theorem read?_letter {c : Char} (hc : isLetter c = true) (before : Option Char) (d : GlobDraft)
    (cs : List Char) :
    read? none before d (c :: cs) = read? none (some c) (d.push (.char c)) cs := by
  simp only [isLetter, Bool.not_eq_true', List.contains_eq_mem, decide_eq_false_iff_not,
    List.mem_cons, List.not_mem_nil, or_false, not_or] at hc
  rcases hc with ⟨hstar, hany, hbracket, hopen, hclose, hcomma, hescape⟩
  exact read?_self hstar hany hbracket hopen hclose hcomma hescape before d cs

theorem read?_letters {cs : List Char} (hcs : ∀ c ∈ cs, isLetter c = true) (before : Option Char)
    (d : GlobDraft) : ∃ before', ∀ more,
      read? none before d (cs ++ more) = read? none before' (d.pushAll cs) more := by
  induction cs generalizing before d with
  | nil => exact ⟨before, fun more => rfl⟩
  | cons c cs ih =>
      rcases List.forall_mem_cons.1 hcs with ⟨hc, hcs⟩
      rcases ih hcs (some c) (d.push (.char c)) with ⟨before', hmore⟩
      refine ⟨before', fun more => ?_⟩
      rw [List.cons_append, read?_letter hc, hmore, GlobDraft.pushAll_cons]

/-- The pieces of a text of letters. -/
def chars (text : String) : List GlobPiece := text.toList.map .char

/-- The pieces of one of several texts. -/
def choice : List String → List GlobPiece
  | [text] => chars text
  | texts => [.oneBranch (texts.map chars)]

/-- Texts of letters between braces are branches. -/
theorem read?_branches {texts : List String} (hne : texts ≠ [])
    (h : ∀ text ∈ texts, ∀ c ∈ text.toList, isLetter c = true) (before : Option Char)
    (done : List (List GlobPiece)) (pieces : List GlobPiece)
    (around : List (List (List GlobPiece) × List GlobPiece)) (more : List Char) :
    read? none before ⟨[], (done, pieces) :: around⟩ ((",".intercalate texts).toList ++ '}' :: more)
      = read? none (some '}')
          ⟨.oneBranch (done.reverse ++ texts.map chars) :: pieces, around⟩ more := by
  -- Each text but the last is closed by a comma, which moves it to the branches that are
  -- done.
  induction texts generalizing before done with
  | nil => exact absurd rfl hne
  | cons text texts ih =>
      rcases List.forall_mem_cons.1 h with ⟨htext, htexts⟩
      rcases read?_letters htext before ⟨[], (done, pieces) :: around⟩ with ⟨before', hread⟩
      have hbranch : (((text.toList.map GlobPiece.char).reverse ++ []).reverse :: done).reverse
          = done.reverse ++ [chars text] := by
        rw [List.append_nil, List.reverse_reverse, List.reverse_cons, chars]
      by_cases hlast : texts = []
      · rw [hlast, String.intercalate_singleton, hread, List.map_singleton, ← hbranch]
        rfl
      · have hcomma : (",".intercalate (text :: texts)).toList ++ '}' :: more
            = text.toList ++ ',' :: ((",".intercalate texts).toList ++ '}' :: more) := by
          rw [String.intercalate_cons_of_ne_nil hlast, String.toList_append, String.toList_append,
            List.append_assoc, List.append_assoc]
          rfl
        have hnext := ih hlast htexts (some ',') (chars text :: done)
        rw [List.reverse_cons, List.append_assoc, List.singleton_append] at hnext
        rw [hcomma, hread, List.map_cons, ← hnext]
        show read? none (some ',') ⟨[], (((text.toList.map GlobPiece.char).reverse ++ []).reverse
          :: done, pieces) :: around⟩ _ = _
        rw [List.append_nil, List.reverse_reverse, chars]

/-- What is read of the extensions that a pattern ends in. -/
theorem read?_extensionPattern {texts : List String} (hne : texts ≠ [])
    (h : ∀ text ∈ texts, ∀ c ∈ text.toList, isLetter c = true) (before : Option Char)
    {d : GlobDraft} (haround : d.around = []) :
    read? none before d (Discovery.extensionPattern texts).toList
      = some ⟨(choice texts).reverse ++ d.pieces, []⟩ := by
  rcases d with ⟨pieces, around⟩
  cases haround
  -- One extension stands alone, several stand in braces.
  rcases texts with _ | ⟨text, _ | ⟨next, texts⟩⟩
  · exact absurd rfl hne
  · rcases read?_letters (h text List.mem_cons_self) before ⟨pieces, []⟩ with ⟨before', hread⟩
    have hall := hread []
    rw [List.append_nil] at hall
    exact hall
  · have hbraces : (Discovery.extensionPattern (text :: next :: texts)).toList
        = '{' :: ((",".intercalate (text :: next :: texts)).toList ++ '}' :: []) := by
      rw [Discovery.extensionPattern, String.toList_append, String.toList_append, List.append_assoc]
      · rfl
      · exact fun _ heq => List.cons_ne_nil _ _ (List.cons.inj heq).2
    rw [hbraces]
    exact read?_branches hne h (some '{') [] pieces [] []

/-! ### Patterns for the files of a directory -/

theorem parse?_of_read? {text : String} {pieces : List GlobPiece}
    (h : read? none none GlobDraft.empty text.toList = some ⟨pieces.reverse, []⟩) :
    parse? text = some ⟨pieces⟩ := by
  rw [parse?, h]
  exact congrArg (fun pieces => some (Glob.mk pieces)) pieces.reverse_reverse

section

variable {texts : List String} (hne : texts ≠ [])
  (h : ∀ text ∈ texts, ∀ c ∈ text.toList, isLetter c = true)
include hne h

/-- The pattern for the files in the root. -/
theorem parse?_here :
    parse? ("*." ++ Discovery.extensionPattern texts)
      = some ⟨.run :: .char '.' :: choice texts⟩ := by
  refine parse?_of_read? ?_
  rw [String.toList_append, List.reverse_cons, List.reverse_cons, List.append_assoc]
  exact read?_extensionPattern hne h (some '.') (d := ⟨[.char '.', .run], []⟩) rfl

/-- The pattern for the files below a directory with the name of two stars. -/
theorem parse?_below_stars :
    parse? ("**/**/*." ++ Discovery.extensionPattern texts)
      = some ⟨.leading :: .run :: .char '.' :: choice texts⟩ := by
  refine parse?_of_read? ?_
  rw [String.toList_append, List.reverse_cons, List.reverse_cons, List.reverse_cons,
    List.append_assoc, List.append_assoc]
  exact read?_extensionPattern hne h (some '.') (d := ⟨[.char '.', .run, .leading], []⟩) rfl

/-- The pattern for the files below any other directory. -/
theorem parse?_below {area : String} {g : Glob} (hg : parse? area = some g)
    (hslash : '/' ∉ area.toList) (harea : area ≠ "**") :
    g.pieces ≠ [.leading] ∧ parse? (area ++ "/**/*." ++ Discovery.extensionPattern texts)
      = some ⟨g.pieces ++ .between :: .run :: .char '.' :: choice texts⟩ := by
  rcases exists_read?_of_parse? hg with ⟨d, hread, hout, hpieces⟩
  have hstars : area.toList ≠ ['*', '*'] := fun heq =>
    harea (String.toList_inj.1 heq)
  have hstart : (none : Option Char) ≠ some '/' := (Option.some_ne_none _).symm
  -- The draft is empty, so only an area of two stars could be the leading piece.
  have hleaves : GlobDraft.empty.LeavesSlash none area.toList := ⟨nofun, fun _ _ _ => hstars⟩
  rcases read?_append_slash hslash hstart hleaves hread hout with
    ⟨hleading, hmore⟩
  rw [hpieces]
  refine ⟨fun heq => hleading ?_, parse?_of_read? ?_⟩
  · rw [← List.reverse_reverse d.pieces, heq]
    rfl
  · have htext : (area ++ "/**/*." ++ Discovery.extensionPattern texts).toList
        = area.toList ++ '/' :: ("**/*.".toList ++ (Discovery.extensionPattern texts).toList) := by
      rw [String.toList_append, String.toList_append, List.append_assoc]
      rfl
    rw [htext, hmore]
    simp only [List.reverse_append, List.reverse_reverse, List.reverse_cons, List.append_assoc]
    exact read?_extensionPattern hne h (some '.')
      (d := ⟨.char '.' :: .run :: .between :: d.pieces, d.around⟩) hout

end

end Glob

/-! ### Matching -/

theorem Text.encode_append (s t : String) : encode (s ++ t) = encode s ++ encode t := by
  rw [encode_eq, encode_eq, encode_eq, String.toList_append, List.flatMap_append]

theorem Text.encode_append_slash (s t : String) :
    encode (s ++ "/" ++ t) = encode s ++ GlobPiece.slash :: encode t := by
  have hslash : encode "/" = [GlobPiece.slash] := by
    rw [encode_eq]
    rfl
  rw [encode_append, encode_append, hslash, List.append_assoc, List.singleton_append]

theorem Text.slash_not_mem_encode {s : String} (h : '/' ∉ s.toList) :
    GlobPiece.slash ∉ encode s := by
  rw [← List.count_eq_zero, encode_eq]
  exact (count_slash_encode s.toList).trans (List.count_eq_zero.2 h)

namespace GlobPiece

/-- A run takes up what has no slash. -/
theorem mem_afterRun {s : List UInt8} (h : slash ∉ s) (r : List UInt8) :
    r ∈ afterRun true (s ++ r) := by
  induction s with
  | nil =>
      cases r with
      | nil => exact List.mem_cons_self
      | cons b r => exact List.mem_cons_self
  | cons b s ih =>
      rw [List.mem_cons, not_or] at h
      have hb : (true && decide (b = slash)) = false := by
        rw [Bool.true_and, decide_eq_false (Ne.symm h.1)]
      rw [List.cons_append, afterRun, hb, if_neg Bool.false_ne_true]
      exact List.mem_cons_of_mem _ (ih h.2)

/-- What stands behind a slash can be left. -/
theorem mem_afterSlashes (s r : List UInt8) : r ∈ afterSlashes (s ++ slash :: r) := by
  induction s with
  | nil =>
      rw [List.nil_append, afterSlashes, if_pos rfl]
      exact List.mem_cons_self
  | cons b s ih =>
      rw [List.cons_append, afterSlashes]
      split
      · exact List.mem_cons_of_mem _ ih
      · exact ih

/-- The last name of a path can be left. -/
theorem mem_parts {names : List String} (last : String) :
    Text.encode last ∈ Text.encode ("/".intercalate (names ++ [last]))
      :: afterSlashes (Text.encode ("/".intercalate (names ++ [last]))) := by
  by_cases hne : names = []
  · rw [hne, List.nil_append, String.intercalate_singleton]
    exact List.mem_cons_self
  · rw [String.intercalate_append_of_ne_nil hne (List.cons_ne_nil _ _),
      String.intercalate_singleton, Text.encode_append_slash]
    exact List.mem_cons_of_mem _ (mem_afterSlashes _ _)

theorem mem_restsOfBranches {separated : Bool} {s r : List UInt8} {bs : List (List GlobPiece)}
    {b : List GlobPiece} (hb : b ∈ bs) (hvoid : isVoidList b = false)
    (h : r ∈ restsOfList separated [s] b) : r ∈ restsOfBranches separated s bs := by
  induction bs with
  | nil => exact absurd hb List.not_mem_nil
  | cons first bs ih =>
      rcases List.mem_cons.1 hb with rfl | hb
      · exact mem_restsOfBranches_cons.2 (.inl ⟨hvoid, h⟩)
      · exact mem_restsOfBranches_cons.2 (.inr (ih hb))

theorem areVoid_eq_false {bs : List (List GlobPiece)} {b : List GlobPiece} (hb : b ∈ bs)
    (hvoid : isVoidList b = false) : areVoid bs = false := by
  induction bs with
  | nil => exact absurd hb List.not_mem_nil
  | cons first bs ih =>
      rw [areVoid]
      rcases List.mem_cons.1 hb with rfl | hb
      · rw [hvoid, Bool.false_and]
      · rw [ih hb, Bool.and_false]

/-- Each of the texts is taken up. -/
theorem nil_mem_choice {texts : List String} {text : String} (hmem : text ∈ texts)
    (hne : text ≠ "") : [] ∈ restsOfList true [Text.encode text] (Glob.choice texts) := by
  have hchars : [] ∈ restsOfList true [Text.encode text] (Glob.chars text) := by
    rw [Glob.chars, mem_restsOfList_chars, List.append_nil, Text.encode_eq]
  -- A text that is not empty makes a branch that is not void.
  have hvoid : isVoidList (Glob.chars text) = false := by
    rw [Glob.chars]
    cases hcs : text.toList with
    | nil => exact absurd (String.toList_eq_nil_iff.1 hcs) hne
    | cons c cs => rfl
  have hbranch : Glob.chars text ∈ texts.map Glob.chars := List.mem_map_of_mem hmem
  unfold Glob.choice
  split
  · rw [List.mem_singleton.1 hmem] at hchars ⊢
    exact hchars
  · rw [mem_restsOfList_cons]
    exact ⟨[], mem_rests_oneBranch.2 (.inr ⟨areVoid_eq_false hbranch hvoid,
      mem_restsOfBranches hbranch hvoid hchars⟩), List.mem_cons_self⟩

end GlobPiece

namespace Glob

/-- What a pattern matches that ends in a star, a dot and extensions. -/
theorem accepts_of_mem_rests (pieces : List GlobPiece) {texts : List String}
    {text stem extension : String} (hmem : extension ∈ texts) (hne : extension ≠ "")
    (hstem : '/' ∉ stem.toList)
    (h : Text.encode (stem ++ "." ++ extension)
      ∈ GlobPiece.restsOfList true [Text.encode text] pieces) :
    accepts true ⟨pieces ++ .run :: .char '.' :: choice texts⟩ text = true := by
  rw [accepts, Bool.or_eq_true, List.contains_iff_mem]
  refine .inr ?_
  rw [GlobPiece.restsOfList_append, GlobPiece.mem_restsOfList_iff]
  -- The run takes up what is in front of the dot.
  refine ⟨_, h, GlobPiece.mem_restsOfList_cons.2 ⟨Text.encode ("." ++ extension), ?_, ?_⟩⟩
  · rw [String.append_assoc, Text.encode_append, GlobPiece.rests]
    exact GlobPiece.mem_afterRun (Text.slash_not_mem_encode hstem) _
  · refine GlobPiece.mem_restsOfList_cons.2
      ⟨Text.encode extension, ?_, GlobPiece.nil_mem_choice hmem hne⟩
    rw [Text.encode_append, GlobPiece.rests, GlobPiece.mem_afterWord_iff]
    rfl

section

variable {texts : List String} (hne : texts ≠ [])
  (h : ∀ text ∈ texts, text ≠ "" ∧ ∀ c ∈ text.toList, isLetter c = true)
include hne h

/-- The pattern for the files in the root matches those with one of the extensions. -/
theorem exists_accepts_here : ∃ g, parse? ("*." ++ Discovery.extensionPattern texts) = some g ∧
    ∀ stem, ∀ extension ∈ texts, '/' ∉ stem.toList →
      g.accepts true (stem ++ "." ++ extension) = true := by
  refine ⟨_, parse?_here hne fun text htext => (h text htext).2, ?_⟩
  intro stem extension hmem hstem
  exact accepts_of_mem_rests [] hmem (h extension hmem).1 hstem List.mem_cons_self

/-- The pattern for the files below a directory matches those with one of the extensions, if the
    name of the directory matches itself. -/
theorem exists_accepts_below {area : String} {g : Glob} (hg : parse? area = some g)
    (hself : g.accepts true area = true) (hslash : '/' ∉ area.toList) :
    ∃ g', parse? (area ++ "/**/*." ++ Discovery.extensionPattern texts) = some g' ∧
      ∀ names stem, ∀ extension ∈ texts, '/' ∉ stem.toList →
        g'.accepts true ("/".intercalate (area :: names ++ [stem ++ "." ++ extension])) = true := by
  have hletters : ∀ text ∈ texts, ∀ c ∈ text.toList, isLetter c = true :=
    fun text htext => (h text htext).2
  by_cases harea : area = "**"
  · rw [harea]
    refine ⟨_, parse?_below_stars hne hletters, ?_⟩
    intro names stem extension hmem hstem
    refine accepts_of_mem_rests [.leading] hmem (h extension hmem).1 hstem ?_
    refine GlobPiece.mem_restsOfList_cons.2 ⟨_, ?_, List.mem_cons_self⟩
    exact GlobPiece.mem_parts _
  · rcases parse?_below hne hletters hg hslash harea with ⟨hsome, hparse⟩
    have hpieces : g.pieces ++ .between :: .run :: .char '.' :: choice texts
        = g.pieces ++ [.between] ++ .run :: .char '.' :: choice texts := by
      rw [List.append_assoc]
      rfl
    rw [hpieces] at hparse
    refine ⟨_, hparse, ?_⟩
    intro names stem extension hmem hstem
    refine accepts_of_mem_rests _ hmem (h extension hmem).1 hstem ?_
    rw [GlobPiece.restsOfList_append, GlobPiece.mem_restsOfList_iff]
    -- The name of the directory takes up itself, and the slash and the directories below it lie
    -- between.
    have hrest := (GlobPiece.mem_restsOfList_more g.pieces
      (mem_restsOfList_of_accepts hsome hself)).2
    have hne : names ++ [stem ++ "." ++ extension] ≠ [] :=
      List.append_ne_nil_of_right_ne_nil _ (List.cons_ne_nil _ _)
    rw [List.cons_append, String.intercalate_cons_of_ne_nil hne, Text.encode_append_slash]
    refine ⟨_, hrest _, ?_⟩
    refine GlobPiece.mem_restsOfList_cons.2 ⟨_, ?_, List.mem_cons_self⟩
    rw [List.nil_append, GlobPiece.rests, GlobPiece.afterSlash, if_pos rfl]
    exact GlobPiece.mem_parts _

end

end Glob

end UtilityCss
