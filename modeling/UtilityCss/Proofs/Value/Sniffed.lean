import UtilityCss.Proofs.Text.Tidy
import UtilityCss.Proofs.Value.Bracketed
import UtilityCss.Proofs.Value.Opposite

/-!
# Kinds of Values

What the kind of a bracketed value says about its text.

The kind is told from the text in lower case: colours and calls by how they start, and of the
rest the numbers by cutting off a sign and everything that is a digit or a point. That the cut
leaves a numeral is known from `exists_numeral_of_parse?`. Here is the other direction: no
numeral is taken for a colour or a call, because they start with a letter or a hash, and the cut
ends where the unit begins, because no unit starts with a digit or a point. So the numbers and
the lengths are the numerals, without a unit and with one.

Nothing that is checked of a value depends on the case of its letters either. The checks ask
which characters there are, where the blanks at the ends are, and which names are called, and
names are looked up in lower case. So a value can be written in another case, and it can be put
between brackets itself, hint or not: it is trimmed already, and has neither an underscore nor
a colon.

## Main definitions

* `letters`: The letters that have two cases.
* `Numeral.lower`: A numeral with its unit in lower case.
* `IsSniffed`: How the kind of a value is told from its text.

## Theorems

* `Text.trimBlank_trimBlank`: Trimming twice is trimming once.
* `apply_toLower`: What is the same for all letters does not depend on their case.
* `callsAllowed_map_toLower`, `isSafe_map_toLower`: The checks do not depend on letter case.
* `cutNumber?_text`, `classify_text`: The kind of a numeral.
* `parse?_of_map_toLower`: Values in another letter case.
* `isSniffed_of_parse?`: The kind of every accepted value.
-/

namespace UtilityCss

namespace Text

theorem cutFirst_eq_none {sep : Char} {cs : List Char} (h : sep ∉ cs) :
    cutFirst sep cs = none := by
  rw [Option.eq_none_iff_forall_ne_some]
  rintro ⟨before, after⟩ hsome
  rw [(eq_of_cutFirst hsome).1] at h
  exact h (List.mem_append_right _ List.mem_cons_self)

/-! ### Trimming -/

theorem trimBlank_eq_self {cs : List Char} (hfirst : ∀ c ∈ cs.head?, isBlank c = false)
    (hlast : ∀ c ∈ cs.getLast?, isBlank c = false) : trimBlank cs = cs := by
  have hback : dropBlank cs.reverse = cs.reverse := by
    refine dropBlank_eq_self fun c hc => hlast c ?_
    rwa [List.head?_reverse] at hc
  rw [trimBlank, dropBlank_eq_self hfirst, hback, List.reverse_reverse]

theorem trimBlank_isPrefix (cs : List Char) : trimBlank cs <+: dropBlank cs := by
  rw [trimBlank, ← List.reverse_suffix, List.reverse_reverse]
  exact List.dropWhile_suffix _

/-- Nothing is left to trim of a trimmed text. -/
theorem trimBlank_trimBlank (cs : List Char) : trimBlank (trimBlank cs) = trimBlank cs := by
  refine trimBlank_eq_self (fun c hc => ?_) (fun c hc => ?_)
  · rcases trimBlank_isPrefix cs with ⟨rest, hrest⟩
    refine head?_dropBlank cs c ?_
    rw [← hrest, List.head?_append, Option.mem_def.1 hc, Option.some_or]
  · rw [trimBlank, List.getLast?_reverse] at hc
    exact head?_dropBlank _ c hc

theorem trimBlank_sublist (cs : List Char) : (trimBlank cs).Sublist cs :=
  (trimBlank_isPrefix cs).sublist.trans (List.dropWhile_sublist _)

theorem trimBlank_map {f : Char → Char} (hf : ∀ c, isBlank (f c) = isBlank c) (cs : List Char) :
    trimBlank (cs.map f) = (trimBlank cs).map f := by
  have hdrop : ∀ ds : List Char, dropBlank (ds.map f) = (dropBlank ds).map f := by
    intro ds
    rw [dropBlank, List.dropWhile_map]
    exact congrArg (fun p => (ds.dropWhile p).map f) (funext hf)
  rw [trimBlank, hdrop, ← List.map_reverse, hdrop, ← List.map_reverse]
  rfl

end Text

namespace ArbitraryValue

/-! ### Letter case -/

/-- The letters, upper case first. -/
def letters : List Char :=
  (List.range 26).map (fun n => Char.ofNat (65 + n)) ++
    (List.range 26).map fun n => Char.ofNat (97 + n)

theorem mem_letters_of_isAlpha {c : Char} (h : c.isAlpha = true) : c ∈ letters := by
  have hmem : ∀ first, first ≤ c.toNat → c.toNat < first + 26 →
      c ∈ (List.range 26).map fun n => Char.ofNat (first + n) := by
    intro first hlo hhi
    refine List.mem_map.2 ⟨c.toNat - first, List.mem_range.2 (by omega), ?_⟩
    rw [Nat.add_sub_cancel' hlo, Char.ofNat_toNat]
  rcases Bool.or_eq_true_iff.1 h with hupper | hlower
  · have hrange : 65 ≤ c.val ∧ c.val ≤ 90 := of_decide_eq_true hupper
    rw [UInt32.le_iff_toNat_le, UInt32.le_iff_toNat_le] at hrange
    have hlo : 65 ≤ c.toNat := hrange.1
    have hhi : c.toNat ≤ 90 := hrange.2
    exact List.mem_append_left _ (hmem 65 hlo (by omega))
  · rcases Bool.and_eq_true_iff.1 hlower with ⟨ha, hz⟩
    have hrange : 97 ≤ c.val ∧ c.val ≤ 122 := ⟨of_decide_eq_true ha, of_decide_eq_true hz⟩
    rw [UInt32.le_iff_toNat_le, UInt32.le_iff_toNat_le] at hrange
    have hlo : 97 ≤ c.toNat := hrange.1
    have hhi : c.toNat ≤ 122 := hrange.2
    exact List.mem_append_right _ (hmem 97 hlo (by omega))

/-- What is the same for all letters does not depend on their case. -/
theorem apply_toLower {α : Type} [DecidableEq α] {p : Char → α} {a : α}
    (h : (letters.all fun c => p c = a) = true) (c : Char) : p c.toLower = p c := by
  have hletters : ∀ d ∈ letters, p d = a := fun d hd =>
    of_decide_eq_true (List.all_eq_true.1 h d hd)
  rcases toLower_eq_self_or c with hself | ⟨halpha, hlower⟩
  · rw [hself]
  · have hletter : c.toLower.isAlpha = true := Bool.or_eq_true_iff.2 (Or.inr hlower)
    rw [hletters c (mem_letters_of_isAlpha halpha), hletters _ (mem_letters_of_isAlpha hletter)]

theorem isAllowed_toLower (c : Char) : isAllowed c.toLower = isAllowed c :=
  apply_toLower (a := true) (by decide) c

theorem isNameChar_toLower (c : Char) : isNameChar c.toLower = isNameChar c :=
  apply_toLower (a := true) (by decide) c

theorem isBlank_toLower (c : Char) : Text.isBlank c.toLower = Text.isBlank c :=
  apply_toLower (a := false) (by decide) c

theorem utf8Size_toLower (c : Char) : c.toLower.utf8Size = c.utf8Size :=
  apply_toLower (a := 1) (by decide) c

theorem toLower_toLower (c : Char) : c.toLower.toLower = c.toLower := by
  rcases toLower_eq_self_or c with hself | ⟨halpha, -⟩
  · rw [hself, hself]
  · have hletters : (letters.all fun d => d.toLower.toLower = d.toLower) = true := by decide
    exact of_decide_eq_true (List.all_eq_true.1 hletters c (mem_letters_of_isAlpha halpha))

theorem map_toLower_map_toLower (cs : List Char) :
    (cs.map Char.toLower).map Char.toLower = cs.map Char.toLower := by
  rw [List.map_map]
  exact List.map_congr_left fun c _ => toLower_toLower c

theorem toLower_eq_iff {c d : Char} (hd : d ∉ letters) : c.toLower = d ↔ c = d := by
  have hnot : ∀ {e : Char}, e.isAlpha = true → e ≠ d := fun he h =>
    hd (h ▸ mem_letters_of_isAlpha he)
  rcases toLower_eq_self_or c with hself | ⟨halpha, hlower⟩
  · rw [hself]
  · exact iff_of_false (hnot (Bool.or_eq_true_iff.2 (Or.inr hlower))) (hnot halpha)

theorem calledName_map_toLower (run : List Char) :
    calledName (run.map Char.toLower) = (calledName run).map Char.toLower := by
  have hlead : ∀ c : Char, ['-', '+', '*', '/', ' '].contains c.toLower =
      ['-', '+', '*', '/', ' '].contains c :=
    apply_toLower (a := false) (by decide)
  rw [calledName, List.dropWhile_map]
  exact congrArg (fun p => (run.dropWhile p).map Char.toLower) (funext hlead)

theorem isCallable_map_toLower (name : List Char) :
    isCallable (name.map Char.toLower) = isCallable name := by
  rw [isCallable, isCallable, map_toLower_map_toLower, List.isEmpty_map]

/-- The check of calls does not depend on letter case. -/
theorem callsAllowed_map_toLower (depth : Nat) (run cs : List Char) :
    callsAllowed depth (run.map Char.toLower) (cs.map Char.toLower) =
      callsAllowed depth run cs := by
  induction cs generalizing depth run with
  | nil => rfl
  | cons c cs ih =>
      simp only [List.map_cons, callsAllowed]
      -- No letter is a bracket, in whatever case, and names are compared in lower case.
      by_cases hopens : c = '('
      · simp only [if_pos hopens, if_pos ((toLower_eq_iff (by decide)).2 hopens)]
        rw [← List.map_reverse, calledName_map_toLower, isCallable_map_toLower]
        exact congrArg _ (ih (depth + 1) [])
      · simp only [if_neg hopens, if_neg (mt (toLower_eq_iff (by decide)).1 hopens)]
        by_cases hcloses : c = ')'
        · simp only [if_pos hcloses, if_pos ((toLower_eq_iff (by decide)).2 hcloses)]
          cases depth with
          | zero => rfl
          | succ depth => exact ih depth []
        · simp only [if_neg hcloses, if_neg (mt (toLower_eq_iff (by decide)).1 hcloses),
            isNameChar_toLower]
          by_cases hname : isNameChar c = true
          · rw [if_pos hname, if_pos hname]
            exact ih depth (c :: run)
          · rw [if_neg hname, if_neg hname]
            exact ih depth []

theorem utf8ByteSize_map_toLower (cs : List Char) :
    (String.ofList (cs.map Char.toLower)).utf8ByteSize = (String.ofList cs).utf8ByteSize := by
  induction cs with
  | nil => rfl
  | cons c cs ih =>
      rw [List.map_cons, String.ofList_cons, String.ofList_cons, String.utf8ByteSize_append,
        String.utf8ByteSize_append, String.utf8ByteSize_singleton, String.utf8ByteSize_singleton,
        utf8Size_toLower, ih]

theorem isSafe_map_toLower (cs : List Char) : isSafe (cs.map Char.toLower) = isSafe cs := by
  have hallowed : (cs.map Char.toLower).all isAllowed = cs.all isAllowed := by
    rw [List.all_map]
    exact congrArg cs.all (funext isAllowed_toLower)
  have hcalls := callsAllowed_map_toLower 0 [] cs
  rw [isSafe, isSafe, List.isEmpty_map, utf8ByteSize_map_toLower, hallowed]
  exact congrArg _ hcalls

/-! ### Numerals -/

-- Characters of one kind are cut off where they end.
theorem span_append {p : Char → Bool} {front back : List Char} (hfront : ∀ c ∈ front, p c = true)
    (hback : ∀ c ∈ back.head?, p c = false) :
    (front ++ back).takeWhile p = front ∧ (front ++ back).dropWhile p = back := by
  have hnone : back.takeWhile p = [] ∧ back.dropWhile p = back := by
    cases back with
    | nil => exact ⟨rfl, rfl⟩
    | cons c back =>
        have hc : ¬ p c = true := Bool.eq_false_iff.1 (hback c rfl)
        exact ⟨List.takeWhile_cons_of_neg hc, List.dropWhile_cons_of_neg hc⟩
  rw [List.takeWhile_append_of_pos hfront, List.dropWhile_append_of_pos hfront, hnone.1, hnone.2,
    List.append_nil]
  exact ⟨rfl, rfl⟩

theorem isSome_readUnsigned?_point {whole : List Char} {fraction : Option (List Char)}
    (hdigits : ∀ c ∈ whole ++ fraction.getD [], c.isDigit = true)
    (hne : whole ++ fraction.getD [] ≠ []) :
    (Decimal.readUnsigned? (Numeral.point whole fraction)).isSome = true := by
  have hwhole : ∀ c ∈ whole, c.isDigit = true := fun c hc =>
    hdigits c (List.mem_append_left _ hc)
  unfold Decimal.readUnsigned?
  -- Reading stops at the point if there is one, and at the end if there is none.
  cases fraction with
  | none =>
      have hcut := @span_append Char.isDigit _ [] hwhole fun c hc => by cases hc
      rw [Option.getD_none, List.append_nil] at hne
      rw [List.append_nil] at hcut
      simp [Numeral.point, hcut, hne]
  | some fraction =>
      have hfraction : ∀ c ∈ fraction, c.isDigit = true := fun c hc =>
        hdigits c (List.mem_append_right _ hc)
      have hcut := @span_append Char.isDigit _ ('.' :: fraction) hwhole fun c hc => by
        rw [← Option.some.inj hc]
        decide
      have hend := @span_append Char.isDigit _ [] hfraction fun c hc => by cases hc
      rw [List.append_nil] at hend
      have hsome : ¬ (whole.isEmpty && fraction.isEmpty) = true := by
        rw [Bool.and_eq_true, List.isEmpty_iff, List.isEmpty_iff]
        exact fun h => hne (List.append_eq_nil_iff.2 h)
      simp only [Numeral.point, hcut, hend, if_neg hsome]
      rfl

/-- Figures are read as a double. -/
theorem isSome_readDouble?_figures (n : Numeral) :
    (Decimal.readDouble? n.figures).isSome = true := by
  have hread : (Decimal.readMagnitude? n.figures).isSome = true := by
    rcases Option.isSome_iff_exists.1 (isSome_readUnsigned?_point n.isDigit_digits n.digits_ne_nil)
      with ⟨d, hd⟩
    rw [Decimal.readMagnitude?, Numeral.figures, hd]
    rfl
  unfold Decimal.readDouble?
  split
  · next rest hfigures =>
      exact absurd (n.of_mem_figures (c := '-') (hfigures ▸ List.mem_cons_self)) (by decide)
  · next rest hfigures =>
      exact absurd (n.of_mem_figures (c := '+') (hfigures ▸ List.mem_cons_self)) (by decide)
  · rw [Option.isSome_map]
    exact hread

-- Without its sign a numeral starts with a digit or the point.
theorem head_figures {n : Numeral} {c : Char} {rest back : List Char}
    (h : n.figures ++ back = c :: rest) : c.isDigit = true ∨ c = '.' := by
  rcases hfigures : n.figures with _ | ⟨d, figures⟩
  · exact absurd hfigures n.figures_ne_nil
  · rw [hfigures, List.cons_append, List.cons.injEq] at h
    rw [← h.1]
    exact Numeral.of_mem_figures (hfigures ▸ List.mem_cons_self)

/-- The number is cut off a numeral in front of its unit. -/
theorem cutNumber?_text (n : Numeral) :
    cutNumber? n.text = some (n.sign.text ++ n.figures, n.unit) := by
  have hparts : ∀ c ∈ n.figures, (c.isDigit || c = '.') = true := by
    intro c hc
    rw [Bool.or_eq_true, decide_eq_true_eq]
    exact Numeral.of_mem_figures hc
  -- A unit starts with a letter or is the percent sign, so the number ends before it.
  have hunit : ∀ c ∈ n.unit.head?, (c.isDigit || c = '.') = false := by
    intro c hc
    have hletters : (('%' :: letters).all fun d => !(d.isDigit || d = '.')) = true := by decide
    rw [← Bool.not_eq_true']
    refine List.all_eq_true.1 hletters c ?_
    rcases Numeral.of_mem_unit (List.mem_of_head? hc) with halpha | rfl
    · exact List.mem_cons_of_mem _ (mem_letters_of_isAlpha halpha)
    · exact List.mem_cons_self
  have hcut := span_append hparts hunit
  have hread := isSome_readDouble?_figures n
  unfold cutNumber? Numeral.text
  cases hsign : n.sign with
  | minus => simp only [Sign.text, List.singleton_append, hcut, hread, if_true]
  | plus => simp only [Sign.text, List.singleton_append, hcut, hread, if_true]
  | none =>
      rw [Sign.text, List.nil_append]
      split
      next sign body hbody =>
      split at hbody
      · next heq => exact absurd (head_figures heq) (by decide)
      · next heq => exact absurd (head_figures heq) (by decide)
      · rcases Prod.mk.inj hbody with ⟨rfl, rfl⟩
        simp only [hcut, hread, if_true]

/-- A text that starts with neither a letter nor a hash is told by its number. -/
theorem classifyLower_eq {c : Char} {cs : List Char} (hletter : c.isAlpha = false)
    (hhash : c ≠ '#') :
    classifyLower (c :: cs) = match cutNumber? (c :: cs) with
      | some (_, []) => .number
      | some (_, rest) => if lengthUnits.contains (String.ofList rest) then .length else .other
      | none => .other := by
  -- All words that tell a kind start with a letter.
  have hword : ∀ word : List Char, word.head?.any Char.isAlpha = true →
      ∀ rest, c :: cs ≠ word ++ rest := by
    intro word hfirst rest heq
    rcases word with _ | ⟨d, word⟩
    · exact absurd hfirst (by decide)
    · rw [List.cons_append, List.cons.injEq] at heq
      rw [heq.1] at hletter
      exact Bool.false_ne_true (hletter.symm.trans hfirst)
  have hstarts : ∀ words : List String,
      (words.all fun w => w.toList.head?.any Char.isAlpha) = true →
      (words.any fun w => (Text.dropWord? w.toList (c :: cs)).isSome) = false := by
    intro words hwords
    refine List.any_eq_false.2 fun w hw hsome => ?_
    rcases Option.isSome_iff_exists.1 hsome with ⟨rest, hrest⟩
    exact hword _ (List.all_eq_true.1 hwords w hw) rest (Text.dropWord?_eq_some_iff.1 hrest)
  have hhex : isHexColor (c :: cs) = false := by
    unfold isHexColor
    split
    · next heq => exact absurd (List.cons.inj heq).1 hhash
    · rfl
  have htransparent : c :: cs ≠ "transparent".toList := fun h =>
    hword _ (by decide) [] (h.trans (List.append_nil _).symm)
  have hcurrent : c :: cs ≠ "currentcolor".toList := fun h =>
    hword _ (by decide) [] (h.trans (List.append_nil _).symm)
  have hcolor : (isHexColor (c :: cs) || c :: cs = "transparent".toList
      || c :: cs = "currentcolor".toList
      || colorStarts.any fun w => (Text.dropWord? w.toList (c :: cs)).isSome) = false := by
    rw [hhex, hstarts colorStarts (by decide), decide_eq_false htransparent,
      decide_eq_false hcurrent]
    rfl
  have hambiguous := hstarts ambiguousStarts (by decide)
  unfold classifyLower
  exact (if_neg (ne_true_of_eq_false hcolor)).trans (if_neg (ne_true_of_eq_false hambiguous))

end ArbitraryValue

namespace Numeral

/-- A numeral with its unit in lower case. -/
def lower (n : Numeral) : Numeral :=
  { n with
    unit := n.unit.map Char.toLower
    unit_listed := by
      rw [ArbitraryValue.map_toLower_map_toLower]
      exact n.unit_listed.imp_left fun h => List.map_eq_nil_iff.2 h }

end Numeral

namespace ArbitraryValue

theorem map_toLower_text (n : Numeral) : n.text.map Char.toLower = n.lower.text := by
  have hsign : n.sign.text.map Char.toLower = n.sign.text := by
    cases n.sign <;> decide
  have hfigures : n.figures.map Char.toLower = n.figures := by
    refine (List.map_congr_left fun c hc => ?_).trans (List.map_id _)
    rcases Numeral.of_mem_figures hc with hdigit | rfl
    · exact toLower_of_isDigit hdigit
    · decide
  rw [Numeral.text, List.map_append, List.map_append, hsign, hfigures]
  rfl

-- A numeral starts with its sign, a digit or the point.
theorem exists_text_eq_cons (n : Numeral) :
    ∃ c cs, n.text = c :: cs ∧ c.isAlpha = false ∧ c ≠ '#' := by
  unfold Numeral.text
  cases n.sign with
  | plus => exact ⟨'+', _, rfl, by decide, by decide⟩
  | minus => exact ⟨'-', _, rfl, by decide, by decide⟩
  | none =>
      rcases htext : n.figures ++ n.unit with _ | ⟨c, cs⟩
      · exact absurd (List.append_eq_nil_iff.1 htext).1 n.figures_ne_nil
      · refine ⟨c, cs, rfl, ?_⟩
        rcases head_figures htext with hdigit | rfl
        · have hdigits : ∀ k < 10, (Char.ofNat (48 + k)).isAlpha = false ∧
              Char.ofNat (48 + k) ≠ '#' := by decide
          rcases exists_eq_of_isDigit hdigit with ⟨k, hk, rfl⟩
          exact hdigits k hk
        · decide

/-- A numeral is a number if it has no unit and a length otherwise, in any letter case. -/
theorem classify_text (n : Numeral) :
    classify n.text = if n.unit = [] then .number else .length := by
  rcases exists_text_eq_cons n.lower with ⟨c, cs, htext, hletter, hhash⟩
  have hlower : n.lower.unit = n.unit.map Char.toLower := rfl
  have hlisted := n.unit_listed
  rw [classify, map_toLower_text, htext, classifyLower_eq hletter hhash, ← htext, cutNumber?_text,
    hlower]
  cases hunit : n.unit with
  | nil => rfl
  | cons d unit =>
      rw [hunit] at hlisted
      have hcontains := List.contains_iff_mem.2 (hlisted.resolve_left (List.cons_ne_nil d unit))
      rw [List.map_cons] at hcontains ⊢
      simp only [if_pos hcontains, if_neg (List.cons_ne_nil d unit)]

/-! ### Values of a kind -/

theorem forall_isAllowed_of_isSafe {cs : List Char} (h : isSafe cs = true) :
    ∀ c ∈ cs, isAllowed c = true := by
  simp only [isSafe, Bool.and_eq_true] at h
  exact List.all_eq_true.1 h.1.2

-- No underscore is allowed, so a safe text is only trimmed.
theorem spaced_of_isSafe {cs : List Char} (h : isSafe cs = true) :
    spaced cs = Text.trimBlank cs := by
  have hmap : (cs.map fun c => if c = '_' then ' ' else c) = cs := by
    refine (List.map_congr_left fun c hc => if_neg ?_).trans (List.map_id' cs)
    rintro rfl
    exact absurd (forall_isAllowed_of_isSafe h '_' hc) (by decide)
  rw [spaced, hmap]

/-- Spacing a text that has been spaced and found safe changes nothing. -/
theorem spaced_spaced {body : List Char} (h : isSafe (spaced body) = true) :
    spaced (spaced body) = spaced body := by
  rw [spaced_of_isSafe h, spaced, Text.trimBlank_trimBlank]

/-- A text with the letters of a safe and spaced one, in any case, is a value of the kind that
    that one looks like. -/
theorem parse?_of_map_toLower {cs : List Char} {w : String} (hsafe : isSafe cs = true)
    (hspaced : spaced cs = cs) (hw : w.toList.map Char.toLower = cs.map Char.toLower) :
    parse? w = some ⟨w, classify cs⟩ := by
  have hwsafe : isSafe w.toList = true := by
    rw [← isSafe_map_toLower, hw, isSafe_map_toLower, hsafe]
  have hcut : Text.cutFirst ':' w.toList = none := Text.cutFirst_eq_none fun hmem =>
    absurd (forall_isAllowed_of_isSafe hwsafe ':' hmem) (by decide)
  -- Blanks are no letters, so nothing is trimmed of one text if nothing is of the other.
  have hwspaced : spaced w.toList = w.toList := by
    rw [spaced_of_isSafe hsafe] at hspaced
    have htrimmed : (Text.trimBlank w.toList).map Char.toLower = w.toList.map Char.toLower := by
      rw [← Text.trimBlank_map isBlank_toLower, hw, Text.trimBlank_map isBlank_toLower, hspaced]
    have hlength := congrArg List.length htrimmed
    rw [List.length_map, List.length_map] at hlength
    rw [spaced_of_isSafe hwsafe]
    exact (Text.trimBlank_sublist _).eq_of_length hlength
  have hclassify : classify w.toList = classify cs := congrArg classifyLower hw
  rw [parse?, hcut, ofBody?, hwspaced]
  simp only [hwsafe, if_true, Option.getD_none, hclassify, String.ofList_toList]

/-- How the kind of a value is told from its text. -/
structure IsSniffed (raw : String) (v : ArbitraryValue) : Prop where
  /-- Without a hint, the numbers are the numerals without a unit. -/
  number : ':' ∉ raw.toList →
    (v.kind = .number ↔ ∃ n : Numeral, n.unit = [] ∧ n.text = v.value.toList)
  /-- Without a hint, the lengths are the numerals with a unit. -/
  length : ':' ∉ raw.toList →
    (v.kind = .length ↔ ∃ n : Numeral, n.unit ≠ [] ∧ n.text = v.value.toList)
  /-- Without a hint, the kind does not depend on letter case. -/
  letterCase : ':' ∉ raw.toList → ∀ w : String,
    w.toList.map Char.toLower = v.value.toList.map Char.toLower → parse? w = some ⟨w, v.kind⟩
  /-- With a hint or without, the value is accepted as it is, with the kind that it looks
      like. -/
  again : parse? v.value = some ⟨v.value, classify v.value.toList⟩

theorem kind_of_parse? {raw : String} {v : ArbitraryValue} (h : parse? raw = some v)
    (hhint : ':' ∉ raw.toList) : v.kind = classify v.value.toList := by
  simp only [parse?, Text.cutFirst_eq_none hhint, ofBody?, Option.ite_none_right_eq_some,
    Option.some.injEq, Option.getD_none] at h
  rcases h with ⟨-, rfl⟩
  rw [String.toList_ofList]

/-- The kind of every accepted value: numbers and lengths are told exactly by the grammar of
    numerals, letter case makes no difference, and a value stands for itself. -/
theorem isSniffed_of_parse? {raw : String} {v : ArbitraryValue} (h : parse? raw = some v) :
    IsSniffed raw v := by
  rcases exists_body_of_parse? h with ⟨-, body, -, -, hvalue, hsafe⟩
  have hspaced := spaced_spaced hsafe
  rw [← hvalue] at hsafe hspaced
  -- The unit of a numeral decides between the two kinds that a numeral can have.
  have hnumeral : ∀ n : Numeral, n.text = v.value.toList → ':' ∉ raw.toList →
      v.kind = if n.unit = [] then .number else .length := by
    intro n hn hhint
    rw [kind_of_parse? h hhint, ← hn, classify_text]
  refine ⟨fun hhint => ⟨fun hkind => ?_, ?_⟩, fun hhint => ⟨fun hkind => ?_, ?_⟩,
    fun hhint w hw => ?_, parse?_of_map_toLower hsafe hspaced rfl⟩
  · rcases exists_numeral_of_parse? h hhint (Or.inr hkind) with ⟨n, hn⟩
    refine ⟨n, ?_, hn⟩
    by_contra hunit
    rw [hnumeral n hn hhint, if_neg hunit] at hkind
    exact absurd hkind (by decide)
  · rintro ⟨n, hunit, hn⟩
    rw [hnumeral n hn hhint, if_pos hunit]
  · rcases exists_numeral_of_parse? h hhint (Or.inl hkind) with ⟨n, hn⟩
    refine ⟨n, fun hunit => ?_, hn⟩
    rw [hnumeral n hn hhint, if_pos hunit] at hkind
    exact absurd hkind (by decide)
  · rintro ⟨n, hunit, hn⟩
    rw [hnumeral n hn hhint, if_neg hunit]
  · rw [kind_of_parse? h hhint]
    exact parse?_of_map_toLower hsafe hspaced hw

/-- A length whose unit is written in capitals. -/
theorem isSniffed_capitals :
    parse? "_-1.50REM" = some ⟨"-1.50REM", .length⟩ ∧ ':' ∉ "_-1.50REM".toList ∧
      "-1.50rem".toList.map Char.toLower = "-1.50REM".toList.map Char.toLower ∧
      IsSniffed "_-1.50REM" ⟨"-1.50REM", .length⟩ := by
  have hparse : parse? "_-1.50REM" = some ⟨"-1.50REM", .length⟩ := by decide +kernel
  exact ⟨hparse, by decide, by decide, isSniffed_of_parse? hparse⟩

end ArbitraryValue

end UtilityCss
