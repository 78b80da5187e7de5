import UtilityCss.Proofs.Pattern.Candidates
import UtilityCss.Proofs.Pattern.Ways

/-!
# Groups of a Pattern

Which group a match has kept, and what a pattern of one's own therefore finds.

That a pattern has a group does not say that the group takes part in a match. A group in
one of two alternatives takes no part where the other one matches, and a group in a
repetition none where there are no rounds. A pattern without the group never has it in
a match, and a pattern that cannot avoid it has it in every match.

What is scanned is the text of the first group, where it took part, and the text of the
whole match elsewhere. For a pattern that cannot avoid the group this is the group's text
and nothing else; for other patterns with such a group it is not.

## Main definitions

* `Pattern.hasGroup`: There is a group of this number.
* `Pattern.needsGroup`: No match avoids the group of this number.
* `Pattern.parts`: The texts of a group in the matches.
* `Extractor.FoundInParts`, `Extractor.FoundBesideParts`: Where a token is found.

## Theorems

* `passes_code`: A group that cannot be avoided is passed on every way through the program.
* `delimits_of_keeps`: Places are kept for groups only.
* `group?_isSome_of_needsGroup`: The group that cannot be avoided takes part in every match.
* `group?_eq_none_of_hasGroup`: The group that is not there takes part in none.
* `captured_finds`: What a pattern of one's own finds.
-/

namespace UtilityCss

/-- The text of a group that took part in a match. -/
def Match.part? (m : Match) (number : Nat) (cs : List Char) : Option (List Char) :=
  (m.group? number).map fun (start, stop) => (cs.drop start).take (stop - start)

namespace Pattern

/-- There is a group of this number. -/
def hasGroup (number : Nat) : Pattern → Bool
  | empty => false
  | one _ => false
  | look _ => false
  | seq p q => p.hasGroup number || q.hasGroup number
  | alt p q => p.hasGroup number || q.hasGroup number
  | group n p => n == number || p.hasGroup number
  | .repeat p _ _ _ => p.hasGroup number

/-- No match avoids the group of this number. -/
def needsGroup (number : Nat) : Pattern → Bool
  | empty => false
  | one _ => false
  | look _ => false
  | seq p q => p.needsGroup number || q.needsGroup number
  | alt p q => p.needsGroup number && q.needsGroup number
  | group n p => n == number || p.needsGroup number
  | .repeat p least _ _ => decide (0 < least) && p.needsGroup number

/-- The texts of a group in the matches, where it took part. -/
def parts (p : Pattern) (number : Nat) (cs : List Char) : List (List Char) :=
  (p.occurrences cs).filterMap fun m => m.part? number cs

/-! ### Programs -/

theorem confined_keep (slot : Nat) : Code.Confined (Code.single (.keep slot)) :=
  Code.confined_single fun _ => rfl

/-- The program of a pattern leads nowhere else. -/
theorem confined_code (p : Pattern) : Code.Confined p.code := by
  induction p with
  | empty => exact Code.confined_nothing
  | one s => exact Code.confined_single fun _ => rfl
  | look l => exact Code.confined_single fun _ => rfl
  | seq p q ihp ihq => exact ihp.andThen ihq
  | alt p q ihp ihq => exact ihp.orElse ihq
  | group n p ih => exact (confined_keep _).andThen (ih.andThen (confined_keep _))
  | «repeat» p least most greedy ih => exact ih.repeated greedy _ least most

/-- A group that cannot be avoided is one whose start and end cannot be avoided. -/
theorem passes_code {number : Nat} {gate : Instruction}
    (hgate : gate = .keep (2 * number) ∨ gate = .keep (2 * number + 1)) {p : Pattern}
    (h : p.needsGroup number = true) : Code.Passes gate p.code := by
  -- By induction on the pattern. A part that comes later is reached because the parts
  -- before it cannot be left in another way.
  induction p with
  | empty => exact absurd h Bool.false_ne_true
  | one s => exact absurd h Bool.false_ne_true
  | look l => exact absurd h Bool.false_ne_true
  | seq p q ihp ihq =>
      rcases Bool.or_eq_true_iff.1 h with h | h
      · exact (ihp h).andThen_left _
      · exact Code.Passes.andThen_right (confined_code p) (ihq h)
  | alt p q ihp ihq =>
      rcases Bool.and_eq_true_iff.1 h with ⟨hp, hq⟩
      exact (ihp hp).orElse (ihq hq)
  | group n p ih =>
      rcases Bool.or_eq_true_iff.1 h with h | h
      · rw [beq_iff_eq] at h
        subst h
        rcases hgate with rfl | rfl
        · exact (Code.passes_single _).andThen_left _
        · exact Code.Passes.andThen_right (confined_keep _)
            (Code.Passes.andThen_right (confined_code p) (Code.passes_single _))
      · exact Code.Passes.andThen_right (confined_keep _) ((ih h).andThen_left _)
  | «repeat» p least most greedy ih =>
      rcases Bool.and_eq_true_iff.1 h with ⟨hleast, hp⟩
      exact Code.Passes.repeated (confined_code p) (ih hp) greedy _ (of_decide_eq_true hleast) most

/-- The place under the number is the start or the end of a group of the pattern. -/
def Delimits (p : Pattern) (slot : Nat) : Prop :=
  ∃ number, p.hasGroup number = true ∧ (slot = 2 * number ∨ slot = 2 * number + 1)

/-- The groups of a part are groups of the whole. -/
theorem Delimits.imp {p q : Pattern} {slot : Nat} (h : p.Delimits slot)
    (hsub : ∀ number, p.hasGroup number = true → q.hasGroup number = true) : q.Delimits slot := by
  rcases h with ⟨number, hhas, hslot⟩
  exact ⟨number, hsub number hhas, hslot⟩

/-- Places are kept for groups only. -/
theorem delimits_of_keeps {slot : Nat} {p : Pattern} (h : Code.Keeps p.code slot) :
    p.Delimits slot := by
  -- By induction on the pattern: steps that keep a place come from groups.
  induction p with
  | empty => exact absurd h Code.not_keeps_nothing
  | one s => exact Instruction.noConfusion (Code.keeps_single h)
  | look l => exact Instruction.noConfusion (Code.keeps_single h)
  | seq p q ihp ihq =>
      rcases Code.keeps_andThen h with h | h
      · exact (ihp h).imp fun number hhas => Bool.or_eq_true_iff.2 (Or.inl hhas)
      · exact (ihq h).imp fun number hhas => Bool.or_eq_true_iff.2 (Or.inr hhas)
  | alt p q ihp ihq =>
      rcases Code.keeps_orElse h with h | h
      · exact (ihp h).imp fun number hhas => Bool.or_eq_true_iff.2 (Or.inl hhas)
      · exact (ihq h).imp fun number hhas => Bool.or_eq_true_iff.2 (Or.inr hhas)
  | group n p ih =>
      have hself : (group n p).hasGroup n = true :=
        Bool.or_eq_true_iff.2 (Or.inl (beq_self_eq_true n))
      rcases Code.keeps_andThen h with h | h
      · exact ⟨n, hself, Or.inl (Instruction.keep.inj (Code.keeps_single h)).symm⟩
      · rcases Code.keeps_andThen h with h | h
        · exact (ih h).imp fun number hhas => Bool.or_eq_true_iff.2 (Or.inr hhas)
        · exact ⟨n, hself, Or.inr (Instruction.keep.inj (Code.keeps_single h)).symm⟩
  | «repeat» p least most greedy ih => exact ih (Code.keeps_repeated h)

/-! ### Matches -/

/-- The place under the number has been kept. -/
def IsKept (slots : Slots) (slot : Nat) : Prop := ∃ index, slots[slot]? = some (some index)

/-- What is kept stays kept. -/
theorem IsKept.kept {slots : Slots} {slot : Nat} (h : IsKept slots slot) (index : Nat)
    (i : Instruction) : IsKept (i.kept index slots) slot := by
  cases i with
  | keep slot' =>
      rcases h with ⟨old, hold⟩
      rcases Array.getElem?_eq_some_iff.1 hold with ⟨hlt, -⟩
      show IsKept (slots.setIfInBounds slot' (some index)) slot
      by_cases hslot : slot' = slot
      · subst hslot
        exact ⟨index, Array.getElem?_setIfInBounds_self_of_lt hlt⟩
      · exact ⟨old, (Array.getElem?_setIfInBounds_ne hslot).trans hold⟩
  | _ => exact h

theorem size_kept (slots : Slots) (index : Nat) (i : Instruction) :
    (i.kept index slots).size = slots.size := by
  cases i with
  | keep slot => exact Array.size_setIfInBounds
  | _ => rfl

/-- A place that no way avoids has been kept at the end of every match. -/
theorem isKept_of_passes {p : Pattern} {slot : Nat} (hslot : slot < freshSlots.size)
    (h : Code.Passes (.keep slot) (group 0 p).code) {cs : List Char} {m : Match}
    (hm : m ∈ p.occurrences cs) : IsKept m.slots slot := by
  rcases h 0 with ⟨places, hstart, hwithin, hleft⟩
  -- A thread is still at one of the places, or it has passed the step that leaves them.
  have hcarries : Instruction.Carries p.program fun pc slots =>
      slots.size = freshSlots.size ∧ (places pc ∨ IsKept slots slot) := by
    rintro pc i hi slots ⟨hsize, hplace⟩ index pc' hpc'
    refine ⟨(size_kept slots index i).trans hsize, ?_⟩
    rcases hplace with hplace | hkept
    · have hi' : ((group 0 p).code 0)[pc]? = some i := by
        rwa [program, List.getElem?_toArray] at hi
      rcases hleft pc i hi' (by rwa [Nat.zero_add]) with rfl | hnext
      · exact Or.inr ⟨index, Array.getElem?_setIfInBounds_self_of_lt (hsize ▸ hslot)⟩
      · exact Or.inl (hnext pc' (by rwa [Nat.zero_add]))
    · exact Or.inr (hkept.kept index i)
  rcases exists_end_of_mem_occurrences hcarries ⟨rfl, Or.inl hstart⟩ hm with
    ⟨slots, pc, rfl, hend, -, hplace⟩
  refine hplace.resolve_left fun hplace => ?_
  -- All places are those of steps.
  have hlt := (hwithin pc hplace).2
  rw [program, List.getElem?_toArray, List.getElem?_eq_none_iff] at hend
  omega

/-- The first group takes part in every match of a pattern that cannot avoid it. -/
theorem group?_isSome_of_needsGroup {p : Pattern} (h : p.needsGroup 1 = true) {cs : List Char}
    {m : Match} (hm : m ∈ p.occurrences cs) : (m.group? 1).isSome = true := by
  have hneeds : (group 0 p).needsGroup 1 = true := Bool.or_eq_true_iff.2 (Or.inr h)
  rcases isKept_of_passes (by decide) (passes_code (Or.inl rfl) hneeds) hm with ⟨start, hstart⟩
  rcases isKept_of_passes (by decide) (passes_code (Or.inr rfl) hneeds) hm with ⟨stop, hstop⟩
  unfold Match.group?
  rw [hstart, hstop]
  rfl

/-- The first group takes part in no match of a pattern without it. -/
theorem group?_eq_none_of_hasGroup {p : Pattern} (h : p.hasGroup 1 = false) {cs : List Char}
    {m : Match} (hm : m ∈ p.occurrences cs) : m.group? 1 = none := by
  have hnot : ¬Code.Keeps (group 0 p).code 2 := by
    intro hkeeps
    rcases delimits_of_keeps hkeeps with ⟨number, hhas, hslot⟩
    have hnumber : number = 1 := by omega
    subst hnumber
    exact Bool.false_ne_true (h.symm.trans hhas)
  -- The start of the first group is not kept at the beginning, and no step keeps it.
  have hcarries : Instruction.Carries p.program fun _ slots => slots[2]? = some none := by
    intro pc i hi slots hslots index pc' hpc'
    cases i with
    | keep slot =>
        have hslot : slot ≠ 2 := by
          rintro rfl
          rw [program, List.getElem?_toArray] at hi
          exact hnot ⟨0, List.mem_of_getElem? hi⟩
        exact (Array.getElem?_setIfInBounds_ne hslot).trans hslots
    | _ => exact hslots
  rcases exists_end_of_mem_occurrences hcarries rfl hm with ⟨slots, pc, rfl, -, hslots⟩
  have hstart : (Match.ofSlots slots).slots[2 * 1]? = some none := hslots
  unfold Match.group?
  rw [hstart]
  rfl

end Pattern

/-! ### What is extracted -/

namespace Extractor

open Pattern

variable {p : Pattern} {text token : String}

/-- The token is in a text that the first group has captured. -/
def FoundInParts (p : Pattern) (text token : String) : Prop :=
  ∃ piece ∈ p.parts 1 text.toList, token ∈ extract everywhere (String.ofList piece)

/-- The token is in the text of a match without the first group. -/
def FoundBesideParts (p : Pattern) (text token : String) : Prop :=
  ∃ m ∈ p.occurrences text.toList, m.group? 1 = none ∧
    token ∈ extract everywhere (String.ofList (m.whole text.toList))

theorem mem_extract_everywhere_ofList {piece : List Char} :
    token ∈ extract everywhere (String.ofList piece) ↔ token ∈ tokensIn piece := by
  rw [mem_extract_everywhere, String.toList_ofList]

/-- What a match captures is the text of its first group or, without that, its own. -/
theorem mem_captured {cs piece : List Char} :
    piece ∈ p.captured cs ↔ piece ∈ p.parts 1 cs ∨
      ∃ m ∈ p.occurrences cs, m.group? 1 = none ∧ m.whole cs = piece := by
  unfold Pattern.captured parts
  rw [List.mem_map, List.mem_filterMap, ← exists_or]
  refine exists_congr fun m => ?_
  rw [← and_or_left]
  refine and_congr_right fun _ => ?_
  unfold Match.part?
  cases m.group? 1 with
  | none => exact ⟨fun h => Or.inr ⟨rfl, h⟩, fun h => h.elim (fun h => nomatch h) And.right⟩
  | some places =>
      exact ⟨fun h => Or.inl (congrArg some h),
        fun h => h.elim Option.some.inj fun h => nomatch h.1⟩

theorem mem_extract_captured :
    token ∈ extract (captured p) text ↔
      FoundInParts p text token ∨ FoundBesideParts p text token := by
  rw [mem_extract_iff]
  unfold FoundInParts FoundBesideParts scanned
  simp only [mem_captured, mem_extract_everywhere_ofList]
  constructor
  · rintro ⟨piece, hpiece | ⟨m, hm, hnone, rfl⟩, htoken⟩
    · exact Or.inl ⟨piece, hpiece, htoken⟩
    · exact Or.inr ⟨m, hm, hnone, htoken⟩
  · rintro (⟨piece, hpiece, htoken⟩ | ⟨m, hm, hnone, htoken⟩)
    · exact ⟨piece, Or.inl hpiece, htoken⟩
    · exact ⟨_, Or.inr ⟨m, hm, hnone, rfl⟩, htoken⟩

/-- A pattern that cannot avoid its first group finds nothing beside it. -/
theorem not_foundBesideParts (h : p.needsGroup 1 = true) : ¬FoundBesideParts p text token := by
  rintro ⟨m, hm, hnone, -⟩
  have hsome := group?_isSome_of_needsGroup h hm
  rw [hnone] at hsome
  exact Bool.false_ne_true hsome

/-- A pattern without a first group finds what is in its matches. -/
theorem found_of_hasGroup (h : p.hasGroup 1 = false) :
    FoundInParts p text token ∨ FoundBesideParts p text token ↔
      ∃ piece ∈ p.matched text.toList, token ∈ extract everywhere (String.ofList piece) := by
  have hno : ¬FoundInParts p text token := by
    rintro ⟨piece, hpiece, -⟩
    rcases List.mem_filterMap.1 hpiece with ⟨m, hm, hpart⟩
    rw [Match.part?, group?_eq_none_of_hasGroup h hm] at hpart
    exact Option.not_mem_none _ hpart
  rw [or_iff_right hno]
  unfold FoundBesideParts matched
  simp only [List.mem_map, exists_exists_and_eq_and]
  exact exists_congr fun m => and_congr_right fun hm =>
    and_iff_right (group?_eq_none_of_hasGroup h hm)

/-- What a pattern of one's own finds: the tokens in what its first group has captured, and
    those in the matches that the group took no part in. So it finds the former only, exactly
    where the latter are among them; that is so for every text if the pattern cannot avoid
    the group. Without a first group it finds the tokens in its matches. -/
theorem captured_finds (p : Pattern) (text : String) :
    (∀ token, token ∈ extract (captured p) text ↔
      FoundInParts p text token ∨ FoundBesideParts p text token) ∧
    ((∀ token, token ∈ extract (captured p) text ↔ FoundInParts p text token) ↔
      ∀ token, FoundBesideParts p text token → FoundInParts p text token) ∧
    (p.needsGroup 1 = true →
      ∀ token, token ∈ extract (captured p) text ↔ FoundInParts p text token) ∧
    (p.hasGroup 1 = false → ∀ token, token ∈ extract (captured p) text ↔
      ∃ piece ∈ p.matched text.toList, token ∈ extract everywhere (String.ofList piece)) := by
  refine ⟨fun _ => mem_extract_captured, ?_, fun h token => ?_, fun h token => ?_⟩
  · simp only [mem_extract_captured, or_iff_left_iff_imp]
  · rw [mem_extract_captured]
    exact or_iff_left (not_foundBesideParts h)
  · rw [mem_extract_captured]
    exact found_of_hasGroup h

/-- What stands in the parentheses of a call is found, and nothing else. -/
theorem captured_finds_arguments :
    ∃ p, Pattern.parse? "tw\\(([^)]*)\\)" = some p ∧ p.needsGroup 1 = true ∧
      ∀ text token, token ∈ extract (captured p) text ↔ FoundInParts p text token :=
  ⟨_, rfl, by decide, fun text => (captured_finds _ text).2.2.1 (by decide)⟩

/-- The word `p-4` or, kept as a group, the word `m-1`. -/
def eitherWord : Pattern :=
  .alt (.seq (.seq (.one (.range 'p' 'p')) (.one (.range '-' '-'))) (.one (.range '4' '4')))
    (.group 1
      (.seq (.seq (.one (.range 'm' 'm')) (.one (.range '-' '-'))) (.one (.range '1' '1'))))

/-- Where the first group takes part in one match only, what is in the other match is found
    as well. -/
theorem not_captured_finds_parts :
    Pattern.parse? "p-4|(m-1)" = some eitherWord ∧ eitherWord.hasGroup 1 = true ∧
      "p-4" ∈ extract (captured eitherWord) "p-4 m-1" ∧
      ¬FoundInParts eitherWord "p-4 m-1" "p-4" := by
  refine ⟨by decide +kernel, by decide, mem_extract_iff.2 (by decide +kernel), ?_⟩
  have hparts : eitherWord.parts 1 "p-4 m-1".toList = [['m', '-', '1']] := by decide +kernel
  rintro ⟨piece, hpiece, htoken⟩
  rw [hparts, List.mem_singleton] at hpiece
  subst hpiece
  rw [mem_extract_everywhere_ofList] at htoken
  revert htoken
  decide +kernel

end Extractor

end UtilityCss
