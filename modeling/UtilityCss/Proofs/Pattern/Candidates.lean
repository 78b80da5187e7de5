import Mathlib.Data.List.DropRight
import UtilityCss.Proofs.Extraction

/-!
# Candidates as Matches

What the pattern of a candidate finds is what is left of the runs of a text.

Candidates can be found in two ways. One cuts the text at every delimiter and takes the
colons off the end of each run. The other follows a pattern through the text: any characters
of a run, as many as possible, and then one more that is no colon. It reads to the end of
the run, gives back the colons there, and goes on behind the match, where nothing but these
colons is left of the run. Both find the same words, and they find them in the same order.

While the pattern is inside a run there are two threads at most. One reads on. The other has
just read a character that is no colon and ends here, which gives a match; a later one
replaces it. So the match that counts ends behind the last such character of the run, and
there is none in a run of colons.

## Main definitions

* `Extractor.IsRun`: A longest piece of a text without delimiters.
* `Extractor.wordsIn`: What is left of the runs of a text, where something is.
* `Extractor.lastStop`: The place behind the last character that is no colon.
* `Extractor.Finds`: The next match, and the words behind it.

## Theorems

* `mem_runs_iff`: The runs are the longest pieces without delimiters.
* `parse?_candidateText`: The pattern is what its text spells.
* `searchFrom_underway`: What a search finds from the inside of a run.
* `finds_or_none`: The next match is the next word.
* `matched_candidatePattern`: The matches are the words.
* `extractInto_eq_union`: Extracting into a set adds what is extracted.
* `everywhere_finds_trimmed_runs`: What is found in a whole text.
-/

namespace UtilityCss

namespace Extractor

open Pattern

/-! ### Runs -/

/-- The word is a longest piece of the text without delimiters. It is empty between two
    delimiters that are neighbours. -/
def IsRun (word cs : List Char) : Prop :=
  StandsIn word cs ∧ ∀ c ∈ word, isDelimiter c = false

/-- What is left of a run without the colons at its end. -/
def trimmed (run : List Char) : List Char := Text.dropEndWhile (· = ':') run

/-- What is left of the runs of a text, where something is. -/
def wordsIn (cs : List Char) : List (List Char) :=
  ((runs cs).map trimmed).filter (· ≠ [])

/-- A text is one run, or a run, a delimiter and a shorter text. -/
theorem runs_induction {motive : List Char → Prop}
    (last : ∀ run, (∀ c ∈ run, isDelimiter c = false) → motive run)
    (step : ∀ run d rest, (∀ c ∈ run, isDelimiter c = false) → isDelimiter d = true →
      motive rest → motive (run ++ d :: rest)) (cs : List Char) : motive cs := by
  -- The run that has been read so far goes in front of what is left.
  have hread : ∀ (cs run : List Char), (∀ c ∈ run, isDelimiter c = false) →
      motive (run ++ cs) := by
    intro cs
    induction cs with
    | nil =>
        intro run hrun
        rw [List.append_nil]
        exact last run hrun
    | cons c cs ih =>
        intro run hrun
        by_cases hc : isDelimiter c = true
        · exact step run c cs hrun hc (ih [] fun c hc => absurd hc List.not_mem_nil)
        · rw [← List.singleton_append, ← List.append_assoc]
          refine ih (run ++ [c]) fun d hd => ?_
          rcases List.mem_append.1 hd with hd | hd
          · exact hrun d hd
          · rw [List.mem_singleton.1 hd]
            exact eq_false_of_ne_true hc
  exact hread cs [] fun c hc => absurd hc List.not_mem_nil

variable {run rest : List Char} {d : Char} (hrun : ∀ c ∈ run, isDelimiter c = false)
  (hd : isDelimiter d = true)

include hrun hd in
theorem runs_cons : runs (run ++ d :: rest) = run :: runs rest := by
  rw [runs_append_delimiter hd, runs_eq_singleton hrun, List.singleton_append]

/-- The runs are the longest pieces without delimiters. -/
theorem mem_runs_iff {word cs : List Char} : word ∈ runs cs ↔ IsRun word cs := by
  refine ⟨fun h => ?_, fun h => mem_runs_of_standsIn h.2 h.1⟩
  induction cs using runs_induction with
  | last run hrun =>
      rw [runs_eq_singleton hrun, List.mem_singleton] at h
      subst h
      refine ⟨⟨[], [], (List.append_nil word).symm, fun c hc => ?_, fun c hc => ?_⟩, hrun⟩
      · exact absurd hc (Option.not_mem_none c)
      · exact absurd hc (Option.not_mem_none c)
  | step run d rest hrun hd ih =>
      rw [runs_cons hrun hd] at h
      rcases List.mem_cons.1 h with rfl | h
      · refine ⟨⟨[], d :: rest, rfl, fun c hc => ?_, fun c hc => ?_⟩, hrun⟩
        · exact absurd hc (Option.not_mem_none c)
        · exact Option.some.inj hc ▸ hd
      -- A run of what is behind stands further right in the whole.
      · rcases ih h with ⟨⟨before, after, rfl, hbefore, hafter⟩, hword⟩
        refine ⟨⟨run ++ d :: before, after, ?_, fun c hc => ?_, hafter⟩, hword⟩
        · rw [List.append_assoc, List.cons_append]
        · -- The delimiter is the last character where nothing stands behind it.
          rw [List.getLast?_append_cons] at hc
          cases before with
          | nil =>
              rw [← Option.some.inj hc]
              exact hd
          | cons b before =>
              rw [List.getLast?_cons_cons] at hc
              exact hbefore c hc

/-! ### Trimmed runs -/

theorem trimmed_concat (run : List Char) (c : Char) :
    trimmed (run ++ [c]) = if c != ':' then run ++ [c] else trimmed run := by
  show List.rdropWhile _ (run ++ [c]) = if c != ':' then _ else List.rdropWhile _ run
  rw [List.rdropWhile_concat]
  by_cases hc : c = ':'
  · rw [if_pos (decide_eq_true hc), if_neg (by rw [hc]; decide)]
  · rw [if_neg (by rwa [decide_eq_true_eq]), if_pos (bne_iff_ne.2 hc)]

theorem trimmed_isPrefix (run : List Char) : trimmed run <+: run :=
  List.rdropWhile_prefix _ run

/-- The place behind the last character of a word that is no colon, if there is one. The
    word starts at a place, and `stop` is such a place in what stands before it. -/
def lastStop (index : Nat) (stop : Option Nat) : List Char → Option Nat
  | [] => stop
  | c :: cs => lastStop (index + 1) (if c != ':' then some (index + 1) else stop) cs

theorem lastStop_concat (index : Nat) (stop : Option Nat) (run : List Char) (c : Char) :
    lastStop index stop (run ++ [c])
      = if c != ':' then some (index + run.length + 1) else lastStop index stop run := by
  induction run generalizing index stop with
  | nil => rfl
  | cons b run ih =>
      rw [List.cons_append, lastStop, ih, lastStop, List.length_cons, Nat.add_right_comm index 1,
        Nat.add_assoc index]

/-- The last stop is the end of what is left of the run. -/
theorem lastStop_eq (index : Nat) (run : List Char) :
    lastStop index none run
      = if trimmed run = [] then none else some (index + (trimmed run).length) := by
  induction run using List.reverseRecOn with
  | nil => rfl
  | append_singleton run c ih =>
      rw [lastStop_concat, trimmed_concat]
      by_cases hc : (c != ':') = true
      · have hne : run ++ [c] ≠ [] := List.append_ne_nil_of_right_ne_nil _ (List.cons_ne_nil _ _)
        rw [if_pos hc, if_pos hc, if_neg hne, List.length_append, List.length_singleton,
          Nat.add_assoc]
      · rw [if_neg hc, if_neg hc, ih]

/-! ### The program -/

/-- The pattern is what its text spells. -/
theorem parse?_candidateText : Pattern.parse? candidateText = some candidatePattern := by
  decide +kernel

/-- The program: any characters of one set, then a character of another set, and the places
    around them kept. -/
def readingProgram (any last : CharSet) : Array Instruction :=
  #[.keep 0, .split 2 4, .consume any, .jump 1, .consume last, .keep 1]

theorem program_candidatePattern : candidatePattern.program =
    readingProgram (.complement markSet) (.complement (.union markSet (.range ':' ':'))) := rfl

theorem le_and_le (c d : Char) : (decide (d ≤ c) && decide (c ≤ d)) = (c == d) := by
  rw [Bool.eq_iff_iff, Bool.and_eq_true, decide_eq_true_eq, decide_eq_true_eq, beq_iff_eq]
  exact ⟨fun h => Char.le_antisymm h.2 h.1, fun h => h ▸ ⟨Char.le_refl c, Char.le_refl c⟩⟩

/-- The marks and blanks that the pattern excludes are the delimiters. -/
theorem holds_markSet (c : Char) : markSet.holds c = isDelimiter c := by
  simp only [markSet, List.foldl_cons, List.foldl_nil, CharSet.holds, le_and_le,
    Bool.false_or, isDelimiter, marks, List.contains_cons, List.contains_nil, Bool.or_false]
  -- The two sides differ in where the blanks stand.
  ac_rfl

/-- The places kept inside a match. -/
def begun (start : Nat) : Slots := #[some start, none, none, none]

/-- The places kept behind a match. -/
def ended (start stop : Nat) : Slots := #[some start, some stop, none, none]

/-- The threads inside a run that has begun at a place: one that reads on and, if the
    character before was no colon, one that ends. -/
def underway (start : Nat) (closable : Bool) : List Thread :=
  ⟨3, begun start⟩ :: if closable then [⟨5, begun start⟩] else []

/-- The threads that wait in a run: for any character of it, and for the last one. -/
def waiting (start : Nat) : List Thread := [⟨2, begun start⟩, ⟨4, begun start⟩]

theorem settle_start (here : Spot) :
    Thread.settle candidatePattern.program here [⟨0, freshSlots⟩] = (waiting here.index, none) := by
  rw [program_candidatePattern]
  -- Which characters the sets have does not matter before one is read.
  generalize CharSet.complement markSet = any
  generalize CharSet.complement (.union markSet (.range ':' ':')) = last
  cbv

/-- A new thread adds nothing to those that are underway. -/
theorem settle_underway (here : Spot) (start : Nat) (closable new : Bool) :
    Thread.settle candidatePattern.program here
        (if new then underway start closable ++ [⟨0, freshSlots⟩] else underway start closable)
      = (waiting start, if closable then some (ended start here.index) else none) := by
  rw [program_candidatePattern]
  generalize CharSet.complement markSet = any
  generalize CharSet.complement (.union markSet (.range ':' ':')) = last
  cases closable <;> cases new <;> cbv

theorem holds_any (c : Char) :
    (CharSet.complement markSet).holds c = !isDelimiter c := by
  rw [CharSet.holds, holds_markSet]

theorem holds_last (c : Char) :
    (CharSet.complement (.union markSet (.range ':' ':'))).holds c
      = (!isDelimiter c && c != ':') := by
  rw [CharSet.holds, CharSet.holds, holds_markSet, CharSet.holds, le_and_le, Bool.not_or]
  rfl

/-- A delimiter ends all threads, and a colon the one that ends. -/
theorem read_waiting (start : Nat) (c : Char) :
    (waiting start).filterMap (Thread.read? candidatePattern.program c)
      = if isDelimiter c then [] else underway start (c != ':') := by
  have hany : Thread.read? candidatePattern.program c ⟨2, begun start⟩
      = if (CharSet.complement markSet).holds c then some ⟨3, begun start⟩ else none := rfl
  have hlast : Thread.read? candidatePattern.program c ⟨4, begun start⟩
      = if (CharSet.complement (.union markSet (.range ':' ':'))).holds c
        then some ⟨5, begun start⟩ else none := rfl
  rw [waiting, List.filterMap_cons, hany, List.filterMap_cons, hlast, holds_any, holds_last,
    List.filterMap_nil, underway]
  cases isDelimiter c <;> cases c != ':' <;> rfl

/-! ### The search -/

/-- What the search finds behind the run that it is in. -/
def searchBehind (index : Nat) : List Char → Option Slots
  | [] => none
  | d :: rest => searchFrom candidatePattern.program freshSlots (index + 1) (some d) [] none rest

variable (hrest : ∀ d, rest.head? = some d → isDelimiter d = true)

/-- Without threads and without a match, there is a new thread only. -/
theorem start_threads :
    (if (none : Option Slots).isNone then [] ++ [⟨0, freshSlots⟩] else [])
      = [(⟨0, freshSlots⟩ : Thread)] := rfl

/-- A step inside a run. -/
theorem searchFrom_underway_cons (start index : Nat) (before : Option Char) (closable : Bool)
    (stop : Option Nat) (c : Char) (cs : List Char) :
    searchFrom candidatePattern.program freshSlots index before (underway start closable)
        (stop.map (ended start)) (c :: cs)
      = let stop := if closable then some index else stop
        if isDelimiter c then
          (stop.map (ended start)).or (searchBehind index (c :: cs))
        else searchFrom candidatePattern.program freshSlots (index + 1) (some c)
          (underway start (c != ':')) (stop.map (ended start)) cs := by
  -- A match that can end here comes before those that ended earlier, because it is longer.
  have hfound : ((if closable then some (ended start index) else none) <|> stop.map (ended start))
      = (if closable then some index else stop).map (ended start) := by
    cases closable <;> rfl
  rw [searchFrom]
  simp only [settle_underway, read_waiting, hfound]
  cases isDelimiter c with
  | true => cases (if closable then some index else stop) <;> rfl
  | false => rfl

theorem searchFrom_underway_nil (start index : Nat) (before : Option Char) (closable : Bool)
    (stop : Option Nat) :
    searchFrom candidatePattern.program freshSlots index before (underway start closable)
        (stop.map (ended start)) []
      = (if closable then some index else stop).map (ended start) := by
  rw [searchFrom]
  simp only [settle_underway]
  cases closable <;> rfl

include hrun hrest in
/-- Inside a run that has begun, the search ends at the last stop or goes on behind. -/
theorem searchFrom_underway (start index : Nat) (before : Option Char) (closable : Bool)
    (stop : Option Nat) :
    searchFrom candidatePattern.program freshSlots index before (underway start closable)
        (stop.map (ended start)) (run ++ rest)
      = ((lastStop index (if closable then some index else stop) run).map (ended start)).or
          (searchBehind (index + run.length) rest) := by
  -- Each character may move the last stop up to where it stands.
  induction run generalizing index before closable stop with
  | nil =>
      cases rest with
      | nil =>
          rw [List.nil_append, searchFrom_underway_nil]
          exact Option.or_none.symm
      | cons d rest =>
          rw [List.nil_append, searchFrom_underway_cons, if_pos (hrest d rfl)]
          rfl
  | cons c run ih =>
      have hc : ¬isDelimiter c = true := ne_true_of_eq_false (hrun c List.mem_cons_self)
      rw [List.cons_append, searchFrom_underway_cons, if_neg hc,
        ih (fun d hd => hrun d (List.mem_cons_of_mem _ hd)), lastStop, List.length_cons,
        Nat.add_right_comm index 1, Nat.add_assoc index]

theorem searchFrom_idle_nil (index : Nat) (before : Option Char) :
    searchFrom candidatePattern.program freshSlots index before [] none [] = none := by
  rw [searchFrom]
  simp only [start_threads, settle_start]
  rfl

theorem searchFrom_idle_cons (index : Nat) (before : Option Char) (c : Char) (cs : List Char) :
    searchFrom candidatePattern.program freshSlots index before [] none (c :: cs)
      = if isDelimiter c then searchBehind index (c :: cs)
        else searchFrom candidatePattern.program freshSlots (index + 1) (some c)
          (underway index (c != ':')) none cs := by
  rw [searchFrom]
  simp only [start_threads, settle_start, read_waiting]
  cases isDelimiter c <;> rfl

include hrun hrest in
/-- Between matches, the search finds what is left of the run ahead, or goes on behind. -/
theorem searchFrom_idle (index : Nat) (before : Option Char) :
    searchFrom candidatePattern.program freshSlots index before [] none (run ++ rest)
      = if trimmed run = [] then searchBehind (index + run.length) rest
        else some (ended index (index + (trimmed run).length)) := by
  cases run with
  | nil =>
      cases rest with
      | nil =>
          rw [List.nil_append, searchFrom_idle_nil]
          rfl
      | cons d rest =>
          rw [List.nil_append, searchFrom_idle_cons, if_pos (hrest d rfl)]
          rfl
  | cons c run =>
      have hc : ¬isDelimiter c = true := ne_true_of_eq_false (hrun c List.mem_cons_self)
      -- The first character starts a match, and from then on the search is underway.
      have hlive := searchFrom_underway (fun d hd => hrun d (List.mem_cons_of_mem _ hd)) hrest
        index (index + 1) (some c) (c != ':') none
      rw [Option.map_none] at hlive
      rw [List.cons_append, searchFrom_idle_cons, if_neg hc, hlive, ← lastStop, lastStop_eq,
        List.length_cons, Nat.add_right_comm index 1, Nat.add_assoc index]
      by_cases hnil : trimmed (c :: run) = []
      · rw [if_pos hnil, if_pos hnil]
        rfl
      · rw [if_neg hnil, if_neg hnil]
        rfl

/-! ### The matches -/

/-- The words behind the run at the start of a text. -/
def wordsBehind : List Char → List (List Char)
  | [] => []
  | _ :: rest => wordsIn rest

include hrun hrest in
/-- The words of a text are what is left of its first run, if something is, and those
    behind it. -/
theorem wordsIn_append :
    wordsIn (run ++ rest)
      = (if trimmed run = [] then [] else [trimmed run]) ++ wordsBehind rest := by
  -- The first run counts if something is left of it.
  have hfirst : ∀ others : List (List Char),
      ((run :: others).map trimmed).filter (· ≠ [])
        = (if trimmed run = [] then [] else [trimmed run])
          ++ (others.map trimmed).filter (· ≠ []) := by
    intro others
    by_cases hnil : trimmed run = []
    · rw [List.map_cons, List.filter_cons, if_neg (by simpa using hnil), if_pos hnil,
        List.nil_append]
    · rw [List.map_cons, List.filter_cons, if_pos (by simpa using hnil), if_neg hnil,
        List.singleton_append]
  cases rest with
  | nil =>
      rw [wordsIn, List.append_nil, runs_eq_singleton hrun]
      exact hfirst []
  | cons d rest =>
      rw [wordsIn, runs_cons hrun (hrest d rfl)]
      exact hfirst (runs rest)

include hrun hrest in
/-- Behind a word stand the colons of its run, and no word begins in these. -/
theorem exists_colons : ∃ colons, run = trimmed run ++ colons ∧
    wordsIn (colons ++ rest) = wordsBehind rest := by
  refine ⟨run.rtakeWhile (· = ':'), List.rdropWhile_append_rtakeWhile.symm, ?_⟩
  have hcolons : trimmed (run.rtakeWhile (· = ':')) = [] :=
    List.rdropWhile_eq_nil_iff.2 fun _ hc => List.mem_rtakeWhile_imp (p := (· = ':')) hc
  rw [wordsIn_append (fun c hc => hrun c (List.rtakeWhile_suffix _ _ |>.subset hc)) hrest,
    if_pos hcolons, List.nil_append]

/-- The next match is the next word. What is skipped before it has no words. -/
structure Finds (cs : List Char) (index : Nat) (before : Option Char)
    (skipped word rest : List Char) : Prop where
  text : cs = skipped ++ (word ++ rest)
  ne_nil : word ≠ []
  words : wordsIn cs = word :: wordsIn rest
  found : searchFrom candidatePattern.program freshSlots index before [] none cs
    = some (ended (index + skipped.length) (index + skipped.length + word.length))

include hrun hrest in
theorem finds_trimmed (hne : trimmed run ≠ []) (index : Nat) (before : Option Char) :
    ∃ after, Finds (run ++ rest) index before [] (trimmed run) after := by
  rcases exists_colons hrun hrest with ⟨colons, htext, hcolons⟩
  refine ⟨colons ++ rest, ?_, hne, ?_, ?_⟩
  · rw [List.nil_append, ← List.append_assoc, ← htext]
  · rw [wordsIn_append hrun hrest, if_neg hne, hcolons, List.singleton_append]
  · rw [searchFrom_idle hrun hrest, if_neg hne]
    rfl

/-- The search for the next match finds the next word, if there is one. -/
theorem finds_or_none (cs : List Char) (index : Nat) (before : Option Char) :
    (wordsIn cs = [] ∧
        searchFrom candidatePattern.program freshSlots index before [] none cs = none) ∨
      ∃ skipped word rest, Finds cs index before skipped word rest := by
  induction cs using runs_induction generalizing index before with
  | last run hrun =>
      have hrest : ∀ d, ([] : List Char).head? = some d → isDelimiter d = true :=
        fun d hd => absurd hd (Option.not_mem_none d)
      rw [← List.append_nil run]
      by_cases hnil : trimmed run = []
      · left
        rw [wordsIn_append hrun hrest, searchFrom_idle hrun hrest, if_pos hnil, if_pos hnil]
        exact ⟨rfl, rfl⟩
      · right
        exact ⟨_, _, finds_trimmed hrun hrest hnil index before⟩
  | step run d rest hrun hd ih =>
      have hrest : ∀ c, (d :: rest).head? = some c → isDelimiter c = true :=
        fun c hc => Option.some.inj hc ▸ hd
      by_cases hnil : trimmed run = []
      · -- Nothing is left of this run, so the search goes on behind the delimiter.
        have hwords : wordsIn (run ++ d :: rest) = wordsIn rest := by
          rw [wordsIn_append hrun hrest, if_pos hnil]
          rfl
        have hsearch : searchFrom candidatePattern.program freshSlots index before [] none
              (run ++ d :: rest)
            = searchFrom candidatePattern.program freshSlots (index + run.length + 1) (some d) []
              none rest := by
          rw [searchFrom_idle hrun hrest, if_pos hnil]
          rfl
        rcases ih (index + run.length + 1) (some d) with
          ⟨hnone, hfound⟩ | ⟨skipped, word, after, h⟩
        · left
          exact ⟨hwords.trans hnone, hsearch.trans hfound⟩
        · right
          -- The run and the delimiter are skipped with what was skipped behind them.
          refine ⟨run ++ d :: skipped, word, after, ?_, h.ne_nil, hwords.trans h.words, ?_⟩
          · rw [h.text, List.append_assoc, List.cons_append]
          · rw [hsearch, h.found, List.length_append, List.length_cons]
            have hplace : index + run.length + 1 + skipped.length
                = index + (run.length + (skipped.length + 1)) := by omega
            rw [hplace]
      · right
        exact ⟨_, _, finds_trimmed hrun hrest hnil index before⟩

theorem matchesFrom_of_found {fuel index start stop : Nat} {before : Option Char}
    {last : Option Nat} {cs : List Char} (hlt : start < stop)
    (h : searchFrom candidatePattern.program freshSlots index before [] none cs
      = some (ended start stop)) :
    matchesFrom candidatePattern.program freshSlots (fuel + 1) index before last cs
      = Match.ofSlots (ended start stop) ::
        matchesFrom candidatePattern.program freshSlots fuel stop
          ((cs.take (stop - index)).getLast? <|> before) (some stop) (cs.drop (stop - index)) := by
  have hne : ¬((decide (start = stop) && decide (last = some stop)) = true) := by
    rw [decide_eq_false (Nat.ne_of_lt hlt), Bool.false_and]
    exact Bool.false_ne_true
  conv_lhs => unfold matchesFrom
  rw [h]
  exact if_neg hne

/-- From any place on, the texts of the matches are the words of what is ahead. -/
theorem matchesFrom_eq (fuel : Nat) (passed cs : List Char) (before : Option Char)
    (last : Option Nat) (hfuel : cs.length < fuel) :
    (matchesFrom candidatePattern.program freshSlots fuel passed.length before last cs).map
        (fun m => m.whole (passed ++ cs))
      = wordsIn cs := by
  induction fuel generalizing passed cs before last with
  | zero => exact absurd hfuel (Nat.not_lt_zero _)
  | succ fuel ih =>
      rcases finds_or_none cs passed.length before with ⟨hnone, hfound⟩ | ⟨skipped, word, rest, h⟩
      · unfold matchesFrom
        rw [hfound, hnone]
        rfl
      · have hword : 0 < word.length := List.length_pos_iff.2 h.ne_nil
        have hstop : passed.length + skipped.length + word.length
            = (passed ++ skipped ++ word).length := by
          rw [List.length_append, List.length_append]
        have htext : passed ++ cs = passed ++ skipped ++ word ++ rest := by
          rw [h.text, ← List.append_assoc, ← List.append_assoc]
        -- The text of the match is the word, and the next search starts behind it.
        have hpiece : (Match.ofSlots (ended (passed.length + skipped.length)
            (passed.length + skipped.length + word.length))).whole (passed ++ cs) = word := by
          show ((passed ++ cs).drop (passed.length + skipped.length)).take
            (passed.length + skipped.length + word.length - (passed.length + skipped.length)) = _
          rw [htext, ← List.length_append, List.append_assoc, List.drop_left,
            Nat.add_sub_cancel_left, List.take_left]
        have hbehind : cs.drop (passed.length + skipped.length + word.length - passed.length)
            = rest := by
          rw [Nat.add_assoc, Nat.add_sub_cancel_left, ← List.length_append, h.text,
            ← List.append_assoc, List.drop_left]
        have hless : rest.length < fuel := by
          rw [h.text, List.length_append, List.length_append] at hfuel
          omega
        rw [matchesFrom_of_found (by omega) h.found, List.map_cons, hpiece, hbehind, h.words,
          htext, hstop, ih _ rest _ _ hless]

/-- The matches of the pattern are the words. -/
theorem matched_candidatePattern (cs : List Char) : candidatePattern.matched cs = wordsIn cs :=
  matchesFrom_eq _ [] cs none none (by omega)

/-! ### What is extracted -/

theorem isToken_empty : Token.isToken "" = false := by decide

theorem candidate_eq_ofList (run : List Char) : candidate run = String.ofList (trimmed run) := rfl

/-- The tokens of a text are those of its words. Nothing is left of the other runs, and the
    empty text is no token. -/
theorem mem_tokensIn_iff {token : String} {cs : List Char} :
    token ∈ tokensIn cs ↔
      ∃ word ∈ wordsIn cs, Token.isToken token = true ∧ String.ofList word = token := by
  rw [tokensIn, List.mem_filter, List.mem_map]
  constructor
  · rintro ⟨⟨run, hrun, rfl⟩, htoken⟩
    refine ⟨trimmed run, List.mem_filter.2 ⟨List.mem_map_of_mem hrun, ?_⟩, htoken, rfl⟩
    refine decide_eq_true fun hnil => ?_
    rw [candidate_eq_ofList, hnil, String.ofList_nil, isToken_empty] at htoken
    exact Bool.false_ne_true htoken
  · rintro ⟨word, hword, htoken, rfl⟩
    rcases List.mem_map.1 (List.mem_filter.1 hword).1 with ⟨run, hrun, rfl⟩
    exact ⟨⟨run, hrun, rfl⟩, htoken⟩

theorem mem_addToken (found : SortedSet) (word : List Char) (token : String) :
    token ∈ addToken found word ↔
      token ∈ found ∨ Token.isToken token = true ∧ String.ofList word = token := by
  unfold addToken
  dsimp only
  by_cases htoken : Token.isToken (String.ofList word) = true
  · by_cases hmem : String.ofList word ∈ found
    · -- The candidate is there already, so that nothing is added.
      rw [decide_eq_true hmem, Bool.not_true, Bool.and_false, if_neg Bool.false_ne_true]
      exact ⟨Or.inl, fun h => h.elim id fun h => h.2 ▸ hmem⟩
    · rw [decide_eq_false hmem, htoken, Bool.not_false, Bool.and_true, if_pos rfl,
        SortedSet.mem_insert, or_comm]
      refine or_congr_right ⟨fun h => ?_, fun h => h.2.symm⟩
      subst h
      exact ⟨htoken, rfl⟩
  · rw [eq_false_of_ne_true htoken, Bool.false_and, if_neg Bool.false_ne_true]
    exact ⟨Or.inl, fun h => h.elim id fun h => absurd (h.2 ▸ h.1) htoken⟩

/-- Where every step adds what belongs to its element, a run of steps adds what belongs to
    one of them. -/
theorem mem_foldl_add {α : Type} {add : SortedSet → α → SortedSet} {P : α → String → Prop}
    (hadd : ∀ found a token, token ∈ add found a ↔ token ∈ found ∨ P a token)
    (l : List α) (found : SortedSet) (token : String) :
    token ∈ l.foldl add found ↔ token ∈ found ∨ ∃ a ∈ l, P a token := by
  induction l generalizing found with
  | nil => simp only [List.foldl_nil, List.not_mem_nil, false_and, exists_false, or_false]
  | cons a l ih =>
      rw [List.foldl_cons, ih, hadd, or_assoc]
      simp only [List.mem_cons, exists_eq_or_imp]

/-- The words of a text are added one by one, and those that are no tokens are passed. -/
theorem mem_addTokens (found : SortedSet) (cs : List Char) (token : String) :
    token ∈ addTokens found cs ↔ token ∈ found ∨ token ∈ tokensIn cs := by
  rw [addTokens, matched_candidatePattern, mem_foldl_add mem_addToken, mem_tokensIn_iff]

/-- Extracting into a set adds what is extracted. -/
theorem extractInto_eq_union (e : Extractor) (text : String) (found : SortedSet) :
    e.extractInto text found = found.union (e.extract text) := by
  refine SortedSet.ext_mem fun token => ?_
  rw [SortedSet.mem_union, mem_extract_iff]
  cases e with
  | everywhere => exact mem_foldl_add mem_addTokens [text.toList] found token
  | captured p => exact mem_foldl_add mem_addTokens (p.captured text.toList) found token

theorem mem_extract_everywhere {text token : String} :
    token ∈ extract everywhere text ↔ token ∈ tokensIn text.toList :=
  SortedSet.mem_ofList _ _

/-- What is found in a whole text: the pattern of a candidate is what its text spells, and
    following it through the text finds exactly the tokens among the longest pieces without
    delimiters, less the colons at their ends. These are tokens of bounded length without
    delimiters, and they are added to what has been found before. -/
theorem everywhere_finds_trimmed_runs (text : String) :
    Pattern.parse? candidateText = some candidatePattern ∧
      extractInto everywhere text ∅ = extract everywhere text ∧
      (∀ found, extractInto everywhere text found = found.union (extract everywhere text)) ∧
      (∀ token, token ∈ extract everywhere text ↔ ∃ run, IsRun run text.toList ∧
        token = candidate run ∧ token ≠ "" ∧ Token.isToken token = true) ∧
      ∀ token ∈ extract everywhere text, Token.isToken token = true ∧
        token.utf8ByteSize ≤ 256 ∧ ∀ c ∈ token.toList, isDelimiter c = false := by
  have hiff : ∀ token, token ∈ extract everywhere text ↔ ∃ run, IsRun run text.toList ∧
      token = candidate run ∧ token ≠ "" ∧ Token.isToken token = true := by
    intro token
    rw [mem_extract_everywhere, tokensIn, List.mem_filter, List.mem_map]
    constructor
    · rintro ⟨⟨run, hrun, rfl⟩, htoken⟩
      refine ⟨run, mem_runs_iff.1 hrun, rfl, fun hempty => ?_, htoken⟩
      rw [hempty, isToken_empty] at htoken
      exact Bool.false_ne_true htoken
    · rintro ⟨run, hrun, rfl, -, htoken⟩
      exact ⟨⟨run, mem_runs_iff.2 hrun, rfl⟩, htoken⟩
  refine ⟨parse?_candidateText, ?_, extractInto_eq_union everywhere text, hiff, ?_⟩
  · rw [extractInto_eq_union]
    exact SortedSet.empty_union _
  · intro token h
    rcases (hiff token).1 h with ⟨run, hrun, rfl, -, htoken⟩
    have hsize := htoken
    rw [Token.isToken, Bool.and_eq_true, decide_eq_true_eq] at hsize
    -- The candidate is the start of a run, which has no delimiter.
    refine ⟨htoken, hsize.1, fun c hc => hrun.2 c ?_⟩
    rw [candidate_eq_ofList, String.toList_ofList] at hc
    exact (trimmed_isPrefix run).subset hc

end Extractor

end UtilityCss
