import UtilityCss.Build
import UtilityCss.Proofs.Cascade.Generated
import UtilityCss.Proofs.Containment.Plugin
import UtilityCss.Proofs.Token.Form

/-!
# From a Text to the Stylesheet

A class that a text names reaches the stylesheet.

Between a word in some file and a rule in the stylesheet there are five steps: the
text is cut into runs, each run loses its trailing colons, the tokens of all texts are
put into one set, every token is resolved, and the rules are sorted. None of them
loses a token that has a rule. A word between two delimiters is a run of its own,
whatever stands around it; a token does not end in a colon; uniting sets only adds;
and of rules with different selectors sorting drops none.

Where an extractor has a pattern, only the captured pieces are cut, and the word must
stand between delimiters of one of these.

## Main definitions

* `Extractor.StandsIn`: A word between two delimiters of a text.
* `Extractor.scanned`: The pieces of a text that an extractor cuts into runs.

## Theorems

* `runs_append_delimiter`: A delimiter cuts a text in two.
* `mem_runs_of_standsIn`: A word between delimiters is a run.
* `tokensIn_append_delimiter`: A delimiter separates the tokens of a text.
* `mem_extract_of_standsIn`: A token between delimiters is extracted.
* `mem_scan_iff`: What is found is what is extracted from the pieces of content.
* `Build.run_eq_ok_iff`: When there is a build, and what it is made of.
* `Build.exists_run`: The rule of a token that is found is in the stylesheet.
-/

namespace UtilityCss

namespace Extractor

/-- The word stands between two delimiters of the text, or at an end of it. -/
def StandsIn (word cs : List Char) : Prop :=
  ∃ before after, cs = before ++ (word ++ after) ∧
    (∀ c, before.getLast? = some c → isDelimiter c = true) ∧
    ∀ c, after.head? = some c → isDelimiter c = true

/-- The pieces of a text that are cut into runs: the text, or what a pattern captures
    in it. -/
def scanned (e : Extractor) (text : String) : List (List Char) :=
  match e with
  | everywhere => [text.toList]
  | captured p => p.captured text.toList

/-! ### Runs -/

theorem isDelimiter_eq_false_of_all {cs : List Char}
    (h : cs.all (fun c => !isDelimiter c) = true) : ∀ c ∈ cs, isDelimiter c = false := by
  intro c hc
  have hc' := List.all_eq_true.1 h c hc
  rwa [Bool.not_eq_true'] at hc'

theorem runs_ne_nil (cs : List Char) : runs cs ≠ [] := by
  cases cs with
  | nil => exact List.cons_ne_nil _ _
  | cons c cs =>
      rw [runs]
      split
      · exact List.cons_ne_nil _ _
      · split <;> exact List.cons_ne_nil _ _

/-- A delimiter cuts a text in two. -/
theorem runs_append_delimiter {d : Char} (hd : isDelimiter d = true) (cs rest : List Char) :
    runs (cs ++ d :: rest) = runs cs ++ runs rest := by
  induction cs with
  | nil => exact if_pos hd
  | cons c cs ih =>
      rw [List.cons_append, runs, runs, ih]
      by_cases hc : isDelimiter c = true
      · rw [if_pos hc, if_pos hc, List.cons_append]
      · rw [if_neg hc, if_neg hc]
        -- The character goes into the first run, which is one of the first text.
        cases hruns : runs cs with
        | nil => exact absurd hruns (runs_ne_nil cs)
        | cons run runs => rfl

theorem runs_eq_singleton {cs : List Char} (h : ∀ c ∈ cs, isDelimiter c = false) :
    runs cs = [cs] := by
  induction cs with
  | nil => rfl
  | cons c cs ih =>
      rw [runs, h c List.mem_cons_self, if_neg Bool.false_ne_true,
        ih fun d hd => h d (List.mem_cons_of_mem _ hd)]

/-- A word between delimiters is a run. -/
theorem mem_runs_of_standsIn {word cs : List Char} (hword : ∀ c ∈ word, isDelimiter c = false)
    (h : StandsIn word cs) : word ∈ runs cs := by
  rcases h with ⟨before, after, rfl, hbefore, hafter⟩
  -- What follows the word is cut off first, then what precedes it.
  have hrest : word ∈ runs (word ++ after) := by
    cases after with
    | nil =>
        rw [List.append_nil, runs_eq_singleton hword]
        exact List.mem_singleton_self word
    | cons d after =>
        rw [runs_append_delimiter (hafter d rfl), runs_eq_singleton hword]
        exact List.mem_cons_self
  rcases List.eq_nil_or_concat before with rfl | ⟨front, d, rfl⟩
  · exact hrest
  · have hd : isDelimiter d = true := by
      refine hbefore d ?_
      rw [List.concat_eq_append, List.getLast?_concat]
    rw [List.concat_eq_append, List.append_assoc, List.singleton_append,
      runs_append_delimiter hd]
    exact List.mem_append_right _ hrest

/-! ### Tokens -/

theorem candidate_eq {run : List Char} (h : run.getLast? ≠ some ':') :
    candidate run = String.ofList run := by
  unfold candidate Text.dropEndWhile
  have hhead : run.reverse.dropWhile (fun c => decide (c = ':')) = run.reverse := by
    cases hrun : run.reverse with
    | nil => rfl
    | cons c cs =>
        have hc : c ≠ ':' := by
          rintro rfl
          rw [← List.head?_reverse, hrun] at h
          exact h rfl
        rw [List.dropWhile_cons_of_neg (by rw [decide_eq_true_eq]; exact hc)]
  rw [hhead, List.reverse_reverse]

/-- A delimiter separates the tokens of a text. -/
theorem tokensIn_append_delimiter {d : Char} (hd : isDelimiter d = true) (cs rest : List Char) :
    tokensIn (cs ++ d :: rest) = tokensIn cs ++ tokensIn rest := by
  rw [tokensIn, runs_append_delimiter hd, List.map_append, List.filter_append, tokensIn, tokensIn]

theorem mem_extract_iff {e : Extractor} {text token : String} :
    token ∈ e.extract text ↔ ∃ piece ∈ e.scanned text, token ∈ tokensIn piece := by
  cases e with
  | everywhere =>
      rw [extract, SortedSet.mem_ofList]
      exact ⟨fun h => ⟨_, List.mem_singleton_self _, h⟩,
        fun ⟨piece, hpiece, h⟩ => List.mem_singleton.1 hpiece ▸ h⟩
  | captured p => rw [extract, SortedSet.mem_ofList, List.mem_flatMap, scanned]

theorem isToken_of_mem_extract {e : Extractor} {text token : String}
    (h : token ∈ e.extract text) : Token.isToken token = true := by
  rcases mem_extract_iff.1 h with ⟨piece, -, hpiece⟩
  exact (List.mem_filter.1 hpiece).2

/-- A token between delimiters is extracted. -/
theorem mem_extract_of_standsIn {e : Extractor} {text token : String}
    (htoken : Token.isToken token = true)
    (hword : ∀ c ∈ token.toList, isDelimiter c = false) {piece : List Char}
    (hpiece : piece ∈ e.scanned text) (h : StandsIn token.toList piece) :
    token ∈ e.extract text := by
  have hcandidate : candidate token.toList = token := by
    rw [candidate_eq (Token.getLast?_ne_of_isToken htoken), String.ofList_toList]
  refine mem_extract_iff.2 ⟨piece, hpiece, List.mem_filter.2 ⟨?_, htoken⟩⟩
  exact List.mem_map.2 ⟨_, mem_runs_of_standsIn hword h, hcandidate⟩

end Extractor

/-! ### Content -/

/-- The tokens of several pieces are those of each of them. -/
theorem Findings.mem_tokens_mergeAll {token : String} {parts : List Findings} :
    token ∈ (mergeAll parts).tokens ↔ ∃ part ∈ parts, token ∈ part.tokens := by
  -- Whatever has been found so far stays, and every part is merged at some point.
  have hfold : ∀ (parts : List Findings) (found : Findings),
      token ∈ (parts.foldl merge found).tokens ↔
        token ∈ found.tokens ∨ ∃ part ∈ parts, token ∈ part.tokens := by
    intro parts
    induction parts with
    | nil =>
        intro found
        simp only [List.foldl_nil, List.not_mem_nil, false_and, exists_false, or_false]
    | cons next parts ih =>
        intro found
        rw [List.foldl_cons, ih, merge_eq, SortedSet.mem_union, or_assoc]
        simp only [List.mem_cons, exists_eq_or_imp]
  rw [mergeAll, hfold]
  have hempty : ¬token ∈ empty.tokens := List.not_mem_nil
  simp only [hempty, false_or]

/-- Remarks keep the order of the pieces. -/
theorem Findings.diagnostics_mergeAll (parts : List Findings) :
    (mergeAll parts).diagnostics = parts.flatMap diagnostics := by
  have hfold : ∀ (parts : List Findings) (found : Findings),
      (parts.foldl merge found).diagnostics
        = found.diagnostics ++ parts.flatMap diagnostics := by
    intro parts
    induction parts with
    | nil =>
        intro found
        rw [List.foldl_nil, List.flatMap_nil, List.append_nil]
    | cons next parts ih =>
        intro found
        rw [List.foldl_cons, ih, merge_eq, List.flatMap_cons, List.append_assoc]
  exact hfold parts empty

/-- What is found is extracted from a piece of content that could be read. -/
theorem Selection.mem_scan_iff {tree : FileTree} {sel : Selection} {token : String} :
    token ∈ (sel.scan tree).tokens ↔
      ∃ item ∈ sel.items, ∃ text, item.read tree = .ok text ∧
        token ∈ item.extractor.extract text := by
  rw [scan, Findings.mem_tokens_mergeAll]
  simp only [List.mem_map, exists_exists_and_eq_and]
  refine exists_congr fun item => and_congr_right fun _ => ?_
  unfold ContentItem.scan
  rcases item.read tree with e | text
  · simp only [reduceCtorEq, false_and, exists_false, iff_false]
    exact List.not_mem_nil
  · simp only [Except.ok.injEq, exists_eq_left']

/-- What is extracted from a piece of content is found. -/
theorem Selection.mem_scan {tree : FileTree} {sel : Selection} {item : ContentItem}
    (hitem : item ∈ sel.items) {text token : String} (htext : item.read tree = .ok text)
    (h : token ∈ item.extractor.extract text) : token ∈ (sel.scan tree).tokens :=
  mem_scan_iff.2 ⟨item, hitem, text, htext, h⟩

theorem Selection.isToken_of_mem_scan {tree : FileTree} {sel : Selection} {token : String}
    (h : token ∈ (sel.scan tree).tokens) : Token.isToken token = true := by
  rcases mem_scan_iff.1 h with ⟨item, -, text, -, hextract⟩
  exact Extractor.isToken_of_mem_extract hextract

/-! ### Stylesheets -/

theorem Design.mem_assemble {d : Design} (hd : d.grammar.Reachable) {tokens : SortedSet}
    {token : String} (ht : token ∈ tokens) {r : Rule} (hr : d.ruleOf? token = some r)
    (preflight : Bool) :
    r ∈ (Stylesheet.assemble preflight (d.resolveAll tokens).1).rules := by
  have hmem : r ∈ (d.resolveAll tokens).1 := (mem_resolveAll d tokens).2 ⟨token, ht, hr⟩
  have hrules : r ∈ (Stylesheet.ofRules (d.resolveAll tokens).1).rules :=
    (Stylesheet.ofRules_perm (distinct_resolveAll d tokens)).mem_iff.2 hmem
  cases preflight with
  | false => exact hrules
  | true =>
      rw [Stylesheet.assemble, if_pos rfl, rules_ofRules_resets hd (List.Perm.refl _)]
      exact List.mem_append_right _ hrules

/-- A build comes from a design and its content; nothing can end it once it has these. -/
theorem Build.run_eq_ok_iff {tree : FileTree} {root : String} {config : Config} {b : Build} :
    run tree root config = .ok b ↔
      ∃ d sel, Design.ofConfig config = .ok d ∧ Content.resolve tree root config = .ok sel ∧
        ofFindings config d (sel.diagnostics ++ if config.content.isEmpty then [noContent] else [])
          (sel.scan tree) = b := by
  unfold run
  constructor
  · intro h
    rcases bind_eq_ok h with ⟨d, hd, h⟩
    rcases bind_eq_ok h with ⟨sel, hsel, h⟩
    exact ⟨d, sel, hd, hsel, Except.ok.inj h⟩
  · rintro ⟨d, sel, hd, hsel, rfl⟩
    rw [hd]
    show Content.resolve tree root config >>= _ = _
    rw [hsel]
    rfl

/-- The rule of a token that is found is in the stylesheet. There is a stylesheet, because
    nothing can end a build once it has a design and its content. -/
theorem Build.exists_run {tree : FileTree} {root : String} {config : Config} {d : Design}
    (hd : Design.ofConfig config = .ok d) (hreachable : d.grammar.Reachable) {sel : Selection}
    (hsel : Content.resolve tree root config = .ok sel) {token : String}
    (ht : token ∈ (sel.scan tree).tokens) {r : Rule} (hr : d.ruleOf? token = some r) :
    ∃ (build : Build) (sheet : Stylesheet), run tree root config = .ok build ∧
      build.stylesheet = sheet.toText config.minify ∧ r ∈ sheet.rules := by
  have hmem := Design.mem_assemble hreachable ht hr config.preflight
  exact ⟨_, _, run_eq_ok_iff.2 ⟨d, sel, hd, hsel, rfl⟩, rfl, hmem⟩

end UtilityCss
