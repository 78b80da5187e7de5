import UtilityCss.Proofs.Stylesheet.Legible

/-!
# What a Build Accounts For

The report of a build agrees with its stylesheet.

A build counts the rules before it sorts them and drops those that coincide, and what it
counts is not what it writes. Nothing is dropped: two rules with one selector would come
from one token, and a set holds a token once. So each token that was scanned has its
rule in the stylesheet or is listed as one without a rule, and the counts are those of
the two lists. The number of rules is also the number that a reader of the text finds
there apart from the resets, which a generated rule is never mistaken for, because its
selector has a class.

Remarks are made in the order of the work. First come those on walking, entry by entry
and pattern by pattern, then the one on a configuration without content, then those on
files that could not be read, in the order of the files. All of these are warnings. The
information about tokens without a rule comes last, once, if there are such tokens.

## Main definitions

* `Entry.isEmitted`: A rule that was read and is no reset.
* `Content.remarksOn`: The remarks on walking through what a pattern stands for.
* `Build.Accounts`: Tokens, rules and counts agree.
* `Build.Remarks`: The remarks of a build, in order.

## Theorems

* `diagnostics_of_resolve`: The remarks on content are those on its patterns, in order.
* `length_resolveAll`: A token has a rule or is listed.
* `accounts_ofFindings`: A build accounts for every token.
* `accounts_of_run`: So does every build that succeeds, with its remarks in order.
-/

namespace UtilityCss

/-- A rule that was read and is no reset. -/
def Entry.isEmitted (e : Entry) : Bool :=
  !Preflight.resets.any fun reset => reset.1 = e.selector

/-! ### Remarks on content -/

namespace Content

/-- The patterns of an entry. -/
def patternsOf : ContentEntry → List String
  | .glob pattern => [pattern]
  | .files patterns _ => patterns
  | .raw _ _ => []

/-- The remarks on walking through what a pattern stands for: what cannot be walked, in
    the order of the walk, and that there is nothing to scan. -/
def remarksOn (s : Scope) (pattern : String) : List Diagnostic :=
  let meant := normalize s.tree s.root pattern
  match globOf meant with
  | .ok g =>
    (s.errors meant g).map unreadable
      ++ (if (s.files meant g).isEmpty then [emptyPattern meant] else [])
  | .error _ => []

theorem diagnostics_foldl_addFile (s : Scope) (extractor : Nat) (paths : List String)
    (sel : Selection) :
    (paths.foldl (addFile s extractor) sel).diagnostics = sel.diagnostics := by
  induction paths generalizing sel with
  | nil => rfl
  | cons path paths ih =>
      rw [List.foldl_cons, ih, addFile]
      split <;> rfl

theorem diagnostics_of_addPattern {s : Scope} {extractor : Nat} {sel sel' : Selection}
    {pattern : String} (h : addPattern s extractor sel pattern = .ok sel') :
    sel'.diagnostics = sel.diagnostics ++ remarksOn s pattern := by
  unfold addPattern at h
  dsimp only at h
  rcases bind_eq_ok h with ⟨g, hg, h⟩
  unfold remarksOn
  dsimp only
  rw [← Except.ok.inj h, diagnostics_foldl_addFile, hg]

-- Going through a list of steps collects the remarks of each step.
theorem diagnostics_of_foldlM {α : Type} {add : Selection → α → Except BuildError Selection}
    {remarks : α → List Diagnostic}
    (hadd : ∀ sel sel' a, add sel a = .ok sel' → sel'.diagnostics = sel.diagnostics ++ remarks a)
    {as : List α} {sel sel' : Selection} (h : as.foldlM add sel = .ok sel') :
    sel'.diagnostics = sel.diagnostics ++ as.flatMap remarks := by
  induction as generalizing sel with
  | nil =>
      rw [← Except.ok.inj h, List.flatMap_nil, List.append_nil]
  | cons a as ih =>
      rw [List.foldlM_cons] at h
      rcases bind_eq_ok h with ⟨next, hnext, h⟩
      rw [ih h, hadd _ _ _ hnext, List.flatMap_cons, List.append_assoc]

theorem diagnostics_of_addEntry {s : Scope} {sel sel' : Selection} {entry : ContentEntry}
    (h : addEntry s sel entry = .ok sel') :
    sel'.diagnostics = sel.diagnostics ++ (patternsOf entry).flatMap (remarksOn s) := by
  cases entry with
  | glob pattern =>
      rw [addEntry] at h
      rw [diagnostics_of_addPattern h, patternsOf, List.flatMap_singleton]
  | files patterns extract =>
      unfold addEntry at h
      rcases bind_eq_ok h with ⟨⟨next, position⟩, hadd, h⟩
      -- The extractor comes without a remark.
      rcases of_addExtractor hadd with ⟨-, more, rfl⟩
      have hadded := diagnostics_of_foldlM (fun _ _ _ hstep => diagnostics_of_addPattern hstep) h
      exact hadded
  | raw text extension =>
      rw [← Except.ok.inj h, patternsOf, List.flatMap_nil, List.append_nil]

/-- The remarks on content are those on its patterns, in order. -/
theorem diagnostics_of_resolve {tree : FileTree} {root : String} {config : Config}
    {sel : Selection} (h : resolve tree root config = .ok sel) :
    ∃ exclude, config.exclude.mapM (fun pattern => globOf (withoutHere pattern)) = .ok exclude ∧
      sel.diagnostics
        = (config.content.flatMap patternsOf).flatMap (remarksOn ⟨tree, root, exclude⟩) := by
  unfold resolve at h
  rcases bind_eq_ok h with ⟨exclude, hexclude, h⟩
  refine ⟨exclude, hexclude, ?_⟩
  rw [diagnostics_of_foldlM (fun _ _ _ hstep => diagnostics_of_addEntry hstep) h,
    List.flatMap_assoc]
  exact List.nil_append _

-- No other remark has the code of the one on tokens without a rule.
theorem codes_ne_unresolved :
    DiagnosticCode.unreadable ≠ DiagnosticCode.unresolved ∧
      DiagnosticCode.emptyPattern ≠ DiagnosticCode.unresolved ∧
      DiagnosticCode.noContent ≠ DiagnosticCode.unresolved := by decide

theorem isWarning_of_mem_remarksOn {s : Scope} {pattern : String} {x : Diagnostic}
    (h : x ∈ remarksOn s pattern) :
    x.severity = .warning ∧ x.code ≠ DiagnosticCode.unresolved := by
  unfold remarksOn at h
  dsimp only at h
  split at h
  · rcases List.mem_append.1 h with h | h
    · rcases List.mem_map.1 h with ⟨e, -, rfl⟩
      exact ⟨rfl, codes_ne_unresolved.1⟩
    · split at h
      · rw [List.mem_singleton.1 h]
        exact ⟨rfl, codes_ne_unresolved.2.1⟩
      · exact absurd h List.not_mem_nil
  · exact absurd h List.not_mem_nil

end Content

theorem ContentItem.isWarning_of_mem_scan {tree : FileTree} {item : ContentItem} {x : Diagnostic}
    (h : x ∈ (item.scan tree).diagnostics) :
    x.severity = .warning ∧ x.code ≠ DiagnosticCode.unresolved := by
  unfold scan at h
  split at h
  · exact absurd h List.not_mem_nil
  · rw [List.mem_singleton.1 h]
    exact ⟨rfl, Content.codes_ne_unresolved.1⟩

theorem Selection.diagnostics_scan (tree : FileTree) (sel : Selection) :
    (sel.scan tree).diagnostics = sel.items.flatMap fun item => (item.scan tree).diagnostics := by
  rw [scan, Findings.diagnostics_mergeAll, List.flatMap_map]

/-! ### Tokens and rules -/

namespace Design

variable (d : Design) (tokens : SortedSet)

/-- A token has a rule or is listed. -/
theorem length_resolveAll :
    (d.resolveAll tokens).1.length + (d.resolveAll tokens).2.size = tokens.size := by
  have hlist : ∀ l : List String,
      (l.filterMap d.ruleOf?).length + (l.filter fun token => (d.ruleOf? token).isNone).length
        = l.length := by
    intro l
    induction l with
    | nil => rfl
    | cons token l ih =>
        rcases hr : d.ruleOf? token with _ | r
        · rw [List.filterMap_cons_none hr, List.filter_cons_of_pos (by rw [hr]; rfl),
            List.length_cons, List.length_cons, ← ih, Nat.add_assoc]
        · rw [List.filterMap_cons_some hr,
            List.filter_cons_of_neg (by rw [hr]; exact Bool.false_ne_true), List.length_cons,
            List.length_cons, ← ih, Nat.add_right_comm]
  exact hlist tokens.toList

theorem mem_resolveAll_snd {token : String} :
    token ∈ (d.resolveAll tokens).2 ↔ token ∈ tokens ∧ d.ruleOf? token = none := by
  show token ∈ tokens.filter _ ↔ _
  rw [SortedSet.mem_filter, Option.isNone_iff_eq_none]

end Design

/-! ### Builds -/

namespace Build

/-- Tokens, rules and counts agree: of a build, the tokens that were scanned, the rules
    emitted for them, and the rules that are read in the stylesheet. -/
structure Accounts (b : Build) (tokens : SortedSet) (emitted : List Rule) (entries : List Entry) :
    Prop where
  /-- A token is listed as one without a rule, or it has a rule, but not both. -/
  eitherOne : ∀ token ∈ tokens, token ∈ b.report.unresolved ↔ token ∉ emitted.map Rule.token
  /-- Nothing else is listed or has a rule. -/
  nothingElse : ∀ token, token ∈ b.report.unresolved ∨ token ∈ emitted.map Rule.token →
    token ∈ tokens
  /-- The candidates are the tokens. -/
  scanned : b.report.candidateTokens = tokens.size
  /-- Each candidate is counted as a rule or as a token without one. -/
  candidates : b.report.candidateTokens = b.report.rulesEmitted + b.report.unresolvedTokens
  /-- Tokens without a rule are counted as they are listed. -/
  unresolved : b.report.unresolvedTokens = b.report.unresolved.size
  /-- The emitted rules are what is read in the stylesheet apart from the resets. -/
  written : entries.filter Entry.isEmitted = emitted.map fun r => r.trimmed.entry
  /-- They are counted as they are read. -/
  rules : b.report.rulesEmitted = (entries.filter Entry.isEmitted).length

/-- The remarks of a build come after some others, which are all warnings: one piece of
    information on tokens without a rule if there are any, and none otherwise. -/
structure Remarks (b : Build) (before : List Diagnostic) : Prop where
  /-- The information comes last. -/
  order : b.report.diagnostics
    = before ++
      if b.report.unresolved.isEmpty then [] else [unresolvedTokens b.report.unresolved.size]
  /-- Everything before it is a warning, on something else. -/
  warnings : ∀ x ∈ before, x.severity = .warning ∧ x.code ≠ DiagnosticCode.unresolved
  /-- There is one such piece of information at most. -/
  count : Diagnostic.countOf DiagnosticCode.unresolved b.report.diagnostics
    = if b.report.unresolved.isEmpty then 0 else 1

-- A generated rule has a class in its selector, and a reset has none.
theorem filter_isEmitted {d : Design} {tokens : SortedSet} {emitted : List Rule}
    (hemitted : emitted.Perm (d.resolveAll tokens).1) (preflight : Bool) :
    ((if preflight then Preflight.rules.map Rule.entry else [])
        ++ emitted.map fun r => r.trimmed.entry).filter Entry.isEmitted
      = emitted.map fun r => r.trimmed.entry := by
  have hresets : (if preflight then Preflight.rules.map Rule.entry else []).filter Entry.isEmitted
      = [] := by
    cases preflight <;> decide
  -- No reset is for a class.
  have hnames : ∀ reset ∈ Preflight.resets, '.' ∉ reset.1.toList := by decide
  rw [List.filter_append, hresets, List.nil_append, List.filter_eq_self]
  intro e he
  rcases List.mem_map.1 he with ⟨r, hr, rfl⟩
  rcases (Design.mem_resolveAll d tokens).1 (hemitted.mem_iff.1 hr) with ⟨token, -, htoken⟩
  rw [Entry.isEmitted, Bool.not_eq_true', List.any_eq_false]
  intro reset hreset heq
  refine hnames reset hreset ?_
  have hdot : '.' ∈ r.selector.toList := Selector.dot_mem_selector htoken
  rw [of_decide_eq_true heq]
  exact hdot

/-- A build accounts for every token. -/
theorem accounts_ofFindings {config : Config} {d : Design} (hd : Design.ofConfig config = .ok d)
    (before : List Diagnostic) {found : Findings}
    (hfound : ∀ token ∈ found.tokens, Token.isToken token = true) :
    ∃ emitted entries, emitted.Perm (d.resolveAll found.tokens).1 ∧
      Outline.read (ofFindings config d before found).stylesheet = some entries ∧
      (ofFindings config d before found).Accounts found.tokens emitted entries := by
  have hperm := Stylesheet.ofRules_perm (Design.distinct_resolveAll d found.tokens)
  have hread := Design.read_assemble hd hfound config.preflight config.minify
  have hlength := d.length_resolveAll found.tokens
  have hfilter := filter_isEmitted hperm config.preflight
  -- A rule is the rule of its token.
  have htokens : ∀ token, token ∈ (Stylesheet.ofRules (d.resolveAll found.tokens).1).rules.map
      Rule.token ↔ token ∈ found.tokens ∧ d.ruleOf? token ≠ none := by
    intro token
    rw [List.mem_map]
    constructor
    · rintro ⟨r, hr, rfl⟩
      rcases (d.mem_resolveAll found.tokens).1 (hperm.mem_iff.1 hr) with ⟨token, ht, htoken⟩
      have hsame : r.token = token := Rule.token_of_ofToken? htoken
      rw [hsame, htoken]
      exact ⟨ht, Option.some_ne_none r⟩
    · rintro ⟨ht, hne⟩
      rcases Option.ne_none_iff_exists'.1 hne with ⟨r, hr⟩
      have hmem := (d.mem_resolveAll found.tokens).2 ⟨token, ht, hr⟩
      exact ⟨r, hperm.mem_iff.2 hmem, Rule.token_of_ofToken? hr⟩
  refine ⟨_, _, hperm, hread, ?_⟩
  constructor
  case eitherOne =>
    intro token ht
    rw [htokens, not_and, not_ne_iff]
    exact (d.mem_resolveAll_snd found.tokens).trans
      ⟨fun h _ => h.2, fun h => ⟨ht, h ht⟩⟩
  case nothingElse =>
    rintro token (h | h)
    · exact ((d.mem_resolveAll_snd found.tokens).1 h).1
    · exact ((htokens token).1 h).1
  case scanned =>
    rfl
  case candidates =>
    exact hlength.symm
  case unresolved =>
    rfl
  case written =>
    exact hfilter
  case rules =>
    rw [hfilter, List.length_map, hperm.length_eq]
    rfl

theorem countOf_unresolved {before : List Diagnostic}
    (hbefore : ∀ x ∈ before, x.severity = .warning ∧ x.code ≠ DiagnosticCode.unresolved)
    (none : Bool) (count : Nat) :
    Diagnostic.countOf DiagnosticCode.unresolved
        (before ++ if none then [] else [unresolvedTokens count])
      = if none then 0 else 1 := by
  have hnone : Diagnostic.countOf DiagnosticCode.unresolved before = 0 := by
    rw [Diagnostic.countOf, List.countP_eq_zero]
    intro x hx hcode
    exact (hbefore x hx).2 (of_decide_eq_true hcode)
  rw [Diagnostic.countOf] at hnone ⊢
  rw [List.countP_append, hnone, Nat.zero_add]
  cases none <;> rfl

theorem remarks_ofFindings {config : Config} {d : Design} {before : List Diagnostic}
    {found : Findings} (hbefore : ∀ x ∈ before ++ found.diagnostics,
      x.severity = .warning ∧ x.code ≠ DiagnosticCode.unresolved) :
    (ofFindings config d before found).Remarks (before ++ found.diagnostics) where
  order := rfl
  warnings := hbefore
  count := countOf_unresolved hbefore _ _

/-- A build that succeeds accounts for every token that was scanned: with a rule in the
    stylesheet, or among those without one. Its counts are those of its lists and of the
    rules that can be read in its stylesheet, and its remarks are made in the order of the
    work: on the patterns of each entry, on a configuration without content, on files that
    cannot be read, and last on the tokens without a rule, if there are any. -/
theorem accounts_of_run {tree : FileTree} {root : String} {config : Config} {b : Build}
    (h : run tree root config = .ok b) :
    ∃ d sel exclude emitted entries,
      Design.ofConfig config = .ok d ∧
      Content.resolve tree root config = .ok sel ∧
      config.exclude.mapM (fun pattern => Content.globOf (Content.withoutHere pattern))
        = .ok exclude ∧
      emitted.Perm (d.resolveAll (sel.scan tree).tokens).1 ∧
      Outline.read b.stylesheet = some entries ∧
      b.Accounts (sel.scan tree).tokens emitted entries ∧
      b.Remarks
        ((config.content.flatMap Content.patternsOf).flatMap
            (Content.remarksOn ⟨tree, root, exclude⟩)
          ++ (if config.content.isEmpty then [noContent] else [])
          ++ sel.items.flatMap fun item => (item.scan tree).diagnostics) := by
  rcases run_eq_ok_iff.1 h with ⟨d, sel, hd, hsel, h⟩
  rcases Content.diagnostics_of_resolve hsel with ⟨exclude, hexclude, hwalk⟩
  rw [hwalk] at h
  have hscanned : ∀ token ∈ (sel.scan tree).tokens, Token.isToken token = true := fun _ ht =>
    Selection.isToken_of_mem_scan ht
  rcases accounts_ofFindings hd _ hscanned with ⟨emitted, entries, hemitted, hread, haccounts⟩
  rw [← h]
  refine ⟨d, sel, exclude, emitted, entries, hd, hsel, hexclude, hemitted, hread, haccounts, ?_⟩
  rw [← Selection.diagnostics_scan]
  -- All remarks before the last are warnings, wherever they come from.
  refine remarks_ofFindings fun x hx => ?_
  rcases List.mem_append.1 hx with hx | hx
  · rcases List.mem_append.1 hx with hx | hx
    · rcases List.mem_flatMap.1 hx with ⟨pattern, -, hx⟩
      exact Content.isWarning_of_mem_remarksOn hx
    · split at hx
      · rw [List.mem_singleton.1 hx]
        exact ⟨rfl, Content.codes_ne_unresolved.2.2⟩
      · exact absurd hx List.not_mem_nil
  · rw [Selection.diagnostics_scan] at hx
    rcases List.mem_flatMap.1 hx with ⟨item, -, hx⟩
    exact ContentItem.isWarning_of_mem_scan hx

/-- A configuration whose only text has a word that is no class. -/
def withWord : Config := { Config.default with content := [.raw "flex of" none] }

/-- The tokens of the text. -/
def wordTokens : SortedSet := ⟨["flex", "of"], by decide⟩

/-- Theme and grammar of the configuration. -/
def wordDesign : Design := ⟨Theme.default, Grammar.default.withDarkMode .media⟩

theorem ruleOf?_wordTokens :
    (wordDesign.ruleOf? "flex").isSome = true ∧ (wordDesign.ruleOf? "of").isNone = true := by
  decide +kernel

/-- One of the two tokens has a rule, the other one is listed and remarked on. -/
theorem accounts_of_run_withWord :
    ∃ b emitted entries, run default "" withWord = .ok b ∧
      Outline.read b.stylesheet = some entries ∧ b.Accounts wordTokens emitted entries ∧
      b.Remarks [] ∧ b.report.rulesEmitted = 1 ∧ b.report.unresolved.toList = ["of"] := by
  let sel : Selection := ⟨[⟨.text 0, 0⟩], ["flex of"], [.everywhere], [], []⟩
  have hitems : sel.items = [⟨.raw 1 "flex of", .everywhere⟩] := rfl
  have htext : Extractor.tokensIn "flex of".toList = ["flex", "of"] := by decide
  have htokens : (sel.scan default).tokens = wordTokens := by
    refine SortedSet.ext_mem fun token => ?_
    simp only [Selection.mem_scan_iff, hitems, List.mem_singleton, exists_eq_left, ContentItem.read,
      Except.ok.injEq, exists_eq_left', Extractor.extract, SortedSet.mem_ofList, htext]
    exact Iff.rfl
  rcases Option.isSome_iff_exists.1 ruleOf?_wordTokens.1 with ⟨r, hr⟩
  have hnone := Option.isNone_iff_eq_none.1 ruleOf?_wordTokens.2
  have hrules : wordTokens.toList.filterMap wordDesign.ruleOf? = [r] := by
    rw [wordTokens, List.filterMap_cons_some hr, List.filterMap_cons_none hnone, List.filterMap_nil]
  have hrest : wordTokens.toList.filter (fun token => (wordDesign.ruleOf? token).isNone)
      = ["of"] := by
    simp only [wordTokens, List.filter_cons, hr, hnone, Option.isNone_some, Option.isNone_none,
      if_true, Bool.false_eq_true, if_false, List.filter_nil]
  have hsel : Content.resolve default "" withWord = .ok sel := rfl
  -- The general statement speaks of some selection, and there is but one.
  have hrun := run_eq_ok_iff.2 ⟨wordDesign, sel, rfl, hsel, rfl⟩
  rcases accounts_of_run hrun with
    ⟨d', sel', exclude, emitted, entries, -, hsel', -, -, hread, haccounts, hremarks⟩
  have hsame : sel' = sel := Except.ok.inj (hsel'.symm.trans hsel)
  rw [hsame, htokens] at haccounts
  rw [hsame] at hremarks
  refine ⟨_, emitted, entries, hrun, hread, haccounts, hremarks, ?_, ?_⟩
  · show (wordDesign.resolveAll (sel.scan default).tokens).1.length = 1
    rw [htokens, Design.resolveAll, hrules]
    rfl
  · show (wordDesign.resolveAll (sel.scan default).tokens).2.toList = ["of"]
    simp only [htokens, Design.resolveAll, SortedSet.toList_filter, hrest]

end Build

end UtilityCss
