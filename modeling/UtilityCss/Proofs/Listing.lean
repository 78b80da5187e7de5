import UtilityCss.Proofs.Accounting
import UtilityCss.Proofs.Repetition
import UtilityCss.Proofs.Text.Pieces

/-!
# What a Scan Lists

The lists of a scan agree with the build of the same project.

A scan goes through the same work as a build, but in another order. It looks for the content
first and has its tokens before it knows about a theme, and it comes to the theme and the
plugins only if it is asked for the tokens without a rule. So it may stop at another fault
than the build does, if the project has several. It stops at none exactly if the build stops
at none: both need the design and the content, neither of which depends on the other, and
nothing that comes after them can fail.

What is printed is one text, and the tokens are its lines. No token has a line break in it,
so the lines that are read are the tokens that were listed.

Tokens that the one scan lists and the other one does not are those with a rule. That is said
of the stylesheet and not of a list kept next to it: the rules are what is read in the text,
and each of them is the rule of its token.

## Main definitions

* `Outcome.lines`: The lines that a command prints.
* `ScanCommand.Lists`: A scan succeeds and lists some tokens.
* `Build.Emits`: The rules in a stylesheet, apart from the resets.
* `ScanCommand.Agrees`: What scans list and what a build makes of a project agree.

## Theorems

* `split_lines`: Lines that are ended one by one are read back.
* `lists_of_listed`: A scan prints the tokens that it lists.
* `error_run_unresolved`, `Build.run_eq`: The orders of the work.
* `map_token_resolveAll`: The rules of tokens are those of the tokens that are not listed.
* `agrees_of_choose`: Scans and builds agree on every project.
-/

namespace UtilityCss

/-- The lines that a command prints. Each of them is ended, so the last piece is none. -/
def Outcome.lines (o : Outcome) : List String := (Text.split '\n' o.printed).dropLast

/-- A stylesheet has some rules, in their order: they are what is read in its text apart
    from the resets, and each is the rule of its token. -/
structure Build.Emits (b : Build) (d : Design) (emitted : List Rule) : Prop where
  written : ∃ entries, Outline.read b.stylesheet = some entries ∧
    entries.filter Entry.isEmitted = emitted.map fun r => r.trimmed.entry
  ofToken : ∀ r ∈ emitted, d.ruleOf? r.token = some r

namespace ScanCommand

/-- A scan succeeds and lists some tokens. -/
structure Lists (c : ScanCommand) (t : FileTree) (tokens : List String) : Prop where
  succeeds : (c.run t).error = none
  /-- Each token is printed on a line of its own. -/
  printed : (c.run t).printed = String.join (tokens.map (· ++ "\n"))
  /-- The lines that are read are the tokens. -/
  lines : (c.run t).lines = tokens
  /-- They ascend, so none is repeated. -/
  ascending : tokens.Pairwise (· < ·)

/-- What scans list and what a build makes of a project agree. -/
structure Agrees (c : ScanCommand) (t : FileTree) (config : Config) : Prop where
  /-- Listing the tokens without a rule succeeds exactly if the build does. -/
  succeeds : (run { c with unresolved := true } t).error = none ↔
    ∃ b, Build.run t c.root config = .ok b
  /-- If it fails, so does the build, and over the same fault, unless there is one in the
      theme or the plugins and another one in the content. -/
  fails : ∀ e, (run { c with unresolved := true } t).error = some e →
    Build.run t c.root config = .error e ∨
      ∃ e', Build.run t c.root config = .error e' ∧ Design.ofConfig config = .error e' ∧
        Content.resolve t c.root config = .error e
  /-- It lists the tokens that the report lists. -/
  unresolved : ∀ b, Build.run t c.root config = .ok b →
    Lists { c with unresolved := true } t b.report.unresolved.toList
  /-- Listing all tokens lists as many as the report counts, and those that are not listed
      without a rule are the tokens of the rules in the stylesheet. -/
  candidates : ∀ b, Build.run t c.root config = .ok b → ∃ tokens,
    Lists { c with unresolved := false } t tokens ∧
    tokens.length = b.report.candidateTokens ∧
    ∃ d emitted, Design.ofConfig config = .ok d ∧ b.Emits d emitted ∧
      (emitted.map Rule.token).Perm
        (tokens.filter fun token => token ∉ b.report.unresolved)

end ScanCommand

/-! ### Lines -/

namespace Text

/-- Lines that are ended one by one are read back, and nothing follows the last end. -/
theorem split_lines {lines : List String} (h : ∀ line ∈ lines, '\n' ∉ line.toList) :
    split '\n' (String.join (lines.map (· ++ "\n"))) = lines ++ [""] := by
  unfold split
  rw [String.toList_join, List.flatMap_map]
  induction lines with
  | nil => rfl
  | cons line lines ih =>
      rcases List.forall_mem_cons.1 h with ⟨hline, hlines⟩
      have hend : (line ++ "\n").toList = line.toList ++ ['\n'] := String.toList_append
      rw [List.flatMap_cons, hend, List.append_assoc, List.singleton_append, cutAll_append,
        cutAll_of_not_mem hline, List.map_append, ih hlines, List.map_singleton,
        String.ofList_toList, List.singleton_append, List.cons_append]

end Text

/-- No token has a line break in it. -/
theorem Token.newline_not_mem {token : String} (h : isToken token = true) :
    '\n' ∉ token.toList := by
  rcases exists_shape_of_isToken h with ⟨shape, -, hvalid, htext⟩
  rw [← htext]
  intro hmem
  rcases hvalid.of_mem_text hmem with hc | hc | hc | hc
  · exact absurd hc (by decide)
  · exact absurd hc (by decide)
  · exact absurd hc (by decide)
  · exact absurd hc (by decide)

/-! ### The order of the work -/

/-- A build comes to the content after the theme and the plugins. -/
theorem Build.run_eq (t : FileTree) (root : String) (config : Config) :
    run t root config = match Design.ofConfig config, Content.resolve t root config with
      | .error e, _ => .error e
      | .ok _, .error e => .error e
      | .ok d, .ok sel => .ok (ofFindings config d
          (sel.diagnostics ++ if config.content.isEmpty then [noContent] else [])
          (sel.scan t)) := by
  unfold run
  rcases Design.ofConfig config with e | d
  · rfl
  · rcases Content.resolve t root config with e | sel <;> rfl

namespace ScanCommand

variable {c : ScanCommand} {t : FileTree} {config : Config} {source : Option String}
  {sel : Selection} {tokens : SortedSet}

theorem listed_unresolved (c : ScanCommand) (config : Config) (tokens : SortedSet) :
    listed { c with unresolved := true } config tokens
      = (Design.ofConfig config).map fun d => (d.resolveAll tokens).2 := by
  unfold listed
  rcases Design.ofConfig config with e | d <;> rfl

/-- A scan for the tokens without a rule comes to the content first. -/
theorem error_run_unresolved (h : Config.choose t c.root c.config = .ok (config, source)) :
    (run { c with unresolved := true } t).error
      = match Content.resolve t c.root config, Design.ofConfig config with
        | .error e, _ => some e
        | .ok _, .error e => some e
        | .ok _, .ok _ => none := by
  unfold run
  dsimp only
  rw [h]
  dsimp only
  rcases Content.resolve t c.root config with e | sel
  · rfl
  · dsimp only
    rw [listed_unresolved]
    rcases Design.ofConfig config with e | d <;> rfl

-- A scan lists nothing that it has not found.
theorem mem_of_listed {found : SortedSet} (h : c.listed config found = .ok tokens) {token : String}
    (ht : token ∈ tokens) : token ∈ found := by
  rcases c with ⟨root, path, _ | _⟩
  · rw [Except.ok.inj h]
    exact ht
  · rcases bind_eq_ok h with ⟨d, -, h⟩
    rw [← Except.ok.inj h] at ht
    exact ((d.mem_resolveAll_snd found).1 ht).1

/-- A scan prints the tokens that it lists. -/
theorem lists_of_listed (h : Config.choose t c.root c.config = .ok (config, source))
    (hsel : Content.resolve t c.root config = .ok sel)
    (hlisted : c.listed config (sel.scan t).tokens = .ok tokens) :
    c.Lists t tokens.toList := by
  have hrun : (c.run t).error = none ∧
      (c.run t).printed = String.join (tokens.toList.map (· ++ "\n")) := by
    unfold run
    rw [h]
    dsimp only
    rw [hsel]
    dsimp only
    rw [hlisted]
    exact ⟨rfl, rfl⟩
  have hlines : ∀ line ∈ tokens.toList, '\n' ∉ line.toList := fun line hline =>
    Token.newline_not_mem (Selection.isToken_of_mem_scan (mem_of_listed hlisted hline))
  exact {
    succeeds := hrun.1
    printed := hrun.2
    lines := by rw [Outcome.lines, hrun.2, Text.split_lines hlines, List.dropLast_concat]
    ascending := tokens.sorted }

end ScanCommand

/-! ### Rules -/

namespace Design

variable (d : Design)

theorem map_token_filterMap (l : List String) :
    (l.filterMap d.ruleOf?).map Rule.token = l.filter fun token => (d.ruleOf? token).isSome := by
  induction l with
  | nil => rfl
  | cons token l ih =>
      rcases hr : d.ruleOf? token with _ | r
      · rw [List.filterMap_cons_none hr, ih,
          List.filter_cons_of_neg (by rw [hr]; exact Bool.false_ne_true)]
      · have htoken : r.token = token := Rule.token_of_ofToken? hr
        rw [List.filterMap_cons_some hr, List.map_cons, ih, htoken,
          List.filter_cons_of_pos (by rw [hr]; rfl)]

/-- The rules of some tokens are those of the tokens that are not listed without one. -/
theorem map_token_resolveAll (tokens : SortedSet) :
    (d.resolveAll tokens).1.map Rule.token
      = tokens.toList.filter fun token => token ∉ (d.resolveAll tokens).2 := by
  have hlisted : ∀ token ∈ tokens.toList,
      (d.ruleOf? token).isSome = decide (token ∉ (d.resolveAll tokens).2) := by
    intro token ht
    rw [Bool.eq_iff_iff, decide_eq_true_eq, mem_resolveAll_snd, Option.isSome_iff_ne_none]
    exact ⟨fun hne h => hne h.2, fun h hnone => h ⟨ht, hnone⟩⟩
  rw [← List.filter_congr hlisted]
  exact d.map_token_filterMap tokens.toList

end Design

namespace Build

/-- The stylesheet of a build has the rules of the tokens that were found. -/
theorem exists_emits {config : Config} {d : Design} (hd : Design.ofConfig config = .ok d)
    (before : List Diagnostic) {found : Findings}
    (hfound : ∀ token ∈ found.tokens, Token.isToken token = true) :
    ∃ emitted, (ofFindings config d before found).Emits d emitted ∧
      emitted.Perm (d.resolveAll found.tokens).1 := by
  rcases accounts_ofFindings hd before hfound with ⟨emitted, entries, hperm, hread, haccounts⟩
  refine ⟨emitted, ⟨⟨entries, hread, haccounts.written⟩, fun r hr => ?_⟩, hperm⟩
  rcases (d.mem_resolveAll found.tokens).1 (hperm.mem_iff.1 hr) with ⟨token, -, hrule⟩
  have htoken : r.token = token := Rule.token_of_ofToken? hrule
  rw [htoken]
  exact hrule

end Build

namespace ScanCommand

variable {c : ScanCommand} {t : FileTree} {config : Config} {source : Option String}

/-- Scans and builds agree on every project with a configuration. -/
theorem agrees_of_choose (h : Config.choose t c.root c.config = .ok (config, source)) :
    c.Agrees t config where
  succeeds := by
    rw [error_run_unresolved h, Build.run_eq]
    rcases Content.resolve t c.root config with e | sel
    · rcases Design.ofConfig config with e' | d <;> simp only [reduceCtorEq, exists_false]
    · rcases Design.ofConfig config with e' | d
      · simp only [reduceCtorEq, exists_false]
      · exact ⟨fun _ => ⟨_, rfl⟩, fun _ => rfl⟩
  -- The content is resolved first by a scan, and the design by a build; both can fail.
  fails e he := by
    rw [error_run_unresolved h] at he
    rw [Build.run_eq]
    rcases hcontent : Content.resolve t c.root config with e₁ | sel
    · rw [hcontent] at he
      rw [Option.some.inj he]
      rcases Design.ofConfig config with e' | d
      · exact Or.inr ⟨e', rfl, rfl, rfl⟩
      · exact Or.inl rfl
    · rw [hcontent] at he
      rcases hdesign : Design.ofConfig config with e' | d
      · rw [hdesign] at he
        rw [Option.some.inj he]
        exact Or.inl rfl
      · rw [hdesign] at he
        simp only [reduceCtorEq] at he
  unresolved b hb := by
    rcases Build.run_eq_ok_iff.1 hb with ⟨d, sel, hd, hsel, rfl⟩
    refine lists_of_listed h hsel ?_
    rw [listed_unresolved, hd]
    rfl
  candidates b hb := by
    rcases Build.run_eq_ok_iff.1 hb with ⟨d, sel, hd, hsel, rfl⟩
    have hfound : ∀ token ∈ (sel.scan t).tokens, Token.isToken token = true := fun _ =>
      Selection.isToken_of_mem_scan
    -- The tokens of the emitted rules are those that resolve, in another order.
    rcases Build.exists_emits hd _ hfound with ⟨emitted, hemits, hperm⟩
    refine ⟨(sel.scan t).tokens.toList, lists_of_listed h hsel rfl, rfl, d, emitted, hd, hemits, ?_⟩
    have hmap := hperm.map Rule.token
    rw [d.map_token_resolveAll] at hmap
    exact hmap

end ScanCommand

namespace Circular

/-- The stylesheet of the project has been replaced by a word that is no class. -/
theorem agrees_of_choose_treeWith :
    ∃ source b, Config.choose (treeWith "of") "." none = .ok (config, source) ∧
      ScanCommand.Agrees ⟨".", none, false⟩ (treeWith "of") config ∧
      Build.run (treeWith "of") "." config = .ok b ∧ b.report.unresolved.toList = ["of"] ∧
      (ScanCommand.run ⟨".", none, true⟩ (treeWith "of")).lines = ["of"] ∧
      (ScanCommand.run ⟨".", none, false⟩ (treeWith "of")).lines = ["flex-1", "of"] := by
  have hconfig : (Config.choose (treeWith "of") "." none).map Prod.fst = .ok config :=
    configuration_tree [("app.css", .file (some (Text.encode "of")))]
  rcases map_eq_ok hconfig with ⟨⟨_, source⟩, hchoose, rfl⟩
  have hagrees := ScanCommand.agrees_of_choose (c := ⟨".", none, false⟩) hchoose
  rcases exists_resolve_treeWith "of" with ⟨sel, hsel, hitems⟩
  -- One token comes from the stylesheet and one from the text.
  have htokens : (sel.scan (treeWith "of")).tokens = ⟨["flex-1", "of"], by decide⟩ := by
    have hread : (treeWith "of").read "./app.css" = .ok (Text.encode "of") :=
      FileTree.read_of_found (find_css (.inr rfl) "of")
    have hdecode : Text.decodeLossy (Text.encode "of") = "of" := by decide +kernel
    have hcss : Extractor.tokensIn "of".toList = ["of"] := by decide
    have hraw : Extractor.tokensIn "flex-1".toList = ["flex-1"] := by decide
    refine SortedSet.ext_mem fun token => ?_
    rw [Selection.mem_scan_iff, hitems, SortedSet.mem_iff_mem_toList]
    simp only [List.map_cons, List.map_nil, List.singleton_append, List.mem_cons,
      List.not_mem_nil, or_false, exists_eq_or_imp, exists_eq_left, ContentItem.read, hread,
      Except.map, hdecode, Except.ok.injEq, exists_eq_left', Extractor.extract,
      SortedSet.mem_ofList, hcss, hraw]
    exact or_comm
  have hlisted : (design.resolveAll (sel.scan (treeWith "of")).tokens).2.toList = ["of"] := by
    have hnone : design.ruleOf? "of" = none :=
      Option.isNone_iff_eq_none.1 Build.ruleOf?_wordTokens.2
    simp only [htokens, Design.resolveAll, SortedSet.toList_filter, List.filter_cons,
      ruleOf?_tokens'.2, hnone, Option.isNone_some, Option.isNone_none, if_true,
      Bool.false_eq_true, if_false, List.filter_nil]
  have hbuild := Build.run_eq_ok_iff.2 ⟨design, sel, rfl, hsel, rfl⟩
  refine ⟨source, _, hchoose, hagrees, hbuild, hlisted, ?_, ?_⟩
  · exact (hagrees.unresolved _ hbuild).lines.trans hlisted
  · rw [(ScanCommand.lists_of_listed (c := ⟨".", none, false⟩) hchoose hsel rfl).lines, htokens]

end Circular

end UtilityCss
