import UtilityCss.Proofs.Extraction

/-!
# Regrouping Texts

A build does not depend on how its texts are cut up and ordered.

Texts of a configuration can be put in another order, given twice, or joined by a
delimiter, and back. The tokens found stay the same: a delimiter at the joint cuts the
text into the runs of both sides, so no run reaches across it and no colon at the end
of a run is dropped or kept because of it, and the tokens of all texts are united as a
set. Nothing after that looks at the texts again. Only their number is reported.

The numbers of the texts do not matter either. They name a text in remarks, and a text
of the configuration can always be read, so no remark names one.

## Main definitions

* `Config.withTexts`: A configuration with texts of its own as its only content.
* `Regroups`: Texts in another order, given again, or joined at a delimiter.
* `Build.withoutCount`: A build without the number of texts that were read.

## Theorems

* `mem_tokens_of_regroups`: Regrouping keeps the tokens.
* `resolve_withTexts`: The content of a configuration with texts only.
* `withoutCount_run`: Regrouping keeps everything but the number of texts.
-/

namespace UtilityCss

/-- A configuration with texts as its only content. Each text has the extension that a
    file of it would have. -/
def Config.withTexts (config : Config) (texts : List (String × Option String)) : Config :=
  { config with content := texts.map fun text => .raw text.1 text.2 }

/-- Texts are put in another order, given again, or joined by a delimiter between
    them, or any of this is undone. -/
inductive Regroups : List (String × Option String) → List (String × Option String) → Prop where
  /-- Another order. -/
  | perm {texts texts' : List (String × Option String)} (h : texts.Perm texts') :
    Regroups texts texts'
  /-- A text is given again. -/
  | again (text : String) (e e' : Option String) (rest : List (String × Option String)) :
    Regroups ((text, e) :: rest) ((text, e) :: (text, e') :: rest)
  /-- Two texts are joined by a delimiter. -/
  | join (before after : String) (d : Char) (hd : Extractor.isDelimiter d = true)
    (e e' joined : Option String) (rest : List (String × Option String)) :
    Regroups ((before, e) :: (after, e') :: rest)
      ((before ++ String.singleton d ++ after, joined) :: rest)
  /-- The other way round. -/
  | symm {texts texts' : List (String × Option String)} (h : Regroups texts texts') :
    Regroups texts' texts
  /-- One after the other. -/
  | trans {texts texts' texts'' : List (String × Option String)} (h : Regroups texts texts')
    (h' : Regroups texts' texts'') : Regroups texts texts''

/-- A build without the number of texts that were read. -/
def Build.withoutCount (b : Build) : Build :=
  { b with report := { b.report with filesScanned := 0 } }

/-! ### Tokens -/

/-- Regrouping keeps the tokens. -/
theorem mem_tokens_of_regroups {texts texts' : List (String × Option String)}
    (h : Regroups texts texts') (token : String) :
    (∃ text ∈ texts, token ∈ Extractor.tokensIn text.1.toList) ↔
      ∃ text ∈ texts', token ∈ Extractor.tokensIn text.1.toList := by
  induction h with
  | perm hperm => simp only [hperm.mem_iff]
  | again => simp only [List.mem_cons, exists_eq_or_imp, or_self_left]
  | join before after d hd =>
      have htext : (before ++ String.singleton d ++ after).toList
          = before.toList ++ d :: after.toList := by
        rw [String.toList_append, String.toList_append, String.toList_singleton,
          List.append_assoc, List.singleton_append]
      simp only [List.mem_cons, exists_eq_or_imp, htext,
        Extractor.tokensIn_append_delimiter hd, List.mem_append, or_assoc]
  | symm _ ih => exact ih.symm
  | trans _ _ ih ih' => exact ih.trans ih'

theorem isEmpty_of_regroups {texts texts' : List (String × Option String)}
    (h : Regroups texts texts') : texts.isEmpty = texts'.isEmpty := by
  induction h with
  | perm hperm => exact hperm.isEmpty_eq
  | again | join => rfl
  | symm _ ih => exact ih.symm
  | trans _ _ ih ih' => exact ih.trans ih'

/-! ### Content -/

namespace Content

/-- The content that consists of texts. -/
def ofTexts (texts : List String) : Selection :=
  ⟨(List.range texts.length).map fun index => ⟨.text index, 0⟩, texts, [.everywhere], [], []⟩

theorem addEntry_ofTexts (s : Scope) (texts : List String) (text : String)
    (extension : Option String) :
    addEntry s (ofTexts texts) (.raw text extension) = .ok (ofTexts (texts ++ [text])) := by
  have hpieces : (List.range (texts ++ [text]).length).map
        (fun index => ContentPiece.mk (.text index) 0)
      = (List.range texts.length).map (fun index => ContentPiece.mk (.text index) 0)
        ++ [⟨.text texts.length, 0⟩] := by
    rw [List.length_append, List.length_singleton, List.range_succ, List.map_append]
    rfl
  rw [addEntry, ofTexts, ofTexts, hpieces]

theorem foldlM_addEntry_ofTexts (s : Scope) (texts : List (String × Option String))
    (before : List String) :
    (texts.map fun text => ContentEntry.raw text.1 text.2).foldlM (addEntry s) (ofTexts before)
      = .ok (ofTexts (before ++ texts.map Prod.fst)) := by
  induction texts generalizing before with
  | nil =>
      rw [List.map_nil, List.map_nil, List.append_nil]
      rfl
  | cons text texts ih =>
      rw [List.map_cons, List.foldlM_cons, addEntry_ofTexts]
      refine (ih _).trans ?_
      rw [List.map_cons, List.append_assoc, List.singleton_append]

/-- The content of a configuration with texts only, which fails only by what is
    excluded. -/
theorem resolve_withTexts (tree : FileTree) (root : String) (config : Config)
    (texts : List (String × Option String)) :
    resolve tree root (config.withTexts texts)
      = (config.exclude.mapM fun pattern => globOf (withoutHere pattern)).map fun _ =>
          ofTexts (texts.map Prod.fst) := by
  have hempty : Selection.empty = ofTexts [] := rfl
  rw [resolve]
  simp only [Config.withTexts, hempty, foldlM_addEntry_ofTexts, List.nil_append]
  rcases config.exclude.mapM fun pattern => globOf (withoutHere pattern) with e | exclude <;> rfl

-- The numbers of the texts are gone once the texts are read.
theorem map_scan_ofTexts (tree : FileTree) (texts : List String) :
    (ofTexts texts).items.map (ContentItem.scan tree)
      = texts.map fun text => ⟨Extractor.everywhere.extract text, [], 1⟩ := by
  have hitems : (ofTexts texts).items = (List.range texts.length).map
      fun index => ⟨.raw (index + 1) (texts[index]?.getD ""), .everywhere⟩ := by
    rw [Selection.items, ofTexts, List.filterMap_map]
    exact congrFun List.filterMap_eq_map _
  rw [hitems, List.map_map]
  refine List.ext_getElem (by rw [List.length_map, List.length_map, List.length_range]) ?_
  intro index _ hindex
  rw [List.length_map] at hindex
  rw [List.getElem_map, List.getElem_map, List.getElem_range, Function.comp_apply,
    List.getElem?_eq_getElem hindex]
  rfl

/-- What is found in texts. -/
theorem mem_tokens_scan_ofTexts {tree : FileTree} {texts : List (String × Option String)}
    {token : String} :
    token ∈ ((ofTexts (texts.map Prod.fst)).scan tree).tokens ↔
      ∃ text ∈ texts, token ∈ Extractor.tokensIn text.1.toList := by
  rw [Selection.scan, map_scan_ofTexts, Findings.mem_tokens_mergeAll]
  simp only [List.mem_map, exists_exists_and_eq_and, Extractor.extract, SortedSet.mem_ofList]

theorem diagnostics_scan_ofTexts (tree : FileTree) (texts : List String) :
    ((ofTexts texts).scan tree).diagnostics = [] := by
  rw [Selection.scan, map_scan_ofTexts, Findings.diagnostics_mergeAll, List.flatMap_map]
  exact List.flatMap_eq_nil_iff.2 fun _ _ => rfl

end Content

/-! ### Builds -/

theorem Build.withoutCount_ofFindings {config : Config} {d : Design} {before : List Diagnostic}
    {found found' : Findings} (htokens : found.tokens = found'.tokens)
    (hdiagnostics : found.diagnostics = found'.diagnostics) :
    (ofFindings config d before found).withoutCount
      = (ofFindings config d before found').withoutCount := by
  unfold ofFindings
  rw [htokens, hdiagnostics]
  rfl

/-- Regrouping texts keeps everything that a build gives but the number of texts. -/
theorem Build.withoutCount_run (tree : FileTree) (root : String) (config : Config)
    {texts texts' : List (String × Option String)} (h : Regroups texts texts') :
    (run tree root (config.withTexts texts)).map withoutCount
      = (run tree root (config.withTexts texts')).map withoutCount := by
  have hempty : (config.withTexts texts).content.isEmpty
      = (config.withTexts texts').content.isEmpty := by
    simp only [Config.withTexts, List.isEmpty_map, isEmpty_of_regroups h]
  have hdesign : ∀ texts, Design.ofConfig (config.withTexts texts) = Design.ofConfig config :=
    fun _ => rfl
  unfold run
  rw [hdesign, hdesign, Content.resolve_withTexts, Content.resolve_withTexts, hempty]
  -- What ends the build of the one ends the build of the other.
  rcases Design.ofConfig config with e | d
  · rfl
  · rcases config.exclude.mapM fun pattern => Content.globOf (Content.withoutHere pattern) with
      e | exclude
    · rfl
    · refine congrArg Except.ok (withoutCount_ofFindings ?_ ?_)
      · refine SortedSet.ext_mem fun token => ?_
        rw [Content.mem_tokens_scan_ofTexts, Content.mem_tokens_scan_ofTexts]
        exact mem_tokens_of_regroups h token
      · rw [Content.diagnostics_scan_ofTexts, Content.diagnostics_scan_ofTexts]

-- A text is cut at a quotation mark, and the pieces are exchanged.
theorem Build.withoutCount_run_cut :
    Regroups [("flex:" ++ String.singleton '\'' ++ "md:p-4", none)]
        [("md:p-4", none), ("flex:", none)]
      ∧ (run default "" (Config.default.withTexts
          [("flex:" ++ String.singleton '\'' ++ "md:p-4", none)])).map withoutCount
        = (run default "" (Config.default.withTexts
          [("md:p-4", none), ("flex:", none)])).map withoutCount := by
  have hcut : Regroups [("flex:" ++ String.singleton '\'' ++ "md:p-4", none)]
      [("flex:", none), ("md:p-4", none)] :=
    (Regroups.join "flex:" "md:p-4" '\'' (by decide) none none none []).symm
  have hregroups := hcut.trans (Regroups.perm (List.Perm.swap _ _ _))
  exact ⟨hregroups, withoutCount_run default "" Config.default hregroups⟩

end UtilityCss
