import UtilityCss.Proofs.Stylesheet.Marks
import UtilityCss.Stylesheet.Printer

/-!
# Stylesheets Read Back

Both texts of a stylesheet are read back as its rules.

The two texts are written quite differently: one is made of lines with
indentation, the other has no separator that it can do without. They agree in
their outline. Each of the two writers puts a text together whose parts read as
the marks of a rule, a block, a stylesheet, so the blanks between the parts and
the missing last semicolon are dealt with once for each kind of part.

## Main definitions

* `textOfLines`: Lines with their line breaks.

## Theorems

* `reads_lines`: The lines of a stylesheet read as its marks.
* `reads_compact`: So does the compact text.
* `read_toText_trimmed`: Either text is read back as the rules, but for outer blanks of
  values.
* `read_toText`: Either text is read back as the rules, its braces balance, and
  it opens the at-rules of each run once.
-/

namespace UtilityCss

open Outline

/-- The characters of lines, each with its line break. -/
def textOfLines (lines : List String) : List Char :=
  lines.flatMap fun line => line.toList ++ ['\n']

theorem reads_textOfLines_append {lines lines' : List String} {marks marks' : List Mark}
    (h : Reads (textOfLines lines) marks) (h' : Reads (textOfLines lines') marks') :
    Reads (textOfLines (lines ++ lines')) (marks ++ marks') := by
  unfold textOfLines
  rw [List.flatMap_append]
  exact reads_append h h'

-- A line reads as what it holds; its line break is a blank.
theorem reads_line {line : String} {marks : List Mark} (h : Reads line.toList marks) :
    Reads (textOfLines [line]) marks := by
  have hbreak : Reads ['\n'] [] := reads_blank (by decide)
  have hline := reads_append h hbreak
  rw [List.append_nil] at hline
  unfold textOfLines
  rw [List.flatMap_singleton]
  exact hline

theorem reads_textOfLines_map {α : Type} {line : α → String} {mark : α → Mark} {as : List α}
    (h : ∀ a ∈ as, Reads (textOfLines [line a]) [mark a]) :
    Reads (textOfLines (as.map line)) (as.map mark) := by
  induction as with
  | nil => exact reads_nil
  | cons a as ih =>
      have htail := ih fun a' ha' => h a' (List.mem_cons_of_mem _ ha')
      exact reads_textOfLines_append (h a List.mem_cons_self) htail

-- Lines with an empty line between the parts read as the marks of the parts.
theorem reads_intercalate {α : Type} {lines : α → List String} {marks : α → List Mark}
    {as : List α} (h : ∀ a ∈ as, Reads (textOfLines (lines a)) (marks a)) :
    Reads (textOfLines ([""].intercalate (as.map lines))) (as.flatMap marks) := by
  induction as with
  | nil => exact reads_nil
  | cons a as ih =>
      have hfirst := h a List.mem_cons_self
      have htail := ih fun a' ha' => h a' (List.mem_cons_of_mem _ ha')
      -- There is no empty line behind the last part.
      cases as with
      | nil =>
          rw [List.map_singleton, List.intercalate_singleton, List.flatMap_singleton]
          exact hfirst
      | cons a' as =>
          have hempty : Reads (textOfLines [""]) [] := reads_line reads_nil
          have hjoined := reads_textOfLines_append hfirst (reads_textOfLines_append hempty htail)
          rw [List.nil_append] at hjoined
          rw [List.map_cons, List.map_cons, List.intercalate_cons_cons, List.append_assoc,
            List.flatMap_cons]
          exact hjoined

theorem all_isBlank_indent (depth : Nat) : (indent depth).toList.all Text.isBlank = true := by
  unfold indent
  rw [String.toList_ofList, List.all_replicate]
  have hspace : Text.isBlank ' ' = true := by decide
  rw [hspace, ite_self]

theorem reads_openLine {head : String} (h : Text.IsTidy head) (depth : Nat) :
    Reads (textOfLines [openLine depth head]) [.opens head] := by
  have hspace : [' '].all Text.isBlank = true := by decide
  have hopens := reads_opens (all_isBlank_indent depth) hspace h
  refine reads_line ?_
  unfold openLine
  rw [String.toList_append, String.toList_append]
  rw [List.append_assoc] at hopens
  exact hopens

theorem reads_closeLine (depth : Nat) : Reads (textOfLines [closeLine depth]) [.closes] := by
  refine reads_line ?_
  unfold closeLine
  rw [String.toList_append]
  exact reads_closes (all_isBlank_indent depth)

theorem reads_declarationLine {d : Declaration} (h : Outline.IsClear d) (depth : Nat) :
    Reads (textOfLines [indent depth ++ d.property ++ ": " ++ d.value ++ ";"])
      [.declares (Outline.trimmed d)] := by
  have hspace : [' '].all Text.isBlank = true := by decide
  have hdeclares := reads_declares (all_isBlank_indent depth) hspace h
  refine reads_line ?_
  simp only [String.toList_append]
  simp only [List.append_assoc] at hdeclares ⊢
  exact hdeclares

theorem reads_rule_lines {r : Rule} (h : r.IsLegible) (depth : Nat) :
    Reads (textOfLines (r.lines depth)) r.trimmed.marks := by
  have hopens := reads_openLine h.selector depth
  have hdeclares := reads_textOfLines_map fun d hd =>
    reads_declarationLine (h.declarations d hd) (depth + 1)
  have hbody := reads_textOfLines_append hopens hdeclares
  have hall := reads_textOfLines_append hbody (reads_closeLine depth)
  unfold Rule.marks Rule.trimmed
  rw [List.map_map]
  exact hall

-- Lines inside at-rules read as what they read as between the marks of the
-- at-rules.
theorem reads_wrapLines {chain : List String} (h : ∀ head ∈ chain, Text.IsTidy head)
    {inner : List String} {marks : List Mark} (hinner : Reads (textOfLines inner) marks)
    (depth : Nat) :
    Reads (textOfLines (wrapLines depth chain inner))
      (chain.map .opens ++ marks ++ List.replicate chain.length .closes) := by
  induction chain generalizing depth with
  | nil =>
      rw [List.map_nil, List.nil_append, List.length_nil, List.replicate_zero, List.append_nil]
      exact hinner
  | cons head chain ih =>
      have hopens := reads_openLine (h head List.mem_cons_self) depth
      have hchain := ih (fun head' hmem => h head' (List.mem_cons_of_mem _ hmem)) (depth + 1)
      have hbody := reads_textOfLines_append hchain (reads_closeLine depth)
      have hall := reads_textOfLines_append hopens hbody
      -- The brace that closes the outermost at-rule is the last one.
      rw [wrapLines, List.length_cons, List.replicate_succ', List.map_cons]
      simp only [List.append_assoc, List.cons_append] at hall ⊢
      exact hall

theorem reads_block_lines {b : Block} (h : b.IsLegible) :
    Reads (textOfLines b.lines) b.trimmed.marks := by
  have hrules : Reads (textOfLines ([""].intercalate (b.rules.map (Rule.lines b.atRules.length))))
      (b.rules.flatMap fun r => r.trimmed.marks) :=
    reads_intercalate fun r hr => reads_rule_lines (h.rules r hr) b.atRules.length
  unfold Block.marks Block.trimmed
  rw [List.flatMap_map]
  exact reads_wrapLines (fun head hhead => (h.atRules head hhead).1) hrules 0

/-- The lines of a stylesheet read as its marks. -/
theorem reads_lines {s : Stylesheet} (h : ∀ b ∈ s.blocks, b.IsLegible) :
    Reads (textOfLines s.lines) s.trimmed.marks := by
  rw [Stylesheet.marks_trimmed]
  exact reads_intercalate fun b hb => reads_block_lines (h b hb)

theorem reads_head {head : String} (h : Text.IsTidy head) :
    Reads (head ++ "\x7b").toList [.opens head] := by
  have hopens := reads_opens List.all_nil List.all_nil h
  rw [List.nil_append, List.append_nil] at hopens
  rw [String.toList_append]
  exact hopens

-- Declarations with semicolons between them read as they are, in front of the
-- brace that closes their rule.
theorem reads_declarations {declarations : List Declaration}
    (h : ∀ d ∈ declarations, Outline.IsClear d) :
    Reads ((";".intercalate (declarations.map fun d => d.property ++ ":" ++ d.value)).toList
      ++ ['}']) (declarations.map (fun d => .declares (Outline.trimmed d)) ++ [.closes]) := by
  induction declarations with
  | nil =>
      rw [List.map_nil, String.intercalate_nil]
      exact reads_closes List.all_nil
  | cons d declarations ih =>
      have hd := h d List.mem_cons_self
      cases declarations with
      | nil =>
          -- The last declaration stands in front of the brace.
          have hlast := reads_declares_closes List.all_nil List.all_nil hd
          rw [List.map_singleton, String.intercalate_singleton]
          simp only [String.toList_append, List.nil_append, List.append_assoc] at hlast ⊢
          exact hlast
      | cons next declarations =>
          have hfirst := reads_declares List.all_nil List.all_nil hd
          have htail := ih fun d' hd' => h d' (List.mem_cons_of_mem _ hd')
          have hall := reads_append hfirst htail
          rw [List.map_cons, List.map_cons, String.intercalate_cons_cons]
          simp only [String.toList_append, List.nil_append, List.append_assoc] at hall ⊢
          exact hall

theorem reads_rule_compact {r : Rule} (h : r.IsLegible) :
    Reads r.compact.toList r.trimmed.marks := by
  have hall := reads_append (reads_head h.selector) (reads_declarations h.declarations)
  unfold Rule.compact Rule.marks Rule.trimmed
  rw [String.toList_append, String.toList_append, List.append_assoc, List.map_map]
  exact hall

theorem reads_block_compact {b : Block} (h : b.IsLegible) :
    Reads b.compact.toList b.trimmed.marks := by
  have hopens := reads_flatMap fun head hhead => reads_head (h.atRules head hhead).1
  have hrules := reads_flatMap fun r hr => reads_rule_compact (h.rules r hr)
  -- The braces that close a block are as many as its at-rules.
  have hbrace : ∀ head ∈ b.atRules, Reads "\x7d".toList [.closes] := fun _ _ =>
    reads_closes List.all_nil
  have hcloses := reads_flatMap hbrace
  have hall := reads_append (reads_append hopens hrules) hcloses
  rw [← List.map_eq_flatMap, ← List.map_eq_flatMap, List.map_const'] at hall
  unfold Block.compact Block.marks Block.trimmed
  rw [String.toList_append, String.toList_append, String.toList_join, String.toList_join,
    String.toList_join, List.flatMap_map, List.flatMap_map, List.flatMap_map, List.flatMap_map]
  exact hall

/-- The compact text of a stylesheet reads as its marks. -/
theorem reads_compact {s : Stylesheet} (h : ∀ b ∈ s.blocks, b.IsLegible) :
    Reads s.compact.toList s.trimmed.marks := by
  unfold Stylesheet.compact
  rw [String.toList_join, List.flatMap_map, Stylesheet.marks_trimmed]
  exact reads_flatMap fun b hb => reads_block_compact (h b hb)

theorem toList_toText_false (s : Stylesheet) :
    (s.toText false).toList = textOfLines s.lines := by
  unfold Stylesheet.toText textOfLines
  rw [if_neg Bool.false_ne_true, String.toList_join, List.flatMap_map]
  refine List.flatMap_congr fun line _ => ?_
  rw [String.toList_append]
  rfl

theorem ofText?_toText_trimmed {s : Stylesheet} (h : ∀ b ∈ s.blocks, b.IsLegible)
    (minify : Bool) : ofText? (s.toText minify) = some s.trimmed.marks := by
  refine ofText?_of_reads ?_
  cases minify with
  | true => exact reads_compact h
  | false =>
      rw [toList_toText_false]
      exact reads_lines h

theorem ofText?_toText {s : Stylesheet} (h : ∀ b ∈ s.blocks, b.IsReadable) (minify : Bool) :
    ofText? (s.toText minify) = some s.marks := by
  have hblocks : s.blocks.flatMap (fun b => b.trimmed.marks) = s.blocks.flatMap Block.marks :=
    List.flatMap_congr fun b hb => by rw [(h b hb).trimmed_eq]
  rw [ofText?_toText_trimmed (fun b hb => (h b hb).isLegible), Stylesheet.marks_trimmed, hblocks]
  rfl

namespace Stylesheet

/-- Either text of a stylesheet with legible rules is read as its rules, without the outer
    blanks of their values. -/
theorem read_toText_trimmed {s : Stylesheet} (h : ∀ r ∈ s.rules, r.IsLegible) (minify : Bool) :
    Outline.read (s.toText minify) = some (s.rules.map fun r => r.trimmed.entry) := by
  have hblocks := Block.isLegible_of_areRunsOf (Block.areRunsOf_ofRules s.rules) h
  unfold Outline.read
  rw [ofText?_toText_trimmed hblocks, Option.bind_some, gather_marks_trimmed h]

/-- Either text of a stylesheet with readable rules is read back as its rules, in
    order and each once. The braces of the text balance, and for each run of
    neighbouring rules under the same at-rules it opens those once. -/
theorem read_toText (s : Stylesheet) (h : ∀ r ∈ s.rules, r.IsReadable) (minify : Bool) :
    Outline.read (s.toText minify) = some (s.rules.map Rule.entry) ∧
      Text.depthAfter '{' '}' 0 (s.toText minify).toList = some 0 ∧
      (ofText? (s.toText minify)).map openedAtRules
        = some (((s.rules.map Rule.atRules).splitBy (· == ·)).flatMap fun run => run.headD []) := by
  have hblocks := Block.isReadable_of_areRunsOf (Block.areRunsOf_ofRules s.rules) h
  have houtline := ofText?_toText hblocks minify
  have hread : Outline.read (s.toText minify) = some (s.rules.map Rule.entry) := by
    unfold Outline.read
    rw [houtline, Option.bind_some, gather_marks h]
  refine ⟨hread, depthAfter_of_read hread, ?_⟩
  rw [houtline, Option.map_some, openedAtRules_marks h]

/-- A place in the cascade, which says nothing about the text. -/
def anyOrder : RuleOrder := ⟨.utilities, .atRule, [], 1, 0⟩

/-- A stylesheet with two runs, the second of which is nested deeper under an
    at-rule of the first, and with a rule without declarations. -/
def nested : Stylesheet :=
  ⟨[⟨"a", ".a", [⟨"margin", "0 auto"⟩, ⟨"color", "red"⟩], ["@media print"], anyOrder⟩,
    ⟨"b", ".b:hover", [], ["@media print"], anyOrder⟩,
    ⟨"c", ".c", [⟨"margin", "0"⟩], ["@media print", "@supports (a: b)"], anyOrder⟩]⟩

/-- The nested stylesheet is read back from the text that is spread out, which
    opens the outer at-rule twice. -/
theorem read_toText_nested :
    (∀ r ∈ nested.rules, r.IsReadable) ∧
      Outline.read (nested.toText false) = some
        [⟨["@media print"], ".a", [⟨"margin", "0 auto"⟩, ⟨"color", "red"⟩]⟩,
          ⟨["@media print"], ".b:hover", []⟩,
          ⟨["@media print", "@supports (a: b)"], ".c", [⟨"margin", "0"⟩]⟩] ∧
      Text.depthAfter '{' '}' 0 (nested.toText false).toList = some 0 ∧
      (ofText? (nested.toText false)).map openedAtRules
        = some ["@media print", "@media print", "@supports (a: b)"] := by
  have hread : ∀ r ∈ nested.rules, r.IsReadable := by decide +kernel
  exact ⟨hread, read_toText nested hread false⟩

end Stylesheet

end UtilityCss
