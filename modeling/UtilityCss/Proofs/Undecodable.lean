import UtilityCss.Proofs.FileTree.Writing
import UtilityCss.Proofs.Merging
import UtilityCss.Proofs.Pattern.Candidates
import UtilityCss.Proofs.Stylesheet.Legible
import UtilityCss.Proofs.Text.Lenient

/-!
# Classes beside Undecodable Bytes

Bytes that are no text cost no class beside them.

A file need not be text, or not in the encoding that is expected. It is scanned all the same.
Runs end at delimiters, some of which are ASCII characters, and an ASCII byte is never part of a
malformed piece. So a file with such a byte is scanned as the two files on either side of it, and
a class between two of them is found whatever there is around it.

What is found where a pattern says what is looked at is up to the pattern. It still sees the class
between its delimiters.

## Main definitions

* `Extractor.isDelimiterByte`: The bytes of delimiters that are ASCII characters.
* `FileTree.ScansAround`: A file is scanned as what is around a token, and the token.

## Theorems

* `Extractor.mem_extract_append_ascii`: A delimiter byte cuts a file in two.
* `FileTree.scansAround_of_read`: A token between delimiter bytes is found.
-/

namespace UtilityCss

namespace Extractor

/-- The byte is an ASCII character that ends a run. -/
def isDelimiterByte (b : UInt8) : Bool := b.toNat < 0x80 && isDelimiter (Char.ofNat b.toNat)

theorem isDelimiterByte_iff {b : UInt8} : isDelimiterByte b = true ↔
    b < 0x80 ∧ isDelimiter (Char.ofNat b.toNat) = true := by
  rw [isDelimiterByte, Bool.and_eq_true, decide_eq_true_eq, UInt8.lt_iff_toNat_lt]
  rfl

-- Tabs and line ends, blanks, quotes, angle brackets, backslashes and backticks.
example : (List.range 256).filter (fun n => isDelimiterByte (UInt8.ofNat n))
    = [9, 10, 11, 12, 13, 32, 34, 39, 60, 62, 92, 96] := by
  decide

/-- A delimiter byte cuts a file in two. -/
theorem mem_extract_append_ascii {b : UInt8} (hb : isDelimiterByte b = true)
    (bytes more : List UInt8) (token : String) :
    token ∈ everywhere.extract (Text.decodeLossy (bytes ++ b :: more)) ↔
      token ∈ everywhere.extract (Text.decodeLossy bytes) ∨
        token ∈ everywhere.extract (Text.decodeLossy more) := by
  rcases isDelimiterByte_iff.1 hb with ⟨hascii, hdelimiter⟩
  rw [mem_extract_everywhere, mem_extract_everywhere, mem_extract_everywhere,
    Text.toList_decodeLossy_append_ascii hascii, tokensIn_append_delimiter hdelimiter,
    List.mem_append]

section

variable {token : String} (htoken : Token.isToken token = true)
  (hmarks : ∀ c ∈ token.toList, c ∉ marks)
include htoken hmarks

/-- A token has no delimiters but marks. -/
theorem isDelimiter_eq_false_of_isToken : ∀ c ∈ token.toList, isDelimiter c = false := by
  intro c hc
  rw [isDelimiter, Token.isBlank_eq_false_of_isToken htoken c hc, Bool.false_or,
    List.contains_eq_mem, decide_eq_false_iff_not]
  exact hmarks c hc

/-- A token without marks is the only one in itself. -/
theorem mem_extract_self {other : String} : other ∈ everywhere.extract token ↔ other = token := by
  have hrun := runs_eq_singleton (isDelimiter_eq_false_of_isToken htoken hmarks)
  have hlast := Token.getLast?_ne_of_isToken htoken
  rw [mem_extract_everywhere, tokensIn, hrun, List.map_singleton, candidate_eq hlast,
    String.ofList_toList, List.filter_singleton, htoken]
  exact List.mem_singleton

end

end Extractor

/-- A file that can be read counts as scanned, and there is no remark on it. -/
theorem ContentItem.scan_file {t : FileTree} {path : String} {bytes : List UInt8}
    (h : t.read path = .ok bytes) (e : Extractor) :
    scan t ⟨.file path, e⟩ = ⟨e.extract (Text.decodeLossy bytes), [], 1⟩ := by
  have hread : read t ⟨.file path, e⟩ = .ok (Text.decodeLossy bytes) := by
    show (t.read path).map Text.decodeLossy = _
    rw [h]
    rfl
  rw [scan, hread]

/-- A piece of content is one among others. -/
theorem Selection.scan_insert {t : FileTree} {sel others : Selection} {item : ContentItem}
    {items more : List ContentItem} (hsel : sel.items = items ++ item :: more)
    (hothers : others.items = items ++ more) :
    (sel.scan t).filesScanned = (others.scan t).filesScanned + (item.scan t).filesScanned ∧
      ((item.scan t).diagnostics = [] →
        (sel.scan t).diagnostics = (others.scan t).diagnostics) ∧
      ∀ token ∈ (item.scan t).tokens, token ∈ (sel.scan t).tokens := by
  simp only [scan, hsel, hothers, List.map_append, List.map_cons]
  refine ⟨?_, fun hnone => ?_, fun token htoken => ?_⟩
  · simp only [Findings.filesScanned_mergeAll, List.map_append, List.map_cons, List.sum_append,
      List.sum_cons]
    omega
  · simp only [Findings.diagnostics_mergeAll, List.flatMap_append, List.flatMap_cons, hnone,
      List.nil_append]
  · exact Findings.mem_tokens_mergeAll.2
      ⟨item.scan t, List.mem_append_right _ List.mem_cons_self, htoken⟩

/-- A file is scanned as a text around a token: as the bytes before it, the token, and the bytes
    after it. -/
structure FileTree.ScansAround (t : FileTree) (path text : String) (before : List UInt8)
    (token : String) (after : List UInt8) : Prop where
  /-- The text is that of the file, with U+FFFD for what is no text. -/
  reads : ∃ bytes, t.read path = .ok bytes ∧ Text.IsReadAs bytes text
  /-- The file counts as scanned and there is no remark on it, wherever tokens are looked for. -/
  counts : ∀ e, ContentItem.scan t ⟨.file path, e⟩ = ⟨e.extract text, [], 1⟩
  /-- The token is found, and what is found before and after it alone. -/
  finds : ∀ other, other ∈ (ContentItem.scan t ⟨.file path, .everywhere⟩).tokens ↔
    other = token ∨ other ∈ Extractor.everywhere.extract (Text.decodeLossy before) ∨
      other ∈ Extractor.everywhere.extract (Text.decodeLossy after)
  /-- Following the pattern of a candidate through the text comes to the token as well. -/
  follows : ∀ found, token ∈ Extractor.everywhere.extractInto text found
  /-- A pattern finds the token if it captures a piece in which it stands between delimiters. -/
  captures : ∀ (p : Pattern) (piece : List Char), piece ∈ p.captured text.toList →
    Extractor.StandsIn token.toList piece →
      token ∈ (ContentItem.scan t ⟨.file path, .captured p⟩).tokens
  /-- Among other pieces of content the file counts for one, it adds no remarks, and the token is
      found, however the work is divided. -/
  among : ∀ (sel others : Selection) (items more : List ContentItem) (e : Extractor)
    (d : Division), sel.items = items ++ ⟨.file path, e⟩ :: more → others.items = items ++ more →
      (sel.scanDivided d t).filesScanned = (others.scanDivided d t).filesScanned + 1 ∧
      (sel.scanDivided d t).diagnostics = (others.scanDivided d t).diagnostics ∧
      (e = .everywhere → token ∈ (sel.scanDivided d t).tokens)

/-- A token between delimiter bytes is found, whatever bytes come before and after these. -/
theorem FileTree.scansAround_of_read {t : FileTree} {path token : String}
    {before after : List UInt8} {d₁ d₂ : UInt8}
    (hread : t.read path = .ok (before ++ d₁ :: (Text.encode token ++ d₂ :: after)))
    (hd₁ : Extractor.isDelimiterByte d₁ = true) (hd₂ : Extractor.isDelimiterByte d₂ = true)
    (htoken : Token.isToken token = true) (hmarks : ∀ c ∈ token.toList, c ∉ Extractor.marks) :
    ∃ text, t.ScansAround path text before token after := by
  have hword := Extractor.isDelimiter_eq_false_of_isToken htoken hmarks
  have hscan := ContentItem.scan_file hread
  -- A delimiter byte parts the text, so what is before it and what is behind are extracted
  -- alone.
  have hfinds : ∀ other, other ∈ Extractor.everywhere.extract
        (Text.decodeLossy (before ++ d₁ :: (Text.encode token ++ d₂ :: after))) ↔
      other = token ∨ other ∈ Extractor.everywhere.extract (Text.decodeLossy before) ∨
        other ∈ Extractor.everywhere.extract (Text.decodeLossy after) := by
    intro other
    rw [Extractor.mem_extract_append_ascii hd₁, Extractor.mem_extract_append_ascii hd₂,
      Text.decodeLossy_encode, Extractor.mem_extract_self htoken hmarks, or_left_comm]
  have hfound := (hfinds token).2 (.inl rfl)
  refine ⟨_, ⟨_, hread, Text.isReadAs_iff.2 rfl⟩, hscan, ?_, ?_, ?_, ?_⟩
  · intro other
    rw [hscan]
    exact hfinds other
  · intro found
    rw [Extractor.extractInto_eq_union, SortedSet.mem_union]
    exact .inr hfound
  · intro p piece hpiece hstands
    rw [hscan]
    exact Extractor.mem_extract_of_standsIn htoken hword hpiece hstands
  -- In a selection the file counts as any other one.
  · intro sel others items more e d hsel hothers
    rcases Selection.scan_insert (t := t) hsel hothers with ⟨hcount, hremarks, htokens⟩
    rw [hscan] at hcount hremarks htokens
    rw [Selection.scanDivided_eq, Selection.scanDivided_eq]
    refine ⟨hcount, hremarks rfl, ?_⟩
    rintro rfl
    exact htokens token hfound

/-- A page with a letter of another encoding before a class, and half a character after it. -/
def FileTree.latinPage : FileTree :=
  ⟨.directory [("menu.html", .file (some
    ([0x43, 0x61, 0x66, 0xE9] ++ 0x22 :: (Text.encode "p-4" ++ 0x22 :: [0xE2, 0x82]))))], []⟩

theorem FileTree.scansAround_latinPage :
    latinPage.read "menu.html"
        = .ok ([0x43, 0x61, 0x66, 0xE9] ++ 0x22 :: (Text.encode "p-4" ++ 0x22 :: [0xE2, 0x82])) ∧
      Extractor.isDelimiterByte 0x22 = true ∧ Token.isToken "p-4" = true ∧
      (∀ c ∈ "p-4".toList, c ∉ Extractor.marks) ∧
      ∃ text, latinPage.ScansAround "menu.html" text [0x43, 0x61, 0x66, 0xE9] "p-4"
        [0xE2, 0x82] := by
  have hread : latinPage.read "menu.html"
      = .ok ([0x43, 0x61, 0x66, 0xE9] ++ 0x22 :: (Text.encode "p-4" ++ 0x22 :: [0xE2, 0x82])) :=
    read_of_found (find_eq_ok_iff.2 ⟨by decide, .file ⟨rfl, by decide⟩ rfl⟩)
  have hquote : Extractor.isDelimiterByte 0x22 = true := by decide
  have htoken : Token.isToken "p-4" = true := by decide
  have hall : "p-4".toList.all (fun c => decide (c ∉ Extractor.marks)) = true := by decide
  have hmarks : ∀ c ∈ "p-4".toList, c ∉ Extractor.marks :=
    fun c hc => of_decide_eq_true (List.all_eq_true.1 hall c hc)
  exact ⟨hread, hquote, htoken, hmarks, scansAround_of_read hread hquote hquote htoken hmarks⟩

end UtilityCss
