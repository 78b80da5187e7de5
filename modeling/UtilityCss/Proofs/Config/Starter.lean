import UtilityCss.Config.Reading
import UtilityCss.Discovery
import UtilityCss.Proofs.Yaml.Lexing
import UtilityCss.Proofs.Yaml.Parsing

/-!
# A First Configuration Is Read

The text of a first configuration is read as the configuration of its patterns.

The text is put together from patterns that stand between quotes as they are. Where a pattern is
made of characters that stand for themselves there, the lexer takes up the text line by line:
two steps for each item, whatever has been read before it. The state behind an item is that of
the item before it, further down and with two more tokens, so the items are read by induction.
What is around them is the same in every text, and its steps are computed.

The tokens are those of one mapping, so they are read as a document, and the document as a
configuration.

## Main definitions

* `Yaml.isQuotable`: A text stands for itself in double quotes.
* `Yaml.starterChars`, `Yaml.starterTokens`, `Yaml.starterNode`: A first configuration as
  characters, as tokens and as a document.

## Theorems

* `Yaml.Lexer.reads_items`: The items are taken up one by one.
* `Yaml.Lexer.run?_afterItems`: What follows the items.
* `Yaml.read?_starterChars`: The text is read as a document.
* `Config.parse?_starterText`: The text is read as the configuration of its patterns.
-/

namespace UtilityCss

namespace Yaml

/-- The text can be written in double quotes as it is. -/
def isQuotable (text : String) : Bool := text.toList.all fun c => isPrintable c && isLiteral c

namespace Lexer

/-! ### Items -/

/-- The text of an item in quotes, from the end of the line above. -/
def itemLine (cs : List Char) : List Char := "\n  - \"".toList ++ (cs ++ ['"'])

/-- The lexer in a list, behind the hyphen of an item in quotes. -/
def atItem (cs more : List Char) (T : Array Token) (i l : Nat) : Lexer :=
  ⟨⟨" \"".toList ++ (cs ++ '"' :: more), i, l, 3⟩, T, 2, [0, -1], none, [], true⟩

/-- The lexer in a list, behind an item that could be a key. -/
def behindItem (more : List Char) (T : Array Token) (i l c : Nat) (p : KeyPlace) : Lexer :=
  ⟨⟨more, i, l, c⟩, T, 2, [0, -1], some p, [], false⟩

theorem itemLine_append (cs more : List Char) :
    itemLine cs ++ more = "\n  - ".toList ++ ('"' :: (cs ++ '"' :: more)) :=
  (List.append_assoc _ _ _).trans
    (congrArg ("\n  - \"".toList ++ ·) (List.append_assoc cs ['"'] more))

theorem flatMap_itemLine_append (cs : List Char) (rest : List (List Char)) (more : List Char) :
    (cs :: rest).flatMap itemLine ++ more = itemLine cs ++ (rest.flatMap itemLine ++ more) := by
  rw [List.flatMap_cons, List.append_assoc]

/-- Everything up to the first hyphen. -/
theorem reads_content (cs more : List Char) : ∃ T : Array Token,
    T.toList = [.blockMapping, .key, .scalar "content".toList true, .value, .blockSequence, .item] ∧
    Reads 3 (start ("content:\n  - ".toList ++ ('"' :: (cs ++ '"' :: more))))
      (atItem cs more T 12 1) := by
  -- Three steps: the name, which may be a key, the colon that makes it one, and the hyphen
  -- that starts a list.
  have hname : ∀ text, step? (start ("content:\n  - ".toList ++ text))
      = some (true, ⟨⟨":\n  - ".toList ++ text, 7, 0, 7⟩, #[.scalar "content".toList true], -1, [],
        some ⟨false, 0, 0, 0, 0⟩, [], false⟩) :=
    fun text => rfl
  have hcolon : ∀ text, step? ⟨⟨":\n  - ".toList ++ text, 7, 0, 7⟩,
        #[.scalar "content".toList true], -1, [], some ⟨false, 0, 0, 0, 0⟩, [], false⟩
      = some (true, ⟨⟨"\n  - ".toList ++ text, 8, 0, 8⟩,
        #[.blockMapping, .key, .scalar "content".toList true, .value], 0, [-1], none, [], false⟩) :=
    fun text => step?_colon_open (T := #[]) (i := 0) (c := 0) (n := 7) rfl (by decide) (by decide)
  have hhyphen : ∀ (T : Array Token) text,
      step? ⟨⟨"\n  - ".toList ++ text, 8, 0, 8⟩, T, 0, [-1], none, [], false⟩
        = some (true, ⟨⟨' ' :: text, 12, 1, 3⟩,
          (T.insertIdxIfInBounds T.size .blockSequence).push .item, 2, [0, -1], none, [], true⟩) :=
    fun T text => rfl
  refine ⟨_, ?_, .step (hname _) (.step (hcolon _) (.single (hhyphen _ _)))⟩
  rw [List.insertIdxIfInBounds_toArray]
  rfl

section

variable (T : Array Token) (i l : Nat)

/-- The hyphen of the next item, on the next line. -/
theorem reads_hyphen (cs more : List Char) {p : KeyPlace} (hfree : p.required = false)
    (hline : p.line ≤ l) (c : Nat) :
    Reads 1 (behindItem (itemLine cs ++ more) T i l c p)
      (atItem cs more (T.push .item) (i + 4) (l + 1)) := by
  rw [itemLine_append]
  have hskip : skip (behindItem ("\n  - ".toList ++ ('"' :: (cs ++ '"' :: more))) T i l c p)
      = ⟨⟨"- ".toList ++ ('"' :: (cs ++ '"' :: more)), i + 3, l + 1, 2⟩, T, 2, [0, -1], some p, [],
        true⟩ :=
    rfl
  refine .single ((step?_eq hskip (expireAll?_of_lt rfl rfl (Nat.lt_succ_of_le hline) hfree)
    (closeBlocks_of_le (Int.le_refl _))).trans ?_)
  rfl

/-- The scalar of an item. -/
theorem reads_quoted {cs : List Char} (h : ∀ c ∈ cs, isLiteral c = true) (more : List Char) :
    Reads 1 (atItem cs more T i l)
      (behindItem more (T.push (.scalar cs false)) (i + 1 + cs.length + 2) l (4 + cs.length + 2)
        ⟨false, T.size, i + 1, l, 4⟩) := by
  have hskip : skip (atItem cs more T i l)
      = ⟨⟨'"' :: (cs ++ '"' :: more), i + 1, l, 4⟩, T, 2, [0, -1], none, [], true⟩ :=
    rfl
  have hexpire : expireAll?
        ⟨⟨'"' :: (cs ++ '"' :: more), i + 1, l, 4⟩, T, 2, [0, -1], none, [], true⟩
      = some ⟨⟨'"' :: (cs ++ '"' :: more), i + 1, l, 4⟩, T, 2, [0, -1], none, [], true⟩ :=
    rfl
  have hcolumn : (2 : Int) ≤ ((4 : Nat) : Int) := by decide
  exact .single ((step?_eq hskip hexpire (closeBlocks_of_le hcolumn)).trans (token?_quoted h))

end

/-- The items of a list, from behind the first hyphen. -/
theorem reads_items {cs : List Char} {rest : List (List Char)}
    (h : ∀ cs' ∈ cs :: rest, ∀ c ∈ cs', isLiteral c = true) (more : List Char) (T : Array Token)
    (i l : Nat) : ∃ T' i' l' c' p,
    Reads (2 * rest.length + 1) (atItem cs (rest.flatMap itemLine ++ more) T i l)
      (behindItem more T' i' l' c' p) ∧
    p.required = false ∧ p.line ≤ l' ∧ T'.toList
      = T.toList ++ .scalar cs false :: rest.flatMap fun cs' => [.item, .scalar cs' false] := by
  induction rest generalizing cs T i l with
  | nil =>
      exact ⟨_, _, _, _, _, reads_quoted T i l (h cs List.mem_cons_self) more, rfl,
        Nat.le_refl _, Array.toList_push⟩
  | cons cs' rest ih =>
      rcases List.forall_mem_cons.1 h with ⟨hcs, hrest⟩
      -- A scalar and the hyphen behind it, and then the items that are left.
      have hscalar := reads_quoted T i l hcs ((cs' :: rest).flatMap itemLine ++ more)
      have hhyphen := reads_hyphen (T.push (.scalar cs false)) (i + 1 + cs.length + 2) l cs'
        (rest.flatMap itemLine ++ more) (p := ⟨false, T.size, i + 1, l, 4⟩) rfl (Nat.le_refl l)
        (4 + cs.length + 2)
      rcases ih hrest ((T.push (.scalar cs false)).push .item) _ _ with
        ⟨T', i', l', c', p, hreads, hfree, hbefore, hT⟩
      refine ⟨T', i', l', c', p, ?_, hfree, hbefore, ?_⟩
      · have hsteps : 2 * (cs' :: rest).length + 1 = 1 + 1 + (2 * rest.length + 1) := by
          rw [List.length_cons]
          omega
        rw [hsteps]
        rw [flatMap_itemLine_append] at hscalar ⊢
        exact (hscalar.trans hhyphen).trans hreads
      · rw [hT, Array.toList_push, Array.toList_push, List.flatMap_cons, List.append_assoc,
          List.append_assoc]
        rfl

/-! ### What follows the items -/

section

variable (T : Array Token) (i l : Nat)

/-- The text after the items, from the end of the last line on. -/
def afterItems : List Char := "\ntheme:\n  extend: \x7b\x7d\nplugins: []\n".toList

theorem step?_theme {p : KeyPlace} (hfree : p.required = false) (hline : p.line ≤ l) (c : Nat) :
    step? ⟨⟨afterItems, i, l, c⟩, T, 2, [0, -1], some p, [], false⟩
      = some (true, ⟨⟨":\n  extend: \x7b\x7d\nplugins: []\n".toList, i + 6, l + 1, 5⟩,
        (T.push .blockEnd).push (.scalar "theme".toList true), 0, [-1],
        some ⟨true, (T.push .blockEnd).size, i + 1, l + 1, 0⟩, [], false⟩) := by
  have hskip : skip ⟨⟨afterItems, i, l, c⟩, T, 2, [0, -1], some p, [], false⟩
      = ⟨⟨afterItems.tail, i + 1, l + 1, 0⟩, T, 2, [0, -1], some p, [], true⟩ :=
    rfl
  exact (step?_eq hskip (expireAll?_of_lt rfl rfl (Nat.lt_succ_of_le hline) hfree) rfl).trans rfl

theorem step?_extend :
    step? ⟨⟨"\n  extend: \x7b\x7d\nplugins: []\n".toList, i, l, 6⟩, T, 0, [-1], none, [], false⟩
      = some (true, ⟨⟨": \x7b\x7d\nplugins: []\n".toList, i + 9, l + 1, 8⟩,
        T.push (.scalar "extend".toList true), 0, [-1],
        some ⟨false, T.size, i + 3, l + 1, 2⟩, [], false⟩) :=
  rfl

theorem reads_braces :
    Reads 2 ⟨⟨" \x7b\x7d\nplugins: []\n".toList, i, l, 9⟩, T, 2, [0, -1], none, [], false⟩
      ⟨⟨"\nplugins: []\n".toList, i + 3, l, 12⟩, (T.push .openMapping).push .closeMapping, 2,
        [0, -1], none, [], false⟩ := by
  have hopen : step? ⟨⟨" \x7b\x7d\nplugins: []\n".toList, i, l, 9⟩, T, 2, [0, -1], none, [],
        false⟩
      = some (true, ⟨⟨"\x7d\nplugins: []\n".toList, i + 2, l, 11⟩, T.push .openMapping, 2,
        [0, -1], none, [none], true⟩) :=
    rfl
  exact .step hopen (.single rfl)

theorem step?_plugins :
    step? ⟨⟨"\nplugins: []\n".toList, i, l, 12⟩, T, 2, [0, -1], none, [], false⟩
      = some (true, ⟨⟨": []\n".toList, i + 8, l + 1, 7⟩,
        (T.push .blockEnd).push (.scalar "plugins".toList true), 0, [-1],
        some ⟨true, (T.push .blockEnd).size, i + 1, l + 1, 0⟩, [], false⟩) :=
  rfl

theorem reads_brackets :
    Reads 2 ⟨⟨" []\n".toList, i, l, 8⟩, T, 0, [-1], none, [], false⟩
      ⟨⟨"\n".toList, i + 3, l, 11⟩, (T.push .openSequence).push .closeSequence, 0, [-1], none, [],
        false⟩ := by
  have hopen : step? ⟨⟨" []\n".toList, i, l, 8⟩, T, 0, [-1], none, [], false⟩
      = some (true, ⟨⟨"]\n".toList, i + 2, l, 10⟩, T.push .openSequence, 0, [-1], none, [none],
        true⟩) :=
    rfl
  exact .step hopen (.single rfl)

theorem run?_end (fuel : Nat) :
    run? (fuel + 1) ⟨⟨"\n".toList, i, l, 11⟩, T, 0, [-1], none, [], false⟩
      = some (T.push .blockEnd).toList :=
  rfl

/-- Everything after the items. -/
theorem run?_afterItems {p : KeyPlace} (hfree : p.required = false) (hline : p.line ≤ l)
    (c fuel : Nat) :
    run? (10 + (fuel + 1)) (behindItem afterItems T i l c p)
      = some (T.toList ++ [.blockEnd, .key, .scalar "theme".toList true, .value, .blockMapping,
        .key, .scalar "extend".toList true, .value, .openMapping, .closeMapping, .blockEnd, .key,
        .scalar "plugins".toList true, .value, .openSequence, .closeSequence, .blockEnd]) := by
  have htheme := Reads.step (step?_theme T i l hfree hline c)
    (.single (step?_colon (n := 5) (c := 0) rfl (by decide) rfl))
  have hextend := fun T i l => Reads.step (step?_extend T i l)
    (.single (step?_colon_open (n := 6) (c := 2) rfl (by decide) (by decide)))
  have hplugins := fun T i l => Reads.step (step?_plugins T i l)
    (.single (step?_colon (n := 7) (c := 0) rfl (by decide) rfl))
  -- Ten steps: the three names with their colons, and the two pairs of brackets.
  have hall := (((htheme.trans (hextend _ _ _)).trans (reads_braces _ _ _)).trans
    (hplugins _ _ _)).trans (reads_brackets _ _ _)
  refine (hall.run? (fuel + 1)).trans ?_
  rw [run?_end]
  simp only [Array.toList_push, List.append_assoc]
  rfl

end

end Lexer

/-! ### The text -/

/-- The text of a first configuration with some patterns, as characters. -/
def starterChars (first : List Char) (rest : List (List Char)) : List Char :=
  "content:\n  - ".toList ++
    ('"' :: (first ++ '"' :: (rest.flatMap Lexer.itemLine ++ Lexer.afterItems)))

/-- The tokens of a first configuration. -/
def starterTokens (texts : List (List Char)) : List Token :=
  [.blockMapping, .key, .scalar "content".toList true, .value, .blockSequence]
    ++ (texts.flatMap (fun cs => [.item, .scalar cs false]) ++
      [.blockEnd, .key, .scalar "theme".toList true, .value, .blockMapping, .key,
        .scalar "extend".toList true, .value, .openMapping, .closeMapping, .blockEnd, .key,
        .scalar "plugins".toList true, .value, .openSequence, .closeSequence, .blockEnd])

theorem two_mul_length_le {α β : Type} {f : α → List β} (h : ∀ a, 2 ≤ (f a).length) (as : List α) :
    2 * as.length ≤ (as.flatMap f).length := by
  induction as with
  | nil => exact Nat.zero_le _
  | cons a as ih =>
      have hfirst := h a
      rw [List.flatMap_cons, List.length_append, List.length_cons]
      omega

theorem add_le_length_append {before after : List Char} (hbefore : 3 ≤ before.length)
    (hafter : 10 ≤ after.length) (first : List Char) (rest : List (List Char)) :
    3 + (2 * rest.length + 1) + (10 + 1) ≤ (before
      ++ ('"' :: (first ++ '"' :: (rest.flatMap Lexer.itemLine ++ after)))).length + 2 := by
  have hline : ∀ cs, 2 ≤ (Lexer.itemLine cs).length := by
    intro cs
    have hopen : 2 ≤ "\n  - \"".toList.length := by decide
    exact Nat.le_trans hopen (List.prefix_append _ _).length_le
  have hitems := two_mul_length_le hline rest
  simp only [List.length_append, List.length_cons]
  omega

theorem run?_starterChars {first : List Char} {rest : List (List Char)}
    (h : ∀ cs ∈ first :: rest, ∀ c ∈ cs, isLiteral c = true) :
    (Lexer.start (starterChars first rest)).run? ((starterChars first rest).length + 2)
      = some (starterTokens (first :: rest)) := by
  rcases Lexer.reads_content first (rest.flatMap Lexer.itemLine ++ Lexer.afterItems) with
    ⟨T, hT, hcontent⟩
  rcases Lexer.reads_items h Lexer.afterItems T 12 1 with
    ⟨T', i, l, c, p, hitems, hfree, hline, hT'⟩
  -- Each step reads a character at least, so there is fuel enough.
  have hlength : 3 + (2 * rest.length + 1) + (10 + 1) ≤ (starterChars first rest).length + 2 :=
    add_le_length_append (by decide) (by decide) first rest
  rcases Nat.exists_eq_add_of_le hlength with ⟨fuel, hfuel⟩
  have hsteps : (starterChars first rest).length + 2
      = 3 + (2 * rest.length + 1) + (10 + (fuel + 1)) := by
    omega
  rw [hsteps]
  refine ((hcontent.trans hitems).run? (10 + (fuel + 1))).trans ?_
  rw [Lexer.run?_afterItems T' i l hfree hline, hT', hT]
  rfl

/-! ### The document -/

/-- The document of a first configuration. -/
def starterNode (patterns : List String) : Node :=
  .mapping [(.scalar "content" true, .sequence (patterns.map (.scalar · false))),
    (.scalar "theme" true, .mapping [(.scalar "extend" true, .mapping [])]),
    (.scalar "plugins" true, .sequence [])]

theorem depth_starterNode (patterns : List String) :
    (starterNode patterns).depth ≤ Node.maxDepth := by
  have hitems : Node.itemsDepth (patterns.map (.scalar · false)) = 0 := by
    induction patterns with
    | nil => rfl
    | cons pattern patterns ih =>
        rw [List.map_cons, Node.itemsDepth, Node.depth, ih]
        rfl
  rw [starterNode, Node.depth, Node.entriesDepth, Node.depth, Node.depth, hitems]
  decide

/-- What follows the items is read as two more entries. -/
theorem run_entries_afterItems (n : Nat) :
    (Reading.entries (n + 8)).run ⟨[.key, .scalar "theme".toList true, .value, .blockMapping, .key,
        .scalar "extend".toList true, .value, .openMapping, .closeMapping, .blockEnd, .key,
        .scalar "plugins".toList true, .value, .openSequence, .closeSequence, .blockEnd], []⟩
      = some ([(.scalar (String.ofList "theme".toList) true,
          .mapping [(.scalar (String.ofList "extend".toList) true, .mapping [])]),
        (.scalar (String.ofList "plugins".toList) true, .sequence [])], ⟨[], []⟩) :=
  Reading.run_entries_cons rfl
    (Reading.run_node_blockMapping
      (Reading.run_entries_cons rfl Reading.run_node_openMapping Reading.run_entries_nil))
    (Reading.run_entries_cons rfl Reading.run_node_openSequence Reading.run_entries_nil)

theorem run_node_starterTokens (texts : List (List Char)) (n : Nat) :
    (Reading.node (texts.length + (n + 11)) true false).run ⟨starterTokens texts, []⟩
      = some (.mapping [(.scalar (String.ofList "content".toList) true,
          .sequence (texts.map fun cs => .scalar (String.ofList cs) false)),
        (.scalar (String.ofList "theme".toList) true,
          .mapping [(.scalar (String.ofList "extend".toList) true, .mapping [])]),
        (.scalar (String.ofList "plugins".toList) true, .sequence [])], ⟨[], []⟩) :=
  Reading.run_node_blockMapping <|
    Reading.run_entries_cons rfl
      (Reading.run_node_blockSequence (Reading.run_items_scalars (n := n + 3) texts false))
      (run_entries_afterItems (texts.length + n))

theorem ofTokens?_starterTokens (patterns : List String) :
    ofTokens? (starterTokens (patterns.map String.toList))
      = some (some (starterNode patterns)) := by
  have hnode : starterNode patterns = .mapping [(.scalar (String.ofList "content".toList) true,
        .sequence ((patterns.map String.toList).map fun cs => .scalar (String.ofList cs) false)),
      (.scalar (String.ofList "theme".toList) true,
        .mapping [(.scalar (String.ofList "extend".toList) true, .mapping [])]),
      (.scalar (String.ofList "plugins".toList) true, .sequence [])] := by
    simp only [List.map_map, Function.comp_def, String.ofList_toList]
    rfl
  -- Each item is two tokens, so there is fuel enough for the nodes.
  have hfuel : (patterns.map String.toList).length + 11
      ≤ 4 * (starterTokens (patterns.map String.toList)).length + 4 := by
    have hitems := two_mul_length_le (f := fun cs : List Char => [Token.item, .scalar cs false])
      (fun _ => Nat.le_refl _) (patterns.map String.toList)
    rw [starterTokens, List.length_append, List.length_append]
    simp only [List.length_cons, List.length_nil]
    omega
  have hrun : (Reading.node (4 * (starterTokens (patterns.map String.toList)).length + 4) true
        false).run ⟨starterTokens (patterns.map String.toList), []⟩
      = some (starterNode patterns, ⟨[], []⟩) := by
    rcases Nat.exists_eq_add_of_le hfuel with ⟨n, hn⟩
    rw [hnode, hn, Nat.add_assoc, Nat.add_comm 11]
    exact run_node_starterTokens _ n
  exact ofTokens?_eq Token.noConfusion hrun (depth_starterNode patterns)

theorem isQuotable_iff {text : String} : isQuotable text = true ↔
    ∀ c ∈ text.toList, isPrintable c = true ∧ isLiteral c = true := by
  rw [isQuotable, List.all_eq_true]
  simp only [Bool.and_eq_true]

theorem all_isPrintable_starterChars {first : List Char} {rest : List (List Char)}
    (h : ∀ cs ∈ first :: rest, ∀ c ∈ cs, isPrintable c = true) :
    (starterChars first rest).all isPrintable = true := by
  have hbefore : "content:\n  - ".toList.all isPrintable = true := by decide
  have hafter : Lexer.afterItems.all isPrintable = true := by decide
  have hopen : "\n  - \"".toList.all isPrintable = true := by decide
  have hquote : isPrintable '"' = true := by decide
  rcases List.forall_mem_cons.1 h with ⟨hfirst, hrest⟩
  -- A line of an item is what opens it, the text and the quote behind it.
  have hline : ∀ cs ∈ rest, ∀ c ∈ Lexer.itemLine cs, isPrintable c = true := by
    intro cs hcs
    exact List.forall_mem_append.2 ⟨List.all_eq_true.1 hopen, List.forall_mem_append.2
      ⟨hrest cs hcs, List.forall_mem_singleton.2 hquote⟩⟩
  have hitems : ∀ c ∈ rest.flatMap Lexer.itemLine, isPrintable c = true := by
    intro c hc
    rcases List.mem_flatMap.1 hc with ⟨cs, hcs, hc⟩
    exact hline cs hcs c hc
  refine List.all_eq_true.2 (List.forall_mem_append.2 ⟨List.all_eq_true.1 hbefore, ?_⟩)
  refine List.forall_mem_cons.2 ⟨hquote, ?_⟩
  exact List.forall_mem_append.2 ⟨hfirst, List.forall_mem_cons.2 ⟨hquote,
    List.forall_mem_append.2 ⟨hitems, List.all_eq_true.1 hafter⟩⟩⟩

/-- Texts that can be quoted are read back. -/
theorem read?_starterChars {first : String} {rest : List String}
    (h : ∀ text ∈ first :: rest, isQuotable text = true) {text : String}
    (htext : text.toList = starterChars first.toList (rest.map String.toList)) :
    read? text = some (some (starterNode (first :: rest))) := by
  -- A text that can be quoted can be printed, and stands for itself between quotes.
  have hmem : ∀ cs ∈ first.toList :: rest.map String.toList,
      ∀ c ∈ cs, isPrintable c = true ∧ isLiteral c = true := by
    intro cs hcs
    rcases List.mem_map.1 (show cs ∈ (first :: rest).map String.toList from hcs) with
      ⟨pattern, hpattern, rfl⟩
    exact isQuotable_iff.1 (h pattern hpattern)
  have htokens : tokens? text = some (starterTokens ((first :: rest).map String.toList)) := by
    have hstart : tokens? text
        = if (starterChars first.toList (rest.map String.toList)).all isPrintable then
            (Lexer.start (starterChars first.toList (rest.map String.toList))).run?
              ((starterChars first.toList (rest.map String.toList)).length + 2)
          else none := by
      rw [tokens?, htext]
      rfl
    rw [hstart, if_pos (all_isPrintable_starterChars fun cs hcs c hc => (hmem cs hcs c hc).1)]
    exact run?_starterChars fun cs hcs c hc => (hmem cs hcs c hc).2
  rw [read?, htokens]
  exact ofTokens?_starterTokens (first :: rest)

end Yaml

namespace Config

open Yaml

theorem mapM_content (patterns : List String) :
    (patterns.map (Node.scalar · false)).mapM (fun n => n.value? >>= ContentEntry.ofValue?)
      = some (patterns.map .glob) := by
  induction patterns with
  | nil => rfl
  | cons pattern patterns ih =>
      rw [List.map_cons, List.mapM_cons, ih]
      rfl

theorem ofNode?_starterNode (patterns : List String) :
    ofNode? (starterNode patterns)
      = some { Config.default with content := patterns.map .glob } := by
  have hcontent : ∀ n, ofNode? (.mapping [(.scalar "content" true, n),
        (.scalar "theme" true, .mapping [(.scalar "extend" true, .mapping [])]),
        (.scalar "plugins" true, .sequence [])])
      = (listOf? (fun n => n.value? >>= ContentEntry.ofValue?) n).bind fun content =>
        some { Config.default with content := content } := by
    intro n
    rfl
  rw [starterNode, hcontent, listOf?, itemsOf?]
  exact congrArg (Option.bind · _) (mapM_content patterns)

end Config

namespace Discovery

theorem toList_join_map (f : String → String) (texts : List String) :
    (String.join (texts.map f)).toList = texts.flatMap fun text => (f text).toList := by
  induction texts with
  | nil => rfl
  | cons text texts ih =>
      rw [List.map_cons, String.join_cons, String.toList_append, ih, List.flatMap_cons]

theorem cons_line (text : String) (more : List Char) :
    '\n' :: (("  - \"" ++ text ++ "\"\n").toList ++ more)
      = Yaml.Lexer.itemLine text.toList ++ '\n' :: more := by
  rw [String.toList_append, String.toList_append, List.append_assoc, List.append_assoc,
    Yaml.Lexer.itemLine_append]
  rfl

/-- The end of each line but the last belongs to the item below. -/
theorem flatMap_line (rest : List String) (more : List Char) :
    '\n' :: (rest.flatMap (fun text => ("  - \"" ++ text ++ "\"\n").toList) ++ more)
      = (rest.map String.toList).flatMap Yaml.Lexer.itemLine ++ '\n' :: more := by
  induction rest with
  | nil => rfl
  | cons text rest ih =>
      rw [List.flatMap_cons, List.map_cons, List.flatMap_cons, List.append_assoc,
        List.append_assoc, cons_line]
      exact congrArg (Yaml.Lexer.itemLine text.toList ++ ·) ih

theorem toList_items (first : String) (rest : List String) (more : List Char) :
    (first :: rest).flatMap (fun text => ("  - \"" ++ text ++ "\"\n").toList) ++ more
      = "  - ".toList ++ ('"' :: (first.toList ++ '"' ::
        ((rest.map String.toList).flatMap Yaml.Lexer.itemLine ++ '\n' :: more))) := by
  rw [← flatMap_line, List.flatMap_cons, String.toList_append, String.toList_append,
    List.append_assoc, List.append_assoc, List.append_assoc]
  rfl

theorem toList_starterText (d : Discovery) {first : String} {rest : List String}
    (h : d.starterPatterns = first :: rest) :
    d.starterText.toList = Yaml.starterChars first.toList (rest.map String.toList) := by
  rw [starterText, h, String.toList_append, String.toList_append, toList_join_map,
    List.append_assoc, toList_items]
  rfl

theorem starterPatterns_ne_nil (d : Discovery) : d.starterPatterns ≠ [] := by
  rw [starterPatterns]
  split
  · exact List.cons_ne_nil _ _
  · next hne => exact fun hnil => hne (List.isEmpty_iff.2 hnil)

end Discovery

/-- The text of a first configuration is read as the configuration of its patterns. -/
theorem Config.parse?_starterText {d : Discovery}
    (h : ∀ pattern ∈ d.starterPatterns, Yaml.isQuotable pattern = true) :
    parse? d.starterText
      = some { Config.default with content := d.starterPatterns.map .glob } := by
  rcases hpatterns : d.starterPatterns with _ | ⟨first, rest⟩
  · exact absurd hpatterns d.starterPatterns_ne_nil
  · rw [hpatterns] at h
    have htext := d.toList_starterText hpatterns
    have hblank : Text.isBlankText d.starterText = false := by
      rw [Text.isBlankText, htext]
      rfl
    rw [parse?, hblank, if_neg Bool.false_ne_true, Yaml.read?_starterChars h htext]
    exact ofNode?_starterNode (first :: rest)

end UtilityCss
