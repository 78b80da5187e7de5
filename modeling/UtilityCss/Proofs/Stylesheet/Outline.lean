import UtilityCss.Proofs.Text.Nesting
import UtilityCss.Proofs.Text.Tidy
import UtilityCss.Rule
import UtilityCss.Text.Cut

/-!
# Reading Stylesheets

A reader of stylesheets that knows nothing of how they are written.

The text is split at braces and semicolons, and white space around the pieces is
ignored. That gives the outline: what opens, what is declared, what closes. In a
second pass the outline is gathered into rules, with a stack of the at-rules
that are open. The reader is strict, so that having read something says much: a
rule inside a rule, a declaration outside of rules, a piece that is no
declaration, and a brace without its partner all end the reading.

A writer puts a text together from parts, and `Reads` is what makes the reader
follow the parts: a text reads as some marks if, whatever comes behind it, the
outline is those marks and then the outline of the rest.

## Main definitions

* `Mark`: A piece of a stylesheet.
* `Outline.marksFrom`: The outline of a text.
* `Entry`: A rule that was read, with the at-rules around it.
* `Outline.gather`: The rules of an outline.
* `Outline.read`: The rules of a text.
* `Outline.Reads`: A text can be read apart from what follows.
* `Outline.IsTidy`, `Outline.IsClear`: What can be read of a declaration: all of it, or
  all but the outer blanks of its value.
* `Outline.trimmed`: A declaration as it is read.

## Theorems

* `reads_append`: Texts one after the other read as their marks.
* `reads_opens`, `reads_closes`, `reads_declares`: What a head, a closing brace
  and a declaration read as.
* `depthAfter_of_marksFrom`: The outline has the braces of the text.
* `depthAfter_of_read`: A text that can be read has balanced braces.
* `gather_opens`, `gather_closes`, `gather_rule`: How at-rules and rules are
  gathered.
-/

namespace UtilityCss

/-- A piece of a stylesheet. -/
inductive Mark where
  /-- What stands in front of an opening brace. -/
  | opens (head : String)
  /-- A declaration. -/
  | declares (d : Declaration)
  /-- A closing brace. -/
  | closes
deriving DecidableEq, Repr

/-- A rule that was read. -/
structure Entry where
  /-- The at-rules around it, outermost first. -/
  atRules : List String
  /-- The selector. -/
  selector : String
  /-- The declarations, in order. -/
  declarations : List Declaration
deriving DecidableEq, Repr

namespace Outline

/-- The marks of a piece in front of a semicolon or a closing brace: none if it
    is blank, or else a declaration, with its first colon between property and
    value. -/
def declared? (piece : List Char) : Option (List Mark) :=
  if piece.all Text.isBlank then some []
  else (Text.cutFirst ':' piece).map fun (property, value) =>
    [.declares ⟨String.ofList (Text.trimBlank property), String.ofList (Text.trimBlank value)⟩]

/-- The outline of a text behind the start of a piece. -/
def marksFrom : List Char → List Char → Option (List Mark)
  | piece, [] => if piece.all Text.isBlank then some [] else none
  | piece, c :: cs =>
    if c = '{' then
      (marksFrom [] cs).map (.opens (String.ofList (Text.trimBlank piece)) :: ·)
    else if c = '}' then
      (declared? piece).bind fun marks => (marksFrom [] cs).map (marks ++ .closes :: ·)
    else if c = ';' then
      (declared? piece).bind fun marks => (marksFrom [] cs).map (marks ++ ·)
    else marksFrom (piece ++ [c]) cs

/-- The outline of a text. -/
def ofText? (text : String) : Option (List Mark) := marksFrom [] text.toList

/-- What opens here is an at-rule. -/
def isAtRule (head : String) : Bool := head.toList.head? = some '@'

/-- The rules of an outline, given the at-rules that are open, innermost first,
    and the selector and declarations of the rule that is. -/
def gather : List String → Option (String × List Declaration) → List Mark → Option (List Entry)
  | [], none, [] => some []
  | stack, none, .opens head :: marks =>
    if isAtRule head then gather (head :: stack) none marks
    else gather stack (some (head, [])) marks
  | _ :: stack, none, .closes :: marks => gather stack none marks
  | stack, some (selector, declarations), .declares d :: marks =>
    gather stack (some (selector, declarations ++ [d])) marks
  | stack, some (selector, declarations), .closes :: marks =>
    (gather stack none marks).map (⟨stack.reverse, selector, declarations⟩ :: ·)
  | _, _, _ => none

/-- The rules that a text is read as. -/
def read (text : String) : Option (List Entry) := (ofText? text).bind (gather [] none)

/-- The at-rules that an outline opens, in order. -/
def openedAtRules : List Mark → List String
  | [] => []
  | .opens head :: marks =>
    if isAtRule head then head :: openedAtRules marks else openedAtRules marks
  | .declares _ :: marks => openedAtRules marks
  | .closes :: marks => openedAtRules marks

/-- The text reads as the marks, whatever comes behind it. -/
def Reads (text : List Char) (marks : List Mark) : Prop :=
  ∀ rest, marksFrom [] (text ++ rest) = (marksFrom [] rest).map (marks ++ ·)

theorem ofText?_of_reads {text : String} {marks : List Mark} (h : Reads text.toList marks) :
    ofText? text = some marks := by
  have hend := h []
  simp only [List.append_nil, marksFrom, List.all_nil, if_true, Option.map_some] at hend
  exact hend

theorem reads_nil : Reads [] [] := by
  intro rest
  simp only [List.nil_append, Option.map_id_fun', id_eq]

/-- Texts one after the other read as their marks. -/
theorem reads_append {text text' : List Char} {marks marks' : List Mark}
    (h : Reads text marks) (h' : Reads text' marks') :
    Reads (text ++ text') (marks ++ marks') := by
  intro rest
  rw [List.append_assoc, h, h', Option.map_map]
  congr 1
  funext later
  simp only [Function.comp_apply, List.append_assoc]

theorem reads_flatMap {α : Type} {text : α → List Char} {marks : α → List Mark} {as : List α}
    (h : ∀ a ∈ as, Reads (text a) (marks a)) : Reads (as.flatMap text) (as.flatMap marks) := by
  induction as with
  | nil => exact reads_nil
  | cons a as ih =>
      rw [List.flatMap_cons, List.flatMap_cons]
      have htail := ih fun a' ha' => h a' (List.mem_cons_of_mem _ ha')
      exact reads_append (h a List.mem_cons_self) htail

-- What holds no brace and no semicolon only makes the piece longer.
theorem marksFrom_append {cs : List Char} (h : ∀ c ∈ cs, c ∉ Text.blockMarks)
    (piece rest : List Char) : marksFrom piece (cs ++ rest) = marksFrom (piece ++ cs) rest := by
  -- The piece is generalized, because each character moves into it.
  induction cs generalizing piece with
  | nil => rw [List.nil_append, List.append_nil]
  | cons c cs ih =>
      rcases Text.not_mem_blockMarks_iff.1 (h c List.mem_cons_self) with ⟨hopens, hcloses, hends⟩
      rw [List.cons_append, marksFrom, if_neg hopens, if_neg hcloses, if_neg hends,
        ih fun d hd => h d (List.mem_cons_of_mem _ hd), List.append_assoc,
        List.singleton_append]

section Blank

variable {blanks : List Char} (h : blanks.all Text.isBlank = true)
include h

-- Blanks are no colons, so they stay in front of the first one.
theorem cutFirst_append_blank (cs : List Char) :
    Text.cutFirst ':' (blanks ++ cs)
      = (Text.cutFirst ':' cs).map fun (a, b) => (blanks ++ a, b) := by
  induction blanks with
  | nil => simp only [List.nil_append, Option.map_id_fun', id_eq]
  | cons c blanks ih =>
      rw [List.all_cons, Bool.and_eq_true] at h
      have hc : c ≠ ':' := by
        rintro rfl
        exact absurd h.1 (by decide)
      rw [List.cons_append, Text.cutFirst, if_neg hc, ih h.2, Option.map_map]
      rfl

theorem declared?_append_blank (piece : List Char) :
    declared? (blanks ++ piece) = declared? piece := by
  unfold declared?
  rw [List.all_append, h, Bool.true_and, cutFirst_append_blank h, Option.map_map]
  congr 2
  funext ⟨property, value⟩
  simp only [Function.comp_apply, Text.trimBlank_append h]

-- Blanks in front of a piece are ignored, wherever the piece ends.
theorem marksFrom_append_blank (piece cs : List Char) :
    marksFrom (blanks ++ piece) cs = marksFrom piece cs := by
  induction cs generalizing piece with
  | nil => rw [marksFrom, marksFrom, List.all_append, h, Bool.true_and]
  | cons c cs ih =>
      simp only [marksFrom, declared?_append_blank h, Text.trimBlank_append h,
        List.append_assoc, ih]

-- Blanks read as nothing.
theorem reads_blank : Reads blanks [] := by
  intro rest
  have hplain : ∀ c ∈ blanks, c ∉ Text.blockMarks := fun c hc =>
    Text.not_mem_blockMarks_of_isBlank (List.all_eq_true.1 h c hc)
  have hignored := marksFrom_append_blank h [] rest
  rw [List.append_nil] at hignored
  rw [marksFrom_append hplain, List.nil_append, hignored]
  simp only [List.nil_append, Option.map_id_fun', id_eq]

theorem reads_closes : Reads (blanks ++ ['}']) [.closes] := by
  have hbrace : Reads ['}'] [.closes] := by
    intro rest
    rw [List.singleton_append, marksFrom, if_neg (by decide), if_pos rfl]
    rfl
  exact reads_append (reads_blank h) hbrace

end Blank

section Between

variable {before after : List Char} (hbefore : before.all Text.isBlank = true)
  (hafter : after.all Text.isBlank = true)
include hbefore hafter

theorem not_mem_blockMarks_between {s : String} (hs : Text.IsTidy s) :
    ∀ c ∈ before ++ s.toList ++ after, c ∉ Text.blockMarks := by
  intro c hc
  rcases List.mem_append.1 hc with hc | hc
  · rcases List.mem_append.1 hc with hc | hc
    · exact Text.not_mem_blockMarks_of_isBlank (List.all_eq_true.1 hbefore c hc)
    · exact hs.contained c hc
  · exact Text.not_mem_blockMarks_of_isBlank (List.all_eq_true.1 hafter c hc)

/-- A head between blanks and an opening brace read as what opens. -/
theorem reads_opens {head : String} (hhead : Text.IsTidy head) :
    Reads (before ++ head.toList ++ after ++ ['{']) [.opens head] := by
  intro rest
  have hplain := not_mem_blockMarks_between hbefore hafter hhead
  rw [List.append_assoc, marksFrom_append hplain, List.nil_append, List.singleton_append,
    marksFrom, if_pos rfl, Text.trimBlank_between hhead hbefore hafter, String.ofList_toList]
  rfl

end Between

/-- A declaration whose parts can be told apart. -/
structure IsTidy (d : Declaration) : Prop where
  property : Text.IsTidy d.property
  colon : ':' ∉ d.property.toList
  value : Text.IsTidy d.value

instance (d : Declaration) : Decidable (IsTidy d) :=
  decidable_of_iff (Text.IsTidy d.property ∧ ':' ∉ d.property.toList ∧ Text.IsTidy d.value)
    ⟨fun h => ⟨h.1, h.2.1, h.2.2⟩, fun h => ⟨h.property, h.colon, h.value⟩⟩

/-- A declaration whose property can be told from its value. The value may have outer
    blanks. -/
structure IsClear (d : Declaration) : Prop where
  property : Text.IsTidy d.property
  colon : ':' ∉ d.property.toList
  value : Text.IsContained d.value

/-- The declaration without the outer blanks of its value. -/
def trimmed (d : Declaration) : Declaration := ⟨d.property, Text.trim d.value⟩

theorem IsTidy.isClear {d : Declaration} (h : IsTidy d) : IsClear d :=
  ⟨h.property, h.colon, h.value.contained⟩

theorem IsTidy.trimmed_eq {d : Declaration} (h : IsTidy d) : trimmed d = d := by
  have hvalue := Text.trimBlank_between h.value List.all_nil List.all_nil
  rw [List.nil_append, List.append_nil] at hvalue
  rw [trimmed, Text.trim, hvalue, String.ofList_toList]

section Declares

variable {before between : List Char} (hbefore : before.all Text.isBlank = true)
  (hbetween : between.all Text.isBlank = true) {d : Declaration} (hd : IsClear d)
include hbefore hbetween hd

theorem declared?_eq :
    declared? (before ++ d.property.toList ++ ':' :: (between ++ d.value.toList))
      = some [.declares (trimmed d)] := by
  -- The piece is not blank, and its first colon is the one behind the property.
  have hblank := Text.all_isBlank_eq_false hd.property before
    (':' :: (between ++ d.value.toList))
  have hcolon : ':' ∉ before ++ d.property.toList := by
    intro hmem
    rcases List.mem_append.1 hmem with hmem | hmem
    · exact absurd (List.all_eq_true.1 hbefore _ hmem) (by decide)
    · exact hd.colon hmem
  have hproperty := Text.trimBlank_between hd.property hbefore List.all_nil
  rw [List.append_nil] at hproperty
  unfold declared?
  rw [hblank, if_neg Bool.false_ne_true, Text.cutFirst_append hcolon, Option.map_some]
  simp only [hproperty, Text.trimBlank_append hbetween, String.ofList_toList]
  rfl

theorem not_mem_blockMarks_declared :
    ∀ c ∈ before ++ d.property.toList ++ ':' :: (between ++ d.value.toList),
      c ∉ Text.blockMarks := by
  intro c hc
  have hproperty := not_mem_blockMarks_between hbefore List.all_nil hd.property
  rw [List.append_nil] at hproperty
  rcases List.mem_append.1 hc with hc | hc
  · exact hproperty c hc
  · rcases List.mem_cons.1 hc with rfl | hc
    · decide
    · rcases List.mem_append.1 hc with hc | hc
      · exact Text.not_mem_blockMarks_of_isBlank (List.all_eq_true.1 hbetween c hc)
      · exact hd.value c hc

/-- A declaration and a semicolon read as the declaration. -/
theorem reads_declares :
    Reads (before ++ d.property.toList ++ ':' :: (between ++ d.value.toList) ++ [';'])
      [.declares (trimmed d)] := by
  intro rest
  rw [List.append_assoc, marksFrom_append (not_mem_blockMarks_declared hbefore hbetween hd),
    List.nil_append, List.singleton_append, marksFrom, if_neg (by decide),
    if_neg (by decide), if_pos rfl, declared?_eq hbefore hbetween hd, Option.bind_some]

theorem reads_declares_closes :
    Reads (before ++ d.property.toList ++ ':' :: (between ++ d.value.toList) ++ ['}'])
      [.declares (trimmed d), .closes] := by
  intro rest
  rw [List.append_assoc, marksFrom_append (not_mem_blockMarks_declared hbefore hbetween hd),
    List.nil_append, List.singleton_append, marksFrom, if_neg (by decide), if_pos rfl,
    declared?_eq hbefore hbetween hd, Option.bind_some]
  rfl

end Declares

/-- The braces open at the end of an outline that starts with the given number
    open, or `none` if one closes that is not open. -/
def depthAfter : Nat → List Mark → Option Nat
  | depth, [] => some depth
  | depth, .opens _ :: marks => depthAfter (depth + 1) marks
  | depth, .declares _ :: marks => depthAfter depth marks
  | 0, .closes :: _ => none
  | depth + 1, .closes :: marks => depthAfter depth marks

theorem depthAfter_declared {piece : List Char} {marks : List Mark}
    (h : declared? piece = some marks) (depth : Nat) (later : List Mark) :
    depthAfter depth (marks ++ later) = depthAfter depth later := by
  unfold declared? at h
  split at h
  · rw [← Option.some.inj h, List.nil_append]
  · rcases Option.map_eq_some_iff.1 h with ⟨⟨property, value⟩, -, rfl⟩
    rw [List.singleton_append, depthAfter]

/-- The outline has the braces of the text. -/
theorem depthAfter_of_marksFrom {piece cs : List Char} {marks : List Mark}
    (h : marksFrom piece cs = some marks) (depth : Nat) :
    Text.depthAfter '{' '}' depth cs = depthAfter depth marks := by
  -- Piece, marks and depth all change from one character to the next.
  induction cs generalizing piece marks depth with
  | nil =>
      rw [marksFrom, Option.ite_none_right_eq_some] at h
      rw [← Option.some.inj h.2]
      rfl
  | cons c cs ih =>
      simp only [marksFrom] at h
      simp only [Text.depthAfter]
      by_cases hopens : c = '{'
      · rw [if_pos hopens] at h ⊢
        rcases Option.map_eq_some_iff.1 h with ⟨later, hlater, rfl⟩
        exact ih hlater (depth + 1)
      rw [if_neg hopens] at h ⊢
      by_cases hcloses : c = '}'
      · rw [if_pos hcloses] at h ⊢
        rcases Option.bind_eq_some_iff.1 h with ⟨here, hhere, h⟩
        rcases Option.map_eq_some_iff.1 h with ⟨later, hlater, rfl⟩
        rw [depthAfter_declared hhere]
        cases depth with
        | zero => rfl
        | succ depth => exact ih hlater depth
      rw [if_neg hcloses] at h ⊢
      by_cases hends : c = ';'
      · rw [if_pos hends] at h
        rcases Option.bind_eq_some_iff.1 h with ⟨here, hhere, h⟩
        rcases Option.map_eq_some_iff.1 h with ⟨later, hlater, rfl⟩
        rw [depthAfter_declared hhere]
        exact ih hlater depth
      · rw [if_neg hends] at h
        exact ih h depth

/-- An outline that can be gathered closes what is open: the at-rules on the
    stack, and the rule if there is one. -/
theorem depthAfter_of_gather {stack : List String} {rule : Option (String × List Declaration)}
    {marks : List Mark} {entries : List Entry} (h : gather stack rule marks = some entries) :
    depthAfter (stack.length + rule.toList.length) marks = some 0 := by
  -- Each open at-rule and the open rule owe one closing brace.
  fun_induction gather stack rule marks generalizing entries with
  | case1 => rfl
  | case2 stack head marks _ ih => exact ih h
  | case3 stack head marks _ ih => exact ih h
  | case4 head stack marks ih => exact ih h
  | case5 stack selector declarations d marks ih => exact ih h
  | case6 stack selector declarations marks ih =>
      rcases Option.map_eq_some_iff.1 h with ⟨later, hlater, -⟩
      exact ih hlater
  | case7 => simp only [reduceCtorEq] at h

/-- A text that can be read has balanced braces. -/
theorem depthAfter_of_read {text : String} {entries : List Entry}
    (h : read text = some entries) : Text.depthAfter '{' '}' 0 text.toList = some 0 := by
  rcases Option.bind_eq_some_iff.1 h with ⟨marks, hmarks, hentries⟩
  rw [depthAfter_of_marksFrom hmarks]
  exact depthAfter_of_gather hentries

/-- At-rules that open go on the stack. -/
theorem gather_opens {chain : List String} (h : ∀ head ∈ chain, isAtRule head = true)
    (stack : List String) (marks : List Mark) :
    gather stack none (chain.map .opens ++ marks) = gather (chain.reverse ++ stack) none marks := by
  -- Heads go on the stack in order, so the last one is on top.
  induction chain generalizing stack with
  | nil => rfl
  | cons head chain ih =>
      have hhead := h head List.mem_cons_self
      rw [List.map_cons, List.cons_append, gather, if_pos hhead,
        ih fun head' hmem => h head' (List.mem_cons_of_mem _ hmem), List.reverse_cons,
        List.append_assoc, List.singleton_append]

/-- Closing braces take as many at-rules off the stack. -/
theorem gather_closes (opened stack : List String) (marks : List Mark) :
    gather (opened ++ stack) none (List.replicate opened.length .closes ++ marks)
      = gather stack none marks := by
  induction opened with
  | nil => rfl
  | cons head opened ih =>
      rw [List.length_cons, List.replicate_succ, List.cons_append, List.cons_append, gather, ih]

theorem gather_declares (stack : List String) (selector : String)
    (before declarations : List Declaration) (marks : List Mark) :
    gather stack (some (selector, before)) (declarations.map .declares ++ marks)
      = gather stack (some (selector, before ++ declarations)) marks := by
  induction declarations generalizing before with
  | nil => rw [List.map_nil, List.nil_append, List.append_nil]
  | cons d declarations ih =>
      rw [List.map_cons, List.cons_append, gather, ih, List.append_assoc, List.singleton_append]

/-- The marks of a rule make one entry, under the at-rules that are open. -/
theorem gather_rule {selector : String} (h : isAtRule selector = false) (stack : List String)
    (declarations : List Declaration) (marks : List Mark) :
    gather stack none (.opens selector :: declarations.map .declares ++ .closes :: marks)
      = (gather stack none marks).map (⟨stack.reverse, selector, declarations⟩ :: ·) := by
  have hselector : ¬isAtRule selector = true := by
    rw [h]
    exact Bool.false_ne_true
  rw [List.cons_append, gather, if_neg hselector, gather_declares, List.nil_append, gather]

theorem openedAtRules_append (marks later : List Mark) :
    openedAtRules (marks ++ later) = openedAtRules marks ++ openedAtRules later := by
  induction marks with
  | nil => rfl
  | cons mark marks ih =>
      cases mark with
      | opens head =>
          rw [List.cons_append, openedAtRules, openedAtRules, ih]
          split
          · rw [List.cons_append]
          · rfl
      | declares d => exact ih
      | closes => exact ih

theorem openedAtRules_flatMap {α : Type} (marks : α → List Mark) (as : List α) :
    openedAtRules (as.flatMap marks) = as.flatMap fun a => openedAtRules (marks a) := by
  induction as with
  | nil => rfl
  | cons a as ih => rw [List.flatMap_cons, openedAtRules_append, ih, List.flatMap_cons]

theorem openedAtRules_opens {chain : List String} (h : ∀ head ∈ chain, isAtRule head = true) :
    openedAtRules (chain.map .opens) = chain := by
  induction chain with
  | nil => rfl
  | cons head chain ih =>
      have hhead := h head List.mem_cons_self
      rw [List.map_cons, openedAtRules, if_pos hhead,
        ih fun head' hmem => h head' (List.mem_cons_of_mem _ hmem)]

theorem openedAtRules_declares (declarations : List Declaration) :
    openedAtRules (declarations.map .declares) = [] := by
  induction declarations with
  | nil => rfl
  | cons d declarations ih => exact ih

theorem openedAtRules_closes (n : Nat) : openedAtRules (List.replicate n .closes) = [] := by
  induction n with
  | zero => rfl
  | succ n ih => exact ih

end Outline

end UtilityCss
