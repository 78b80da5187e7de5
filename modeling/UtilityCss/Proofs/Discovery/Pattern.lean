import UtilityCss.Proofs.Config.Starter
import UtilityCss.Proofs.Content.Excluded
import UtilityCss.Proofs.Discovery.Areas
import UtilityCss.Proofs.Glob.Below
import UtilityCss.Proofs.Text.Words

/-!
# Patterns That Are Suggested

What the pattern for an area stands for.

A pattern is suggested as a text: the name of the area, as it is, between marks that are fixed.
Before it finds a file that text is written in quotes and read again, freed of `./` at its
start, taken for the path of a directory if there is one, cut into the part that a walk starts
from, and read as a glob. None of these steps asks where the name came from, and any of them can
take a character of it for a mark.

Two things about the name are enough: that it is read back when it is written in quotes, and
that it matches itself as a glob (`IsSpelled`). A quote or a bracket in the name is against it.
The other steps need nothing more. The pattern always has a wildcard, so no directory is looked
for, and where the walk starts and how far it goes down are known from the marks.

## Main definitions

* `AreKnown`: Some of the extensions that are suggested.
* `barePattern`: The pattern for an area as it is looked for.
* `IsSpelled`: A name that is written as it is in quotes and as a glob.
* `areaOf`: The area of a file, by the directories it is in.

## Theorems

* `normalize_areaPattern`: The pattern is looked for as it is written.
* `isQuotable_areaPattern`: It is read back when it is written in quotes.
* `exists_accepts_barePattern`: It matches the files of its area with one of its extensions.
* `covers_barePattern`: The walk for it gets to all files of its area.
-/

namespace UtilityCss

namespace Discovery

/-! ### Extensions -/

/-- The extensions are some of those that are suggested. -/
def AreKnown (es : List String) : Prop := es ≠ [] ∧ ∀ e ∈ es, e ∈ extensions

theorem isQuotable_of_mem_extensions : ∀ e ∈ extensions, Yaml.isQuotable e = true := by decide

theorem isLetter_of_mem_extensions :
    ∀ e ∈ extensions, e ≠ "" ∧ ∀ c ∈ e.toList, Glob.isLetter c = true := by
  have hall : extensions.all (fun e => e != "" && e.toList.all Glob.isLetter) = true := by decide
  intro e he
  have hboth := List.all_eq_true.1 hall e he
  rw [Bool.and_eq_true, bne_iff_ne, List.all_eq_true] at hboth
  exact hboth

theorem slash_not_mem_of_mem_extensions : ∀ e ∈ extensions, '/' ∉ e.toList := by decide

theorem contains_toLower_of_mem_extensions :
    ∀ e ∈ extensions, Content.extensions.contains e.toLower = true := by decide +kernel

/-- The first configuration is no file that is suggested. -/
theorem not_suffix_of_mem_extensions : ∀ e ∈ extensions, ¬e.toList <:+ "ucss.yaml".toList := by
  decide

/-! ### Spelling -/

/-- The pattern without a mark for the root in front of it. -/
def barePattern (area : String) (es : List String) : String :=
  if area = "" then "*." ++ extensionPattern es else area ++ "/**/*." ++ extensionPattern es

theorem areaPattern_eq (area : String) (es : SortedSet) :
    areaPattern area es = "./" ++ barePattern area es.toList := by
  rw [areaPattern, barePattern]
  split
  · rw [← String.append_assoc]
    rfl
  · rw [← String.append_assoc, ← String.append_assoc]

theorem forall_mem_extensionPattern {p : Char → Prop} (hopen : p '{') (hcomma : p ',')
    (hclose : p '}') {es : List String} (h : ∀ e ∈ es, ∀ c ∈ e.toList, p c) :
    ∀ c ∈ (extensionPattern es).toList, p c := by
  -- Between the braces are the characters of the extensions and commas.
  have hjoined : ∀ {es : List String}, (∀ e ∈ es, ∀ c ∈ e.toList, p c) →
      ∀ c ∈ (",".intercalate es).toList, p c := by
    intro es h
    induction es with
    | nil => exact fun c hc => absurd hc List.not_mem_nil
    | cons e es ih =>
        rcases List.forall_mem_cons.1 h with ⟨he, hes⟩
        by_cases hnil : es = []
        · rw [hnil, String.intercalate_singleton]
          exact he
        · rw [String.intercalate_cons_of_ne_nil hnil, String.toList_append, String.toList_append]
          exact List.forall_mem_append.2 ⟨List.forall_mem_append.2
            ⟨he, List.forall_mem_singleton.2 hcomma⟩, ih hes⟩
  unfold extensionPattern
  split
  · exact h _ List.mem_cons_self
  · rw [String.toList_append, String.toList_append]
    exact List.forall_mem_append.2 ⟨List.forall_mem_append.2
      ⟨List.forall_mem_singleton.2 hopen, hjoined h⟩, List.forall_mem_singleton.2 hclose⟩

section

variable {es : List String} (hes : AreKnown es)
include hes

theorem isQuotable_extensionPattern : Yaml.isQuotable (extensionPattern es) = true := by
  rw [Yaml.isQuotable_iff]
  refine forall_mem_extensionPattern (by decide) (by decide) (by decide) fun e he => ?_
  exact Yaml.isQuotable_iff.1 (isQuotable_of_mem_extensions e (hes.2 e he))

theorem slash_not_mem_extensionPattern : '/' ∉ (extensionPattern es).toList := by
  intro hmem
  refine forall_mem_extensionPattern (p := (· ≠ '/')) (by decide) (by decide) (by decide)
    (fun e he c hc heq => ?_) '/' hmem rfl
  exact slash_not_mem_of_mem_extensions e (hes.2 e he) (heq ▸ hc)

theorem extensionPattern_ne_empty : extensionPattern es ≠ "" := by
  rcases es with _ | ⟨e, _ | ⟨next, es⟩⟩
  · exact absurd rfl hes.1
  · exact (isLetter_of_mem_extensions e (hes.2 e List.mem_cons_self)).1
  · intro hempty
    have hopen := String.append_eq_empty_iff.1 (String.append_eq_empty_iff.1 hempty).1
    exact absurd hopen.1 (by decide)

theorem endsInSlash_barePattern (area : String) :
    Path.endsInSlash (barePattern area es) = false := by
  have hends : ∀ before, Path.endsInSlash (before ++ extensionPattern es) = false := by
    intro before
    have hne : (extensionPattern es).toList ≠ [] := fun hnil =>
      extensionPattern_ne_empty hes (String.toList_eq_nil_iff.1 hnil)
    rw [Path.endsInSlash, String.toList_append, List.getLast?_append_of_ne_nil _ hne]
    exact decide_eq_false fun heq => slash_not_mem_extensionPattern hes (List.mem_of_getLast? heq)
  rw [barePattern]
  split
  · exact hends _
  · exact hends _

end

theorem hasWildcard_barePattern (area : String) (es : List String) :
    Reach.hasWildcard (barePattern area es) = true := by
  rw [barePattern]
  split
  · rw [Reach.hasWildcard_append]
    rfl
  · rw [Reach.hasWildcard_append, Reach.hasWildcard_append]
    have hstar : Reach.hasWildcard "/**/*." = true := by decide
    rw [hstar, Bool.or_true, Bool.true_or]

end Discovery

namespace Content

theorem withoutHere_append {pattern : String}
    (h : ∀ cs, pattern.toList ≠ '.' :: '/' :: cs) : withoutHere ("./" ++ pattern) = pattern := by
  have hnone : Text.dropWord? ['.', '/'] pattern.toList = none := by
    rcases hdrop : Text.dropWord? ['.', '/'] pattern.toList with _ | rest
    · rfl
    · exact absurd (Text.dropWord?_eq_some_iff.1 hdrop) (h rest)
  have htext : ("./" ++ pattern).toList
      = (List.replicate 1 ['.', '/']).flatten ++ pattern.toList := by
    rw [String.toList_append]
    rfl
  rw [withoutHere, htext, Text.dropWords_append hnone (List.cons_ne_nil _ _),
    String.ofList_toList]

end Content

namespace Discovery

/-- The pattern is looked for as it is written. -/
theorem normalize_areaPattern {area : String} {es : SortedSet} (hes : AreKnown es.toList)
    (harea : area ≠ "" → Path.IsName area) (t : FileTree) (root : String) :
    Content.normalize t root (areaPattern area es) = barePattern area es.toList := by
  -- An area would have to be a point or to hold a slash, and the name of a directory does
  -- neither.
  have hstart : ∀ cs, (barePattern area es.toList).toList ≠ '.' :: '/' :: cs := by
    intro cs heq
    rw [barePattern] at heq
    split at heq
    · rw [String.toList_append] at heq
      exact absurd (List.cons.inj heq).1 (by decide)
    · next hne =>
        have hname := harea hne
        rw [String.toList_append, String.toList_append, List.append_assoc] at heq
        rcases hcs : area.toList with _ | ⟨c, _ | ⟨c', more⟩⟩
        · exact hname.toList_ne_nil hcs
        · rw [hcs] at heq
          have hdot : area = "." := String.toList_inj.1 (by rw [hcs, (List.cons.inj heq).1]; rfl)
          exact absurd hname.notIdle (by rw [hdot]; decide)
        · rw [hcs] at heq
          refine hname.noSlash ?_
          rw [hcs, (List.cons.inj (List.cons.inj heq).2).1]
          exact List.mem_cons_of_mem _ List.mem_cons_self
  rw [Content.normalize, areaPattern_eq, Content.withoutHere_append hstart,
    FileTree.withoutSlashes_eq (endsInSlash_barePattern hes area)]
  simp only [hasWildcard_barePattern, Bool.not_true, Bool.false_and, Bool.false_eq_true, if_false]

/-! ### Reading -/

/-- The name of a directory is written as it is in quotes, and as a glob it matches itself. -/
structure IsSpelled (area : String) : Prop where
  /-- In quotes it is read back. -/
  quotable : Yaml.isQuotable area = true
  /-- As a glob it matches itself. -/
  matched : ∃ g, Glob.parse? area = some g ∧ g.accepts true area = true

theorem isQuotable_append {text more : String} (h : Yaml.isQuotable text = true)
    (hmore : Yaml.isQuotable more = true) : Yaml.isQuotable (text ++ more) = true := by
  rw [Yaml.isQuotable_iff, String.toList_append] at *
  exact List.forall_mem_append.2 ⟨h, hmore⟩

theorem isQuotable_areaPattern {area : String} (harea : IsSpelled area) {es : SortedSet}
    (hes : AreKnown es.toList) : Yaml.isQuotable (areaPattern area es) = true := by
  have hends := isQuotable_extensionPattern hes
  rw [areaPattern]
  split
  · exact isQuotable_append (by decide) hends
  · exact isQuotable_append (isQuotable_append (isQuotable_append (by decide) harea.quotable)
      (by decide)) hends

/-- The area of a file in a directory: the first directory on the way to it, if there is one. -/
def areaOf (directories : List String) : String := directories.head?.getD ""

theorem isName_areaOf {directories : List String} (h : Path.AreNames directories)
    (hne : areaOf directories ≠ "") : Path.IsName (areaOf directories) := by
  cases directories with
  | nil => exact absurd rfl hne
  | cons first directories => exact h first List.mem_cons_self

theorem areaOf_eq_empty_iff {directories : List String} (h : Path.AreNames directories) :
    areaOf directories = "" ↔ directories = [] := by
  cases directories with
  | nil => exact ⟨fun _ => rfl, fun _ => rfl⟩
  | cons first directories =>
      exact ⟨fun heq => absurd heq (h first List.mem_cons_self).ne_empty, fun heq => (nomatch heq)⟩

section

variable {directories : List String} (hnames : Path.AreNames directories) {es : List String}
  (hes : AreKnown es)
include hnames hes

/-- The pattern can be read, and it matches the files of its area with one of its extensions. -/
theorem exists_accepts_barePattern (harea : IsSpelled (areaOf directories)) :
    ∃ g, Glob.parse? (barePattern (areaOf directories) es) = some g ∧
      ∀ directories', Path.AreNames directories' → areaOf directories' = areaOf directories →
        ∀ stem, '/' ∉ stem.toList → ∀ e ∈ es,
          g.accepts true ("/".intercalate (directories' ++ [stem ++ "." ++ e])) = true := by
  have hletters : ∀ e ∈ es, e ≠ "" ∧ ∀ c ∈ e.toList, Glob.isLetter c = true := fun e he =>
    isLetter_of_mem_extensions e (hes.2 e he)
  rw [barePattern]
  by_cases hempty : areaOf directories = ""
  · rw [if_pos hempty]
    rcases Glob.exists_accepts_here hes.1 hletters with ⟨g, hg, haccepts⟩
    refine ⟨g, hg, fun directories' hnames' hsame stem hstem e he => ?_⟩
    rw [(areaOf_eq_empty_iff hnames').1 (hsame.trans hempty), List.nil_append,
      String.intercalate_singleton]
    exact haccepts stem e he hstem
  · rw [if_neg hempty]
    rcases harea.matched with ⟨g, hg, hself⟩
    have hname := isName_areaOf hnames hempty
    rcases Glob.exists_accepts_below hes.1 hletters hg hself hname.noSlash with ⟨g', hg', haccepts⟩
    -- The area is the first directory, and the two stars take up the others.
    refine ⟨g', hg', fun directories' hnames' hsame stem hstem e he => ?_⟩
    cases directories' with
    | nil => exact absurd hsame.symm hempty
    | cons first rest =>
        rw [← show first = areaOf directories from hsame] at haccepts
        exact haccepts rest stem e he hstem

end

theorem pieces_extensionPattern {es : List String} (hes : AreKnown es) :
    Path.pieces ("*." ++ extensionPattern es) = ["*." ++ extensionPattern es] := by
  refine Text.split_of_not_mem fun hmem => ?_
  rw [String.toList_append, List.mem_append] at hmem
  rcases hmem with hmem | hmem
  · exact absurd hmem (by decide)
  · exact slash_not_mem_extensionPattern hes hmem

theorem parts_barePattern (area : String) (es : List String) :
    Reach.parts (barePattern area es) = Reach.literalParts (Path.pieces (barePattern area es)) := by
  rw [Reach.parts, hasWildcard_barePattern, if_pos rfl]

section

variable {es : List String} (hes : AreKnown es)
include hes

/-- The walk for the pattern of the root goes down by one level. -/
theorem covers_barePattern_root (last : String) : Reach.Covers (barePattern "" es) [last] := by
  have hpieces : Path.pieces (barePattern "" es) = ["*." ++ extensionPattern es] := by
    rw [barePattern, if_pos rfl]
    exact pieces_extensionPattern hes
  have hparts : Reach.parts (barePattern "" es) = [] := by
    rw [parts_barePattern, hpieces]
    rfl
  have hnames : Path.AreNames (Reach.parts (barePattern "" es)) := by
    rw [hparts]
    exact fun _ hname => absurd hname List.not_mem_nil
  -- The pattern has no literal part and one component, so the walk starts at the root and
  -- ends one level down.
  refine (Reach.covers_iff hnames).2 ⟨[last], ?_, fun n hn => ?_⟩
  · rw [hparts]
    rfl
  · rw [Reach.levels, Reach.components_base hnames, hparts, hpieces] at hn
    split at hn
    · cases hn
    · cases hn
      exact Nat.le_refl _

/-- The walk for the pattern of a directory goes down without a bound. -/
theorem covers_barePattern_below {first : String} (hname : Path.IsName first)
    (rest : List String) : Reach.Covers (barePattern first es) (first :: rest) := by
  have hbare : barePattern first es
      = first ++ "/" ++ ("**" ++ "/" ++ ("*." ++ extensionPattern es)) := by
    have hbetween : "/**/*." = "/" ++ "**" ++ "/" ++ "*." := by decide
    rw [barePattern, if_neg hname.ne_empty, hbetween]
    simp only [String.append_assoc]
  have hpieces : Path.pieces (barePattern first es)
      = [first, "**", "*." ++ extensionPattern es] := by
    have hone : Path.pieces first = [first] := Text.split_of_not_mem hname.noSlash
    rw [hbare, Path.pieces_append, Path.pieces_append, pieces_extensionPattern hes, hone]
    rfl
  -- The two stars leave the levels open.
  have hlevels : Reach.levels (barePattern first es) = none := by
    have hstars : Reach.hasTwoStars (barePattern first es) = true := by
      rw [Reach.hasTwoStars, hbare]
      simp only [String.toList_append, List.append_assoc]
      rw [← List.append_assoc]
      exact Text.hasWord_append _ _
    rw [Reach.levels, hstars, Bool.true_or, if_pos rfl]
  have hparts : Reach.parts (barePattern first es)
      = if Reach.hasWildcard first then [] else [first] := by
    rw [parts_barePattern, hpieces]
    rfl
  have hnames : Path.AreNames (if Reach.hasWildcard first then [] else [first]) := by
    split
    · exact fun _ hname => absurd hname List.not_mem_nil
    · exact List.forall_mem_singleton.2 hname
  -- The walk starts in the directory, or at the root if a wildcard is in the name.
  refine (Reach.covers_iff (hparts ▸ hnames)).2 ?_
  rw [hparts, hlevels]
  split
  · exact ⟨_, (List.nil_append _).symm, fun _ hn => absurd hn (Option.not_mem_none _)⟩
  · exact ⟨rest, rfl, fun _ hn => absurd hn (Option.not_mem_none _)⟩

/-- The walk for the pattern gets to all files of its area. -/
theorem covers_barePattern {directories : List String} (hnames : Path.AreNames directories)
    (last : String) :
    Reach.Covers (barePattern (areaOf directories) es) (directories ++ [last]) := by
  cases directories with
  | nil => exact covers_barePattern_root hes last
  | cons first rest =>
      exact covers_barePattern_below hes (hnames first List.mem_cons_self) (rest ++ [last])

end

end Discovery

end UtilityCss
