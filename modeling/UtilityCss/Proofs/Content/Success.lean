import UtilityCss.Proofs.Content.Everything
import UtilityCss.Proofs.Content.Resolved
import UtilityCss.Proofs.FileTree.Growth

/-!
# When Content Is Found

What it depends on that the content of a configuration is found.

The content is gone through entry by entry and pattern by pattern, and every step can end the
build. What a step needs does not depend on what has been found before, which is why the whole
of it succeeds exactly if each step does (`exists_foldlM_iff`). It needs that a pattern is well
formed.

Whether a pattern is can depend on the files. A pattern that is the path of a directory stands
for everything below it, and the directory is looked for before the pattern is read. A backslash
at the end of a pattern takes the meaning of nothing away, so the pattern is malformed; but with
everything below it, what the backslash ends is no longer the end. So such a pattern can be read
only if there is a directory of that name, and no other pattern depends on the files.

Directories stay where they are in a tree that grows, and the content is found there again.

## Main definitions

* `Content.trimmed`: A pattern without `./` at its start and slashes at its end.
* `Content.isDangling`: A pattern that only a directory of its name makes readable.
* `Content.isReadable`: A pattern that can be read in some project.

## Theorems

* `isSome_normalize_iff`: When a pattern can be read in a project.
* `exists_mapM_iff`, `exists_foldlM_iff`: Steps succeed together if each does.
* `exists_resolve_iff`: The content of a well-formed configuration is found.
* `exists_resolve_of_grows`: It is found again in a tree that has grown.
-/

namespace UtilityCss

/-! ### Patterns -/

namespace Content

/-- The pattern without `./` at its start and slashes at its end. -/
def trimmed (pattern : String) : String := FileTree.withoutSlashes (withoutHere pattern)

/-- A backslash at the end of the pattern makes it malformed, unless it is the path of a
    directory. -/
def isDangling (pattern : String) : Bool :=
  !Reach.hasWildcard (trimmed pattern) && Glob.dangles (trimmed pattern).toList

/-- The pattern can be read, if need be with everything below it. -/
def isReadable (pattern : String) : Bool :=
  (Glob.parse? (trimmed pattern)).isSome
    || isDangling pattern && (Glob.parse? (trimmed pattern ++ "/**/*")).isSome

theorem normalize_eq (t : FileTree) (root pattern : String) : normalize t root pattern
    = if !Reach.hasWildcard (trimmed pattern)
          && t.isDirectory (Path.join root (trimmed pattern)) then everything (trimmed pattern)
      else trimmed pattern := rfl

/-- A pattern can be read in a project exactly if it can be read at all, and is the path of a
    directory there in case a backslash dangles at its end. -/
theorem isSome_normalize_iff {t : FileTree} {root pattern : String} :
    (Glob.parse? (normalize t root pattern)).isSome = true ↔ isReadable pattern = true ∧
      (isDangling pattern = true → t.isDirectory (Path.join root (trimmed pattern)) = true) := by
  rw [normalize_eq, isReadable, isDangling]
  rcases hwild : Reach.hasWildcard (trimmed pattern) with _ | _
  · have halone := Glob.isSome_parse?_iff hwild
    have hbelow := Glob.isSome_parse?_below_iff hwild
    simp only [Bool.not_false, Bool.true_and, Bool.or_eq_true, Bool.and_eq_true]
    rw [halone, hbelow]
    by_cases hdirectory : t.isDirectory (Path.join root (trimmed pattern)) = true
    · -- Below a directory it makes no difference whether a backslash dangles.
      rw [if_pos hdirectory, isSome_everything_iff hwild]
      rcases Glob.dangles (trimmed pattern).toList with _ | _
      · simp only [and_true, Bool.false_eq_true, false_and, or_false, false_implies]
      · simp only [Bool.true_eq_false, and_false, true_and, false_or, hdirectory, implies_true,
          and_true]
    · rw [if_neg hdirectory, halone]
      rcases Glob.dangles (trimmed pattern).toList with _ | _
      · simp only [and_true, Bool.false_eq_true, false_and, or_false, false_implies]
      · simp only [Bool.true_eq_false, and_false, hdirectory, forall_const, Bool.false_eq_true]
  -- A pattern with a wildcard is read as it is written.
  · simp only [Bool.not_true, Bool.false_and, Bool.false_eq_true, if_false, Bool.or_false,
      false_implies, and_true]

end Content

/-! ### Steps that succeed together -/

section

variable {ε α β : Type}

theorem exists_mapM_iff {f : α → Except ε β} {as : List α} :
    (∃ bs, as.mapM f = .ok bs) ↔ ∀ a ∈ as, ∃ b, f a = .ok b := by
  induction as with
  | nil => exact iff_of_true ⟨[], rfl⟩ fun a ha => absurd ha List.not_mem_nil
  | cons a as ih =>
      rw [List.forall_mem_cons, ← ih, List.mapM_cons]
      constructor
      · rintro ⟨bs, h⟩
        rcases bind_eq_ok h with ⟨b, hb, h⟩
        rcases bind_eq_ok h with ⟨bs', hbs', -⟩
        exact ⟨⟨b, hb⟩, bs', hbs'⟩
      · rintro ⟨⟨b, hb⟩, bs, hbs⟩
        rw [hb, hbs]
        exact ⟨b :: bs, rfl⟩

-- Whether a step succeeds does not depend on what it starts from.
theorem exists_foldlM_iff {step : β → α → Except ε β} {succeeds : α → Prop} {as : List α}
    (hstep : ∀ a ∈ as, ∀ b, (∃ b', step b a = .ok b') ↔ succeeds a) (b : β) :
    (∃ b', as.foldlM step b = .ok b') ↔ ∀ a ∈ as, succeeds a := by
  induction as generalizing b with
  | nil => exact iff_of_true ⟨b, rfl⟩ fun a ha => absurd ha List.not_mem_nil
  | cons a as ih =>
      rcases List.forall_mem_cons.1 hstep with ⟨hfirst, hrest⟩
      rw [List.forall_mem_cons, ← hfirst b, List.foldlM_cons]
      constructor
      · rintro ⟨b', h⟩
        rcases bind_eq_ok h with ⟨next, hnext, h⟩
        exact ⟨⟨next, hnext⟩, (ih hrest next).1 ⟨b', h⟩⟩
      · rintro ⟨⟨next, hnext⟩, hall⟩
        rw [hnext]
        exact (ih hrest next).2 hall

end

/-! ### Content -/

namespace Content

theorem globOf_eq_ok_iff {pattern : String} :
    (∃ g, globOf pattern = .ok g) ↔ (Glob.parse? pattern).isSome = true := by
  rw [globOf]
  cases Glob.parse? pattern with
  | some g => exact ⟨fun _ => rfl, fun _ => ⟨g, rfl⟩⟩
  | none =>
      constructor
      · rintro ⟨g, h⟩
        cases h
      · intro h
        cases h

variable {s : Scope} {sel : Selection}

theorem exists_addPattern_iff {extractor : Nat} {pattern : String} :
    (∃ sel', addPattern s extractor sel pattern = .ok sel') ↔
      (Glob.parse? (normalize s.tree s.root pattern)).isSome = true := by
  cases hg : Glob.parse? (normalize s.tree s.root pattern) with
  | none =>
      refine iff_of_false ?_ Bool.false_ne_true
      rintro ⟨sel', h⟩
      rw [addPattern_of_parse?_eq_none hg] at h
      cases h
  | some g => exact iff_of_true ⟨_, addPattern_of_parse? hg extractor sel⟩ rfl

/-- What the success of adding an entry depends on. -/
def IsAddable (s : Scope) (entry : ContentEntry) : Prop :=
  (∀ pattern ∈ entry.patterns,
      (Glob.parse? (normalize s.tree s.root pattern)).isSome = true) ∧
    ∀ patterns extract, entry = .files patterns (some extract) →
      (Extractor.ofPattern? extract).isSome = true

theorem exists_addPatterns_iff {extractor : Nat} {patterns : List String} :
    (∃ sel', patterns.foldlM (addPattern s extractor) sel = .ok sel') ↔
      ∀ pattern ∈ patterns, (Glob.parse? (normalize s.tree s.root pattern)).isSome = true := by
  have hstep : ∀ pattern ∈ patterns, ∀ sel,
      (∃ sel', addPattern s extractor sel pattern = .ok sel') ↔
        (Glob.parse? (normalize s.tree s.root pattern)).isSome = true := fun _ _ _ =>
    exists_addPattern_iff
  exact exists_foldlM_iff hstep sel

theorem exists_addEntry_iff {entry : ContentEntry} :
    (∃ sel', addEntry s sel entry = .ok sel') ↔ IsAddable s entry := by
  cases entry with
  | glob pattern =>
      simp only [addEntry, exists_addPattern_iff, IsAddable, ContentEntry.patterns,
        List.forall_mem_singleton, reduceCtorEq, false_implies, implies_true, and_true]
  | files patterns extract =>
      -- The entry is the one at hand, so its extractor is the only one to ask about.
      have hextract : (∀ patterns' pattern,
          ContentEntry.files patterns extract = .files patterns' (some pattern) →
            (Extractor.ofPattern? pattern).isSome = true) ↔ ∃ e, extractorOf extract = .ok e := by
        rw [exists_extractorOf_iff]
        constructor
        · rintro h pattern rfl
          exact h patterns pattern rfl
        · rintro h patterns' pattern heq
          exact h pattern (ContentEntry.files.inj heq).2
      rw [IsAddable, hextract]
      simp only [addEntry]
      constructor
      · rintro ⟨sel', h⟩
        rcases bind_eq_ok h with ⟨⟨sel'', position⟩, hadd, h⟩
        exact ⟨exists_addPatterns_iff.1 ⟨sel', h⟩, (of_addExtractor hadd).1⟩
      · rintro ⟨hpatterns, e, he⟩
        rcases exists_addExtractor he sel with ⟨more, position, hadd, -⟩
        rw [hadd]
        exact exists_addPatterns_iff.2 hpatterns
  | raw text extension =>
      refine iff_of_true ⟨_, rfl⟩ ⟨fun pattern h => absurd h List.not_mem_nil, ?_⟩
      exact fun _ _ h => ContentEntry.noConfusion h

theorem exists_addEntries_iff {entries : List ContentEntry} :
    (∃ sel', entries.foldlM (addEntry s) sel = .ok sel') ↔
      ∀ entry ∈ entries, IsAddable s entry := by
  have hstep : ∀ entry ∈ entries, ∀ sel, (∃ sel', addEntry s sel entry = .ok sel') ↔
      IsAddable s entry := fun _ _ _ => exists_addEntry_iff
  exact exists_foldlM_iff hstep sel

/-- Content is found exactly if all patterns of the configuration can be read. -/
theorem exists_resolve_iff {t : FileTree} {root : String} {config : Config} :
    (∃ sel, resolve t root config = .ok sel) ↔ ∃ exclude, IsWellFormed t root config exclude := by
  -- Whether an entry can be added does not depend on what is excluded.
  have hentries : ∀ {exclude : List Glob}, (∀ entry ∈ config.content,
      IsAddable ⟨t, root, exclude⟩ entry) ↔
        (∀ pattern ∈ config.patterns, (Glob.parse? (normalize t root pattern)).isSome = true) ∧
          ∀ patterns extract, .files patterns (some extract) ∈ config.content →
            (Extractor.ofPattern? extract).isSome = true := by
    intro exclude
    simp only [IsAddable, Config.patterns, List.mem_flatMap]
    constructor
    · intro h
      refine ⟨?_, fun patterns extract hmem => (h _ hmem).2 patterns extract rfl⟩
      rintro pattern ⟨entry, hentry, hpattern⟩
      exact (h entry hentry).1 pattern hpattern
    · rintro ⟨hpatterns, hextracts⟩ entry hentry
      refine ⟨fun pattern hpattern => hpatterns pattern ⟨entry, hentry, hpattern⟩, ?_⟩
      rintro patterns extract rfl
      exact hextracts patterns extract hentry
  constructor
  · rintro ⟨sel, h⟩
    unfold resolve at h
    rcases bind_eq_ok h with ⟨exclude, hexclude, h⟩
    rcases hentries.1 (exists_addEntries_iff.1 ⟨sel, h⟩) with ⟨hpatterns, hextracts⟩
    exact ⟨exclude, hexclude, hpatterns, hextracts⟩
  · rintro ⟨exclude, hexclude, hpatterns, hextracts⟩
    unfold resolve
    rw [hexclude]
    exact exists_addEntries_iff.2 (hentries.2 ⟨hpatterns, hextracts⟩)

end Content

/-! ### Trees that grow -/

namespace Content

variable {t t' : FileTree} {root : String} {config : Config} (hgrows : t.Grows t')
include hgrows

theorem IsWellFormed.of_grows {exclude : List Glob} (h : IsWellFormed t root config exclude) :
    IsWellFormed t' root config exclude := by
  refine ⟨h.exclude, fun pattern hpattern => ?_, h.extracts⟩
  rcases isSome_normalize_iff.1 (h.patterns pattern hpattern) with ⟨hreadable, hdirectory⟩
  exact isSome_normalize_iff.2
    ⟨hreadable, fun hdangling => hgrows.isDirectory (hdirectory hdangling)⟩

/-- The content of a configuration can be found again. -/
theorem exists_resolve_of_grows {sel : Selection} (h : resolve t root config = .ok sel) :
    ∃ sel', resolve t' root config = .ok sel' := by
  rcases exists_resolve_iff.1 ⟨sel, h⟩ with ⟨exclude, hwell⟩
  exact exists_resolve_iff.2 ⟨exclude, hwell.of_grows hgrows⟩

end Content

end UtilityCss
