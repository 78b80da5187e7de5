import UtilityCss.Content
import UtilityCss.Proofs.FileTree.Plain
import UtilityCss.Proofs.Glob.Depth

/-!
# What a Walk Covers

Which files of a project are found for a pattern.

A pattern stands for the files whose paths it matches. They are not looked for everywhere: the
walk starts at the directories that the pattern names before its first wildcard, and it goes
down by as many levels as the pattern has parts. The files that are found are those that the
pattern stands for and that the walk covers, no more and no less.

So the question is whether the walk covers all of them. What a pattern matches starts with the
names of its first parts, less backslashes, and has no more slashes than the pattern, apart
from those that classes take up without naming them. A pattern without either of these loses
nothing. The others can lose what they stand for: the walk then starts at a directory that has
the backslash in its name, or it ends above the file.

## Main definitions

* `Content.Wanted`: The files that a pattern stands for.
* `Reach.parts`: The names of the directories that a walk starts at.
* `Reach.Covers`: The walk for a pattern gets to a file.
* `Reach.IsClear`: Nothing in a pattern misleads the walk.

## Theorems

* `Reach.prefix_of_accepts`: What a pattern matches starts with the names of its first parts.
* `Content.mem_files_iff`: The files that are found are wanted and covered.
* `Reach.IsClear.covers`: Nothing is lost for a clear pattern.
* `Reach.Covers.spelled`: Everything is lost if the walk starts at a name with a backslash.
-/

namespace UtilityCss

namespace Reach

/-! ### The first parts of a pattern -/

/-- The names of the directories that a pattern is looked for in. -/
def parts (pattern : String) : List String :=
  if hasWildcard pattern then literalParts (Path.pieces pattern)
  else if pattern = "" then []
  else Path.pieces pattern

theorem hasWildcard_append (text more : String) :
    hasWildcard (text ++ more) = (hasWildcard text || hasWildcard more) := by
  rw [hasWildcard, String.toList_append, List.any_append]
  rfl

theorem hasWildcard_intercalate {texts : List String}
    (h : ∀ text ∈ texts, hasWildcard text = false) :
    hasWildcard ("/".intercalate texts) = false := by
  induction texts with
  | nil => rfl
  | cons text texts ih =>
      rcases List.forall_mem_cons.1 h with ⟨htext, htexts⟩
      by_cases hnil : texts = []
      · rw [hnil, String.intercalate_singleton, htext]
      · rw [String.intercalate_cons_of_ne_nil hnil, hasWildcard_append, hasWildcard_append, htext,
          ih htexts]
        rfl

theorem hasWildcard_of_mem_literalParts {pieces : List String} {part : String}
    (h : part ∈ literalParts pieces) : hasWildcard part = false := by
  fun_induction literalParts pieces with
  | case1 | case2 | case3 => exact absurd h List.not_mem_nil
  | case4 first rest hne hwild ih =>
      rcases List.mem_cons.1 h with rfl | h
      · exact eq_false_of_ne_true hwild
      · exact ih h

theorem literalParts_subset (pieces : List String) : literalParts pieces ⊆ pieces := by
  fun_induction literalParts pieces with
  | case1 | case2 | case3 => exact List.nil_subset _
  | case4 first rest hne hwild ih => exact List.cons_subset_cons first ih

-- The last part is left out, so something follows.
theorem exists_intercalate_eq {pieces : List String} (h : literalParts pieces ≠ []) :
    ∃ rest, "/".intercalate pieces = "/".intercalate (literalParts pieces) ++ "/" ++ rest := by
  fun_induction literalParts pieces with
  | case1 | case2 | case3 => exact absurd rfl h
  | case4 first rest hne hwild ih =>
      have hrest : rest ≠ [] := fun hnil => hne hnil
      rw [String.intercalate_cons_of_ne_nil hrest]
      by_cases hnil : literalParts rest = []
      · rw [hnil, String.intercalate_singleton]
        exact ⟨_, rfl⟩
      · rcases ih hnil with ⟨more, hmore⟩
        refine ⟨more, ?_⟩
        rw [hmore, String.intercalate_cons_of_ne_nil hnil]
        simp only [String.append_assoc]

/-- A backslash does not join the parts on both sides of a slash. -/
theorem pieces_plain (pattern : String) :
    Path.pieces (Glob.plain pattern) = (Path.pieces pattern).map Glob.plain := by
  have hparts : Glob.plain pattern = "/".intercalate ((Path.pieces pattern).map Glob.plain) := by
    rw [← Glob.plain_intercalate, Path.intercalate_pieces]
  rw [hparts]
  refine Text.split_intercalate (fun heq => ?_) fun piece hpiece => ?_
  · exact Text.split_ne_nil pattern (List.map_eq_nil_iff.1 heq)
  · rcases List.mem_map.1 hpiece with ⟨part, hpart, rfl⟩
    rw [Glob.plain, String.toList_ofList]
    exact fun hmem => Text.not_mem_of_mem_split hpart (Glob.literal_subset _ hmem)

theorem isName_of_plain {part : String} (h : Path.IsName (Glob.plain part))
    (hpart : '/' ∉ part.toList) : Path.IsName part := by
  refine ⟨⟨eq_false_of_ne_true fun hidle => ?_, ?_⟩, hpart⟩
  · rw [Path.isIdle, Bool.or_eq_true, decide_eq_true_eq, decide_eq_true_eq] at hidle
    rcases hidle with rfl | rfl
    · exact absurd h.notIdle (by decide)
    · exact absurd h.notIdle (by decide)
  · rintro rfl
    exact absurd h.notUp (by decide)

theorem plain_ne_empty {pattern : String} {g : Glob} (hg : Glob.parse? pattern = some g)
    (hne : pattern ≠ "") : Glob.plain pattern ≠ "" := by
  intro hempty
  have hnil : Glob.literal pattern.toList = [] := by
    rw [← String.toList_ofList (l := Glob.literal pattern.toList)]
    exact String.toList_eq_nil_iff.2 hempty
  unfold Glob.literal at hnil
  split at hnil
  · next heq => exact hne (String.toList_eq_nil_iff.1 heq)
  · next heq =>
      rw [Glob.parse?, heq] at hg
      cases hg
  · cases hnil
  · cases hnil

variable {pattern : String} {g : Glob} {names : List String}
  (hg : Glob.parse? pattern = some g) (hnames : Path.AreNames names)
  (h : g.accepts true ("/".intercalate names) = true)
include hg hnames h

/-- What a pattern matches starts with the names of its first parts, less backslashes. -/
theorem prefix_of_accepts : (parts pattern).map Glob.plain <+: names := by
  have hpieces : "/".intercalate names ≠ "" → Path.pieces ("/".intercalate names) = names := by
    intro hne
    refine Path.pieces_intercalate hnames ?_
    rintro rfl
    exact hne rfl
  rw [parts]
  by_cases hwild : hasWildcard pattern = true
  · -- The first parts have no wildcard, and a slash follows them. So the path starts with their
    -- text, less backslashes, and its pieces with theirs.
    rw [if_pos hwild]
    generalize hfirst : literalParts (Path.pieces pattern) = first
    by_cases hnil : first = []
    · rw [hnil]
      exact List.nil_prefix
    · have hsubset : first ⊆ Path.pieces pattern := hfirst ▸ literalParts_subset _
      have hplain : hasWildcard ("/".intercalate first) = false :=
        hasWildcard_intercalate fun part hpart => hasWildcard_of_mem_literalParts (hfirst ▸ hpart)
      rcases exists_intercalate_eq (hfirst ▸ hnil) with ⟨rest, hpattern⟩
      rw [Path.intercalate_pieces, hfirst] at hpattern
      rcases Glob.exists_eq_of_accepts hg hpattern hplain h with ⟨rest', htext⟩
      have hne : "/".intercalate names ≠ "" := by
        rw [htext]
        intro hempty
        exact absurd (String.append_eq_empty_iff.1 (String.append_eq_empty_iff.1 hempty).1).2
          (by decide)
      have hback : Path.pieces ("/".intercalate first) = first :=
        Text.split_intercalate hnil fun part hpart => Text.not_mem_of_mem_split (hsubset hpart)
      rw [← hpieces hne, htext, Path.pieces_append, pieces_plain, hback]
      exact List.prefix_append _ _
  · -- Without any wildcard the path is the pattern, less backslashes.
    rw [if_neg hwild]
    by_cases hempty : pattern = ""
    · rw [if_pos hempty]
      exact List.nil_prefix
    · have htext := Glob.eq_plain_of_accepts hg (eq_false_of_ne_true hwild) h
      have hne : "/".intercalate names ≠ "" := htext ▸ plain_ne_empty hg hempty
      have hnames : (Path.pieces pattern).map Glob.plain = names := by
        rw [← pieces_plain, ← htext, hpieces hne]
      rw [if_neg hempty]
      exact ⟨[], (List.append_nil _).trans hnames⟩

/-- The first parts of a pattern that matches something are names themselves. -/
theorem areNames_parts : Path.AreNames (parts pattern) := by
  intro part hpart
  have hplain : Path.IsName (Glob.plain part) :=
    hnames _ ((prefix_of_accepts hg hnames h).subset (List.mem_map_of_mem hpart))
  have hpiece : part ∈ Path.pieces pattern := by
    rw [parts] at hpart
    split at hpart
    · exact literalParts_subset _ hpart
    · split at hpart
      · exact absurd hpart List.not_mem_nil
      · exact hpart
  exact isName_of_plain hplain (Text.not_mem_of_mem_split hpiece)

end Reach

namespace Reach

/-! ### Where the walk goes -/

/-- The walk for a pattern gets to a file. -/
structure Covers (pattern : String) (names : List String) : Prop where
  /-- The file is below the directory where the walk starts. -/
  below : Path.components (base pattern) <+: names.map .name
  /-- It is not further down than the walk goes. -/
  near : ∀ n ∈ levels pattern, names.length ≤ (Path.components (base pattern)).length + n

/-- Nothing in a pattern misleads the walk. -/
structure IsClear (pattern : String) (g : Glob) : Prop where
  /-- The directory where the walk starts is spelled without backslashes. -/
  spelled : '\\' ∉ (base pattern).toList
  /-- The walk goes down without a bound, or classes with a slash name it. -/
  depth : levels pattern = none ∨ g.isExplicit = true

variable {pattern : String}

theorem base_eq (h : Path.AreNames (parts pattern)) :
    base pattern = "/".intercalate (parts pattern) := by
  rw [parts] at h ⊢
  rw [base]
  by_cases hwild : hasWildcard pattern = true
  · rw [if_pos hwild] at h ⊢
    have hnil : Path.AreNames [] := fun _ hname => absurd hname List.not_mem_nil
    -- The base is joined from its parts one by one.
    have hjoin := Path.foldl_join hnil h ""
    rw [Path.join_empty, Path.join_empty] at hjoin
    rw [if_pos hwild]
    exact hjoin
  · rw [if_neg hwild, if_neg hwild]
    by_cases hempty : pattern = ""
    · rw [if_pos hempty, hempty]
      rfl
    · rw [if_neg hempty, Path.intercalate_pieces]

theorem components_base (h : Path.AreNames (parts pattern)) :
    Path.components (base pattern) = (parts pattern).map .name := by
  rw [base_eq h, Path.components_intercalate h]

theorem covers_iff (h : Path.AreNames (parts pattern)) {names : List String} :
    Covers pattern names ↔
      ∃ more, names = parts pattern ++ more ∧ ∀ n ∈ levels pattern, more.length ≤ n := by
  constructor
  · rintro ⟨hbelow, hnear⟩
    rw [components_base h] at hbelow hnear
    have hprefix := hbelow.filterMap Path.Component.name?
    rw [Path.filterMap_name?_map, Path.filterMap_name?_map] at hprefix
    -- Components of names are as many as the names, so the levels count those behind the
    -- base.
    rcases hprefix with ⟨more, rfl⟩
    refine ⟨more, rfl, fun n hn => ?_⟩
    have hlength := hnear n hn
    rw [List.length_map, List.length_append] at hlength
    omega
  · rintro ⟨more, rfl, hmore⟩
    constructor
    · rw [components_base h, List.map_append]
      exact List.prefix_append _ _
    · intro n hn
      have hlength := hmore n hn
      rw [components_base h, List.length_map, List.length_append]
      omega

end Reach

namespace Content

/-- A file of a project is one of those that a pattern stands for: the glob matches its path,
    no exclusion does, and its extension is known. -/
structure Wanted (project : FileNode) (exclude : List Glob) (g : Glob) (names : List String) :
    Prop where
  /-- There is a file. -/
  isFile : ∃ bytes, project.at? names = some (.file bytes)
  /-- The glob matches. -/
  accepted : g.accepts true ("/".intercalate names) = true
  /-- No exclusion matches. -/
  kept : ∀ e ∈ exclude, e.accepts true ("/".intercalate names) = false
  /-- The extension is known. -/
  known : hasKnownExtension ("/".intercalate names) = true

theorem admits_iff {s : Scope} {g : Glob} {path : String} : s.admits g path = true ↔
    ∃ relative, Path.relative? s.root path = some relative ∧ g.accepts true relative = true ∧
      (∀ e ∈ s.exclude, e.accepts true relative = false) ∧ hasKnownExtension path = true := by
  rw [Scope.admits, Scope.relative?]
  rcases Path.relative? s.root path with _ | relative
  · simp only [Bool.false_eq_true, reduceCtorEq, false_and, exists_const]
  · simp only [Bool.and_eq_true, Bool.not_eq_true', List.any_eq_false, Option.some.injEq,
      exists_eq_left', and_assoc, Bool.not_eq_true]

theorem mem_files {s : Scope} {pattern : String} {g : Glob} {path : String} :
    path ∈ s.files pattern g ↔ .ok path ∈ s.walk pattern ∧ s.admits g path = true := by
  rw [Scope.files, List.mem_filterMap]
  constructor
  · rintro ⟨result, hresult, hpath⟩
    cases result with
    | error e => cases hpath
    | ok found =>
        dsimp only at hpath
        split at hpath
        · next hadmits =>
            cases hpath
            exact ⟨hresult, hadmits⟩
        · cases hpath
  · rintro ⟨hwalk, hadmits⟩
    exact ⟨.ok path, hwalk, if_pos hadmits⟩

theorem hasKnownExtension_join {names : List String} (hnames : Path.AreNames names)
    (hne : names ≠ []) (root : String) :
    hasKnownExtension (Path.join root ("/".intercalate names))
      = hasKnownExtension ("/".intercalate names) := by
  rw [hasKnownExtension, hasKnownExtension, Path.extension?_join hnames root hne]

variable {t : FileTree} {root : String} {place : List String}
  {entries : List (String × FileNode)}
  (hroot : t.reach root = .ok (place, .directory entries))
  (hplain : (FileNode.directory entries).IsPlain)
  {exclude : List Glob} {pattern : String} {g : Glob} (hg : Glob.parse? pattern = some g)
include hroot hplain hg

/-- The files that are found are wanted and covered. -/
theorem mem_files_iff {path : String} :
    path ∈ Scope.files ⟨t, root, exclude⟩ pattern g ↔
      ∃ names, Wanted (.directory entries) exclude g names ∧ Reach.Covers pattern names ∧
        path = Path.join root ("/".intercalate names) := by
  have hne : ∀ {names bytes}, (FileNode.directory entries).at? names = some (.file bytes) →
      names ≠ [] := by
    rintro names bytes hat rfl
    cases hat
  rw [mem_files, admits_iff, Scope.walk]
  constructor
  · rintro ⟨hwalk, relative, hrelative, haccepted, hkept, hknown⟩
    rcases Path.exists_names_of_relative? hrelative with ⟨names, hnames, rfl⟩
    -- What matches consists of names, so the base of the pattern does, and the walk starts
    -- below it.
    have hparts := Reach.areNames_parts hg hnames haccepted
    rw [Reach.base_eq hparts, FileTree.mem_walk_iff hroot hplain hparts] at hwalk
    rcases hwalk with ⟨more, bytes, hat, hlevels, rfl⟩
    have hall := (hplain.at? hat).2
    rw [Path.relative?_join hall, Option.some.injEq] at hrelative
    rw [← hrelative] at haccepted hkept
    rw [hasKnownExtension_join hall (hne hat)] at hknown
    exact ⟨_, ⟨⟨bytes, hat⟩, haccepted, hkept, hknown⟩,
      (Reach.covers_iff hparts).2 ⟨more, rfl, hlevels⟩, rfl⟩
  · rintro ⟨names, ⟨⟨bytes, hat⟩, haccepted, hkept, hknown⟩, hcovers, rfl⟩
    have hall := (hplain.at? hat).2
    have hparts := Reach.areNames_parts hg hall haccepted
    rcases (Reach.covers_iff hparts).1 hcovers with ⟨more, rfl, hlevels⟩
    refine ⟨?_, _, Path.relative?_join hall root, haccepted, hkept, ?_⟩
    · rw [Reach.base_eq hparts, FileTree.mem_walk_iff hroot hplain hparts]
      exact ⟨more, bytes, hat, hlevels, rfl⟩
    · rw [hasKnownExtension_join hall (hne hat)]
      exact hknown

end Content

namespace Reach

variable {pattern : String} {g : Glob} {names : List String}

theorem of_levels_eq_some {n : Nat} (h : levels pattern = some n) :
    hasTwoStars pattern = false ∧
      n = (Path.pieces pattern).length - (Path.components (base pattern)).length := by
  rw [levels] at h
  split at h
  · cases h
  · next hbound =>
      cases h
      exact ⟨(Bool.or_eq_false_iff.1 (eq_false_of_ne_true hbound)).1, rfl⟩

/-- The walk for a clear pattern gets to every file that the pattern matches. -/
theorem IsClear.covers (h : IsClear pattern g) (hg : Glob.parse? pattern = some g)
    (hnames : Path.AreNames names) (haccepted : g.accepts true ("/".intercalate names) = true) :
    Covers pattern names := by
  have hparts := areNames_parts hg hnames haccepted
  -- No part has a backslash, so none is changed where backslashes are taken out.
  have hplain : (parts pattern).map Glob.plain = parts pattern := by
    by_cases hnil : parts pattern = []
    · rw [hnil]
      rfl
    · have hpieces := pieces_plain (base pattern)
      rw [Glob.plain_of_not_mem h.spelled, base_eq hparts, Path.pieces_intercalate hparts hnil]
        at hpieces
      exact hpieces.symm
  have hprefix := prefix_of_accepts hg hnames haccepted
  rw [hplain] at hprefix
  rcases hprefix with ⟨more, rfl⟩
  refine (covers_iff hparts).2 ⟨more, rfl, fun n hn => ?_⟩
  rcases h.depth with hnone | hexplicit
  · rw [hnone] at hn
    cases hn
  · rcases of_levels_eq_some hn with ⟨hstars, hlevels⟩
    by_cases hnil : parts pattern ++ more = []
    · rw [(List.append_eq_nil_iff.1 hnil).2]
      exact Nat.zero_le n
    · -- There is one name more than there are slashes, in the path and in the pattern.
      have hslashes := Glob.count_slash_le_of_accepts hg hstars hexplicit haccepted
      have hlength := congrArg List.length (Path.pieces_intercalate hnames hnil)
      have hpattern : (Path.pieces pattern).length = _ := Text.length_split pattern
      rw [Path.pieces, Text.length_split, List.length_append] at hlength
      rw [components_base hparts, List.length_map] at hlevels
      omega

/-- Backslashes in the directory where the walk starts lose everything: the walk gets to no file
    that the pattern matches. -/
theorem Covers.spelled (h : Covers pattern names) (hg : Glob.parse? pattern = some g)
    (hnames : Path.AreNames names) (haccepted : g.accepts true ("/".intercalate names) = true) :
    '\\' ∉ (Reach.base pattern).toList := by
  have hparts := areNames_parts hg hnames haccepted
  have hprefix := prefix_of_accepts hg hnames haccepted
  rcases (covers_iff hparts).1 h with ⟨more, rfl, -⟩
  -- The path starts with the parts as they are spelled and with the parts less backslashes, and
  -- there are as many of the one as of the other.
  have hplain : (parts pattern).map Glob.plain = parts pattern := by
    refine List.IsPrefix.eq_of_length ?_ (List.length_map _)
    exact List.prefix_of_prefix_length_le hprefix (List.prefix_append _ _)
      (Nat.le_of_eq (List.length_map _))
  rw [base_eq hparts]
  refine Glob.not_mem_of_literal_eq (String.ofList_inj.1 ?_)
  rw [String.ofList_toList]
  exact (Glob.plain_intercalate _).trans (congrArg _ hplain)

end Reach

end UtilityCss
