import Mathlib.Data.List.Basic
import UtilityCss.Proofs.FileTree.Way
import UtilityCss.Proofs.Text.Pieces

/-!
# Paths Below a Directory

Which text is the path of something below a directory.

What is below a directory has names, and its path is the one of the directory with the names
behind it. How the two are put together depends on the text: nothing is put between them if
there is no text at all or if it ends in a slash. The structure of the path does not depend on
that, so the names can be read off the path, given that of the directory.

## Main definitions

* `Path.IsName`: A text that can be the name of an entry.
* `Path.AreNames`: Texts that can be the names on the way to an entry.

## Theorems

* `Path.components_join`: The structure of a path below a directory.
* `Path.foldl_join`: Names that are joined one by one are joined at once.
* `Path.relative?_join`: The names are read off the path.
* `Path.exists_names_of_relative?`: What is read off a path are names.
-/

namespace UtilityCss

namespace Path

/-- A text that can be the name of an entry. -/
structure IsName (name : String) : Prop extends IsEntry name where
  /-- It is one piece of a path. -/
  noSlash : '/' ∉ name.toList

/-- Texts that can be the names on the way to an entry. -/
def AreNames (names : List String) : Prop := ∀ name ∈ names, IsName name

theorem pieces_append (path more : String) :
    pieces (path ++ "/" ++ more) = pieces path ++ pieces more :=
  Text.split_append path more

theorem intercalate_pieces (path : String) : "/".intercalate (pieces path) = path :=
  Text.intercalate_split path

theorem mem_intercalate_iff {c : Char} (hc : c ≠ '/') {names : List String} :
    c ∈ ("/".intercalate names).toList ↔ ∃ name ∈ names, c ∈ name.toList :=
  Text.mem_intercalate_iff hc

namespace IsName

variable {name : String} (h : IsName name)
include h

theorem ne_empty : name ≠ "" := by
  rintro rfl
  exact absurd h.notIdle (by decide)

theorem toList_ne_nil : name.toList ≠ [] := fun heq =>
  h.ne_empty (String.toList_eq_nil_iff.1 heq)

theorem component_eq : component name = .name name := if_neg h.notUp

end IsName

theorem areNames_append {names more : List String} :
    AreNames (names ++ more) ↔ AreNames names ∧ AreNames more := List.forall_mem_append

variable {names : List String} (h : AreNames names)

section

include h

theorem pieces_intercalate (hne : names ≠ []) : pieces ("/".intercalate names) = names :=
  Text.split_intercalate hne fun name hname => (h name hname).noSlash

theorem intercalate_ne_empty (hne : names ≠ []) : "/".intercalate names ≠ "" := by
  intro hempty
  have hpieces := pieces_intercalate h hne
  rw [hempty] at hpieces
  exact (h "" (hpieces ▸ List.mem_cons_self)).ne_empty rfl

theorem filter_pieces_intercalate :
    (pieces ("/".intercalate names)).filter (fun piece => !isIdle piece) = names := by
  by_cases hne : names = []
  · rw [hne]
    rfl
  · rw [pieces_intercalate h hne, List.filter_eq_self]
    intro name hname
    rw [(h name hname).notIdle, Bool.not_false]

theorem isAbsolute_intercalate : isAbsolute ("/".intercalate names) = false := by
  cases names with
  | nil => rfl
  | cons name names =>
      have hname := (List.forall_mem_cons.1 h).1
      rcases hlist : name.toList with _ | ⟨c, cs⟩
      · exact absurd hlist hname.toList_ne_nil
      have hc : c ≠ '/' := by
        rintro rfl
        exact hname.noSlash (hlist ▸ List.mem_cons_self)
      -- The path starts as its first name does.
      have hhead : ("/".intercalate (name :: names)).toList.head? = some c := by
        by_cases hlast : names = []
        · rw [hlast, String.intercalate_singleton, hlist, List.head?_cons]
        · rw [String.intercalate_cons_of_ne_nil hlast, String.toList_append, String.toList_append,
            hlist]
          rfl
      rw [isAbsolute, hhead]
      exact decide_eq_false fun heq => hc (Option.some.inj heq)

theorem map_component : names.map component = names.map .name :=
  List.map_congr_left fun name hname => (h name hname).component_eq

end

/-! ### Joining -/

theorem exists_of_endsInSlash {base : String} (h : endsInSlash base = true) :
    ∃ first, base = first ++ "/" := by
  rw [endsInSlash, decide_eq_true_eq] at h
  rcases List.getLast?_eq_some_iff.1 h with ⟨first, hfirst⟩
  refine ⟨String.ofList first, String.toList_inj.1 ?_⟩
  rw [hfirst, String.toList_append, String.toList_ofList]
  rfl

theorem join_empty (path : String) : join "" path = path := by
  rw [join, decide_eq_true rfl, Bool.or_true, if_pos rfl]

theorem join_of_endsInSlash {base path : String} (hbase : endsInSlash base = true)
    (hpath : isAbsolute path = false) : join base path = base ++ path := by
  have hne : base ≠ "" := by
    rintro rfl
    exact absurd hbase (by decide)
  rw [join, hpath, decide_eq_false hne, Bool.or_false, if_neg Bool.false_ne_true, if_pos hbase]

theorem join_of_not_endsInSlash {base path : String} (hne : base ≠ "")
    (hbase : endsInSlash base = false) (hpath : isAbsolute path = false) :
    join base path = base ++ "/" ++ path := by
  rw [join, hpath, decide_eq_false hne, Bool.or_false, if_neg Bool.false_ne_true, hbase,
    if_neg Bool.false_ne_true]

/-- A path that is not absolute is put behind a slash, which may be there already. -/
theorem exists_stem {base : String} (hbase : base ≠ "") :
    ∃ stem, (base = stem ∨ base = stem ++ "/") ∧
      ∀ {path}, isAbsolute path = false → join base path = stem ++ "/" ++ path := by
  rcases Bool.eq_false_or_eq_true (endsInSlash base) with hslash | hslash
  · rcases exists_of_endsInSlash hslash with ⟨stem, rfl⟩
    exact ⟨stem, .inr rfl, join_of_endsInSlash hslash⟩
  · exact ⟨base, .inl rfl, join_of_not_endsInSlash hbase hslash⟩

/-- What is joined to a path stands behind the pieces of the path, less an idle one. -/
theorem exists_pieces_join {base : String} (hbase : base ≠ "") :
    ∃ first idles, first ≠ [] ∧ (∀ piece ∈ idles, isIdle piece = true) ∧
      pieces base = first ++ idles ∧ ∀ {path}, isAbsolute path = false →
        pieces (join base path) = first ++ pieces path ∧
          isAbsolute (join base path) = isAbsolute base := by
  have habsolute : ∀ more : String, isAbsolute (base ++ more) = isAbsolute base := by
    intro more
    have hne : base.toList ≠ [] := fun heq => hbase (String.toList_eq_nil_iff.1 heq)
    rw [isAbsolute, isAbsolute, String.toList_append, List.head?_append_of_ne_nil _ hne]
  rcases exists_stem hbase with ⟨stem, hstem, hjoin⟩
  have hpieces : ∀ {path}, isAbsolute path = false →
      pieces (join base path) = pieces stem ++ pieces path := by
    intro path hpath
    rw [hjoin hpath, pieces_append]
  rcases hstem with hstem | hstem
  · -- The slash is put between the two.
    refine ⟨pieces stem, [], Text.split_ne_nil stem, ?_, ?_, fun hpath => ⟨hpieces hpath, ?_⟩⟩
    · intro piece hpiece
      exact absurd hpiece List.not_mem_nil
    · rw [hstem, List.append_nil]
    · rw [hjoin hpath, ← hstem, String.append_assoc, habsolute]
  · -- The slash ends the path, which makes an empty piece behind it.
    refine ⟨pieces stem, [""], Text.split_ne_nil stem, ?_, ?_, fun hpath => ⟨hpieces hpath, ?_⟩⟩
    · intro piece hpiece
      rw [List.mem_singleton.1 hpiece]
      rfl
    · rw [hstem, ← String.append_empty (s := stem ++ "/"), pieces_append]
      rfl
    · rw [hjoin hpath, ← hstem, habsolute]

theorem components_intercalate (h : AreNames names) :
    components ("/".intercalate names) = names.map .name := by
  have hhead : (pieces ("/".intercalate names)).head? ≠ some "." := by
    by_cases hne : names = []
    · rw [hne]
      decide
    · rw [pieces_intercalate h hne]
      intro heq
      have hdot := h "." (List.mem_of_mem_head? heq)
      exact absurd hdot.notIdle (by decide)
  rw [components]
  rw [isAbsolute_intercalate h, if_neg Bool.false_ne_true, if_neg hhead,
    filter_pieces_intercalate h, map_component h]

/-- The structure of a path below a directory. -/
theorem components_join (h : AreNames names) (base : String) :
    components (join base ("/".intercalate names)) = components base ++ names.map .name := by
  by_cases hbase : base = ""
  · rw [hbase, join_empty, components_intercalate h]
    rfl
  rcases exists_pieces_join hbase with ⟨first, idles, hne, hidles, hpieces, hjoin⟩
  rcases hjoin (isAbsolute_intercalate h) with ⟨hjoined, habsolute⟩
  have hfilter : idles.filter (fun piece => !isIdle piece) = [] := by
    rw [List.filter_eq_nil_iff]
    intro piece hpiece
    rw [hidles piece hpiece, Bool.not_true]
    exact Bool.false_ne_true
  rw [components, components]
  -- The idle piece is dropped, and the first piece is the same with and without the names.
  rw [habsolute, hjoined, hpieces, List.head?_append_of_ne_nil _ hne,
    List.head?_append_of_ne_nil _ hne, List.filter_append, List.filter_append,
    filter_pieces_intercalate h, hfilter, List.append_nil, List.map_append, map_component h]
  split
  · rfl
  · split <;> rfl

theorem endsInSlash_append {name : String} (hname : IsName name) (path : String) :
    endsInSlash (path ++ name) = false := by
  rw [endsInSlash, String.toList_append, List.getLast?_append_of_ne_nil _ hname.toList_ne_nil]
  exact decide_eq_false fun heq => hname.noSlash (List.mem_of_getLast? heq)

theorem IsName.isAbsolute_eq {name : String} (hname : IsName name) : isAbsolute name = false := by
  have h : AreNames [name] := List.forall_mem_singleton.2 hname
  rw [← isAbsolute_intercalate h, String.intercalate_singleton]

theorem exists_intercalate_eq (h : AreNames names) (hne : names ≠ []) :
    ∃ before last, IsName last ∧ "/".intercalate names = before ++ last := by
  rcases List.eq_nil_or_concat names with rfl | ⟨init, last, rfl⟩
  · exact absurd rfl hne
  rw [List.concat_eq_append] at h ⊢
  have hlast := List.forall_mem_singleton.1 (areNames_append.1 h).2
  by_cases hinit : init = []
  · refine ⟨"", last, hlast, ?_⟩
    rw [hinit, List.nil_append, String.intercalate_singleton, String.empty_append]
  · refine ⟨"/".intercalate init ++ "/", last, hlast, ?_⟩
    rw [String.intercalate_append_of_ne_nil hinit (List.cons_ne_nil _ _),
      String.intercalate_singleton]

theorem endsInSlash_intercalate (h : AreNames names) :
    endsInSlash ("/".intercalate names) = false := by
  by_cases hne : names = []
  · rw [hne]
    rfl
  · rcases exists_intercalate_eq h hne with ⟨before, last, hlast, heq⟩
    rw [heq]
    exact endsInSlash_append hlast before

theorem join_join (h : AreNames names) {name : String} (hname : IsName name) (base : String) :
    join (join base ("/".intercalate names)) name
      = join base ("/".intercalate (names ++ [name])) := by
  have habsolute :=
    isAbsolute_intercalate (areNames_append.2 ⟨h, List.forall_mem_singleton.2 hname⟩)
  -- Without names the first join leaves a slash at the end, or nothing at all; behind names
  -- the second one puts a slash.
  by_cases hnames : names = []
  · rw [hnames, List.nil_append, String.intercalate_singleton, String.intercalate_nil]
    by_cases hbase : base = ""
    · rw [hbase, join_empty]
    · rcases exists_stem hbase with ⟨stem, -, hjoin⟩
      have hslash : endsInSlash (stem ++ "/") = true := by
        rw [endsInSlash, String.toList_append]
        exact decide_eq_true List.getLast?_concat
      rw [hjoin hname.isAbsolute_eq, hjoin rfl, String.append_empty,
        join_of_endsInSlash hslash hname.isAbsolute_eq]
  · have happend : "/".intercalate (names ++ [name]) = "/".intercalate names ++ "/" ++ name := by
      rw [String.intercalate_append_of_ne_nil hnames (List.cons_ne_nil _ _),
        String.intercalate_singleton]
    rcases exists_intercalate_eq h hnames with ⟨before, last, hlast, heq⟩
    have hbelow : ∀ path : String,
        join (path ++ "/".intercalate names) name
          = path ++ "/".intercalate names ++ "/" ++ name := by
      intro path
      rw [heq, ← String.append_assoc]
      have hne : path ++ before ++ last ≠ "" := fun hempty =>
        hlast.ne_empty (String.append_eq_empty_iff.1 hempty).2
      exact join_of_not_endsInSlash hne (endsInSlash_append hlast _) hname.isAbsolute_eq
    by_cases hbase : base = ""
    · rw [hbase, join_empty, join_empty, happend]
      simpa only [String.empty_append] using hbelow ""
    · rcases exists_stem hbase with ⟨stem, -, hjoin⟩
      rw [hjoin (isAbsolute_intercalate h), hjoin habsolute, hbelow, happend]
      simp only [String.append_assoc]

/-- Names that are joined one by one are joined at once. -/
theorem foldl_join (h : AreNames names) {more : List String} (hmore : AreNames more)
    (base : String) :
    more.foldl join (join base ("/".intercalate names))
      = join base ("/".intercalate (names ++ more)) := by
  induction more generalizing names with
  | nil => rw [List.foldl_nil, List.append_nil]
  | cons name more ih =>
      rcases List.forall_mem_cons.1 hmore with ⟨hname, hmore⟩
      have hnames : AreNames (names ++ [name]) :=
        areNames_append.2 ⟨h, List.forall_mem_singleton.2 hname⟩
      rw [List.foldl_cons, join_join h hname, ih hnames hmore, List.append_assoc,
        List.singleton_append]

/-! ### Reading the names off a path -/

theorem dropStart?_eq_some_iff {start cs rest : List Component} :
    dropStart? start cs = some rest ↔ cs = start ++ rest := by
  induction start generalizing cs with
  | nil => rw [dropStart?, Option.some.injEq, List.nil_append]
  | cons a start ih =>
      cases cs with
      | nil => simp only [dropStart?, reduceCtorEq, List.cons_append]
      | cons c cs =>
          rw [dropStart?, List.cons_append, List.cons.injEq]
          by_cases hac : a = c
          · rw [if_pos hac, ih, hac, eq_self, true_and]
          · rw [if_neg hac]
            simp only [reduceCtorEq, false_iff, not_and]
            exact fun heq => absurd heq.symm hac

theorem filterMap_name?_map (names : List String) :
    (names.map Component.name).filterMap Component.name? = names := by
  rw [List.filterMap_map]
  exact List.filterMap_some

/-- The names are read off the path. -/
theorem relative?_join (h : AreNames names) (base : String) :
    relative? base (join base ("/".intercalate names)) = some ("/".intercalate names) := by
  have hbelow : below? base (join base ("/".intercalate names)) = some (names.map .name) :=
    dropStart?_eq_some_iff.2 (components_join h base)
  rw [relative?, hbelow, Option.map_some, filterMap_name?_map]

theorem isName_of_mem_components {path name : String} (h : .name name ∈ components path) :
    IsName name := by
  -- What is put in front of the pieces is no name.
  have hmem : .name name ∈ ((pieces path).filter fun piece => !isIdle piece).map component := by
    rw [components] at h
    split at h
    · exact List.mem_of_ne_of_mem (by exact Component.noConfusion) h
    · split at h
      · exact List.mem_of_ne_of_mem (by exact Component.noConfusion) h
      · exact h
  rcases List.mem_map.1 hmem with ⟨piece, hpiece, hcomponent⟩
  rcases List.mem_filter.1 hpiece with ⟨hpieces, hidle⟩
  rw [component] at hcomponent
  by_cases hup : piece = ".."
  · rw [if_pos hup] at hcomponent
    cases hcomponent
  · rw [if_neg hup] at hcomponent
    cases hcomponent
    rw [Bool.not_eq_true'] at hidle
    exact ⟨⟨hidle, hup⟩, Text.not_mem_of_mem_split hpieces⟩

/-- What is read off a path are names. -/
theorem exists_names_of_relative? {base path relative : String}
    (h : relative? base path = some relative) :
    ∃ names, AreNames names ∧ relative = "/".intercalate names := by
  rcases Option.map_eq_some_iff.1 h with ⟨cs, hcs, rfl⟩
  refine ⟨cs.filterMap Component.name?, fun name hname => ?_, rfl⟩
  rcases List.mem_filterMap.1 hname with ⟨c, hc, hname⟩
  have hpath : components path = components base ++ cs := dropStart?_eq_some_iff.1 hcs
  cases c with
  | name text =>
      cases hname
      exact isName_of_mem_components (hpath ▸ List.mem_append_right _ hc)
  | top | here | up => cases hname

theorem fileName?_join (h : AreNames names) (base : String) (hne : names ≠ []) :
    fileName? (join base ("/".intercalate names)) = names.getLast? := by
  have hmap : names.map Component.name ≠ [] := fun heq => hne (List.map_eq_nil_iff.1 heq)
  rw [fileName?, components_join h, List.getLast?_append_of_ne_nil _ hmap, List.getLast?_map]
  cases names.getLast? <;> rfl

/-- The extension of a file is that of its last name. -/
theorem extension?_join (h : AreNames names) (base : String) (hne : names ≠ []) :
    extension? (join base ("/".intercalate names)) = extension? ("/".intercalate names) := by
  rw [extension?, extension?, fileName?_join h base hne, ← join_empty ("/".intercalate names),
    fileName?_join h "" hne]

end Path

end UtilityCss
