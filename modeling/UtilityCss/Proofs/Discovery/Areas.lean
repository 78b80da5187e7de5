import Mathlib.Data.List.Induction
import UtilityCss.Discovery
import UtilityCss.Proofs.FileTree.Plain

/-!
# What Is Discovered

Which files of a project a first configuration is made for, and which patterns are suggested
for them.

The files are gone through one after the other, and the extensions are gathered for each area:
the first directory on the way to a file, or the root. There is a pattern for each area, with
the extensions gathered for it. So a pattern says nothing about one file, and that no file is
missed has to come from what the map of areas holds after all of them. `Gathers` says that for
any list of files, and one more file keeps it.

It is used in both directions: a pattern is for extensions of files that are there, which is why
it can be read, and a file has a pattern with its extension, which is why it is found.

## Main definitions

* `DiscoveredFile.IsIn`: A file of a project that is suggested.
* `Discovery.Gathers`: What is gathered for each area.

## Theorems

* `Path.extension?_intercalate`: A file has the extension of its name.
* `Discovery.isIn_of_mem_ofNode`: What is discovered is in the project.
* `Discovery.Gathers.insert`: One more file is gathered.
* `Discovery.exists_of_mem_patterns`: A pattern is for the extensions of files in an area.
* `Discovery.exists_mem_patterns`: There is a pattern for each file.
-/

namespace UtilityCss

/-! ### Files -/

namespace FileNode

theorem exists_mem_of_mem_filesInEntries {place found : List String}
    {entries : List (String × FileNode)} (h : found ∈ filesInEntries place entries) :
    ∃ entry ∈ entries, found ∈ entry.2.filesBelow (place ++ [entry.1]) := by
  induction entries with
  | nil => exact absurd h List.not_mem_nil
  | cons entry entries ih =>
      rcases entry with ⟨name, n⟩
      rw [filesInEntries, List.mem_append] at h
      rcases h with h | h
      · split at h
        · exact absurd h List.not_mem_nil
        · exact ⟨(name, n), List.mem_cons_self, h⟩
      · rcases ih h with ⟨entry, hentry, hfound⟩
        exact ⟨entry, List.mem_cons_of_mem _ hentry, hfound⟩

/-- What is found below a node is there. -/
theorem IsPlain.exists_file_of_mem_filesBelow {n : FileNode} (hn : n.IsPlain)
    {place found : List String} (h : found ∈ n.filesBelow place) :
    ∃ names bytes, found = place ++ names ∧ n.at? names = some (.file bytes) := by
  induction hn generalizing place with
  | file bytes =>
      rw [filesBelow, List.mem_singleton] at h
      exact ⟨[], bytes, h.trans (List.append_nil place).symm, rfl⟩
  | @directory entries hnames hdistinct hentries ih =>
      rw [filesBelow] at h
      rcases exists_mem_of_mem_filesInEntries h with ⟨entry, hentry, h⟩
      rcases ih entry hentry h with ⟨names, bytes, rfl, hat⟩
      refine ⟨entry.1 :: names, bytes, ?_, ?_⟩
      · rw [List.append_assoc, List.singleton_append]
      · rw [at?_directory, (lookup_eq_some_iff hdistinct).2 hentry]
        exact hat

end FileNode

namespace Path

/-- A file has the extension of its name. -/
theorem extension?_intercalate {directories : List String} {name : String}
    (h : AreNames (directories ++ [name])) :
    extension? ("/".intercalate (directories ++ [name])) = extension? name := by
  have hlast : AreNames [name] := (areNames_append.1 h).2
  have hfile := fileName?_join h "" (List.append_ne_nil_of_right_ne_nil _ (List.cons_ne_nil _ _))
  have hname := fileName?_join hlast "" (List.cons_ne_nil _ _)
  rw [join_empty, List.getLast?_concat] at hfile
  rw [join_empty, String.intercalate_singleton, List.getLast?_singleton] at hname
  rw [extension?, extension?, hfile, hname]

/-- A name with an extension has something before it. -/
theorem IsName.exists_eq_of_extension? {name extension : String} (hname : IsName name)
    (h : extension? name = some extension) : ∃ stem, name = stem ++ "." ++ extension := by
  have hfile : fileName? name = some name := by
    have hjoin := fileName?_join (List.forall_mem_singleton.2 hname) "" (List.cons_ne_nil name [])
    rwa [join_empty, String.intercalate_singleton] at hjoin
  rw [extension?, hfile] at h
  dsimp only at h
  split at h
  -- The extension is cut off at the last point, and something is left in front of it.
  · next ext first more hcut =>
      cases h
      refine ⟨String.ofList (first :: more).reverse, String.toList_inj.1 ?_⟩
      have htext := (Text.eq_of_cutFirst hcut).1
      rw [List.reverse_eq_iff] at htext
      rw [htext, List.reverse_append, List.reverse_cons]
      simp only [String.toList_append, String.toList_ofList]
      rfl
  · cases h

end Path

/-- A file of a project that is suggested. -/
structure DiscoveredFile.IsIn (f : DiscoveredFile) (project : FileNode) : Prop where
  /-- There is a file. -/
  isFile : ∃ bytes, project.at? f.place = some (.file bytes)
  /-- The extension is that of its name. -/
  named : ∃ directories last, f.place = directories ++ [last] ∧
    Path.extension? last = some f.extension
  /-- The extension is one of those that are suggested. -/
  known : f.extension ∈ Discovery.extensions

namespace Discovery

/-- What is discovered is in the project. -/
theorem isIn_of_mem_ofNode {n : FileNode} (hn : n.IsPlain) {f : DiscoveredFile}
    (h : f ∈ (ofNode n).files) : f.IsIn n := by
  rcases List.mem_filterMap.1 h with ⟨place, hplace, hf⟩
  rcases hn.exists_file_of_mem_filesBelow hplace with ⟨names, bytes, rfl, hat⟩
  rw [DiscoveredFile.ofPlace?] at hf
  split at hf
  · next extension hextension =>
      split at hf
      · next hknown =>
          cases hf
          rcases Option.bind_eq_some_iff.1 hextension with ⟨last, hlast, hend⟩
          rcases List.getLast?_eq_some_iff.1 hlast with ⟨directories, rfl⟩
          exact ⟨⟨bytes, hat⟩, ⟨directories, last, rfl, hend⟩, List.contains_iff_mem.1 hknown⟩
      · cases hf
  · cases hf

/-! ### Areas -/

/-- What is gathered for each area are the extensions of the files in it, if there are any. -/
def Gathers (files : List DiscoveredFile) (found : SortedMap SortedSet) : Prop :=
  ∀ area, match found.get? area with
    | none => ∀ f ∈ files, f.area ≠ area
    | some es => (∃ f ∈ files, f.area = area) ∧
        ∀ e, e ∈ es ↔ ∃ f ∈ files, f.area = area ∧ f.extension = e

theorem Gathers.mem_getD_iff {files : List DiscoveredFile} {found : SortedMap SortedSet}
    (h : Gathers files found) {area e : String} :
    e ∈ (found.get? area).getD SortedSet.empty
      ↔ ∃ f ∈ files, f.area = area ∧ f.extension = e := by
  have hfound := h area
  rcases hget : found.get? area with _ | es
  · -- No file is in the area, so it has no extension.
    rw [hget] at hfound
    constructor
    · exact fun he => absurd he List.not_mem_nil
    · rintro ⟨f, hf, harea, -⟩
      exact absurd harea (hfound f hf)
  · rw [hget] at hfound
    exact hfound.2 e

theorem Gathers.insert {files : List DiscoveredFile} {found : SortedMap SortedSet}
    (h : Gathers files found) (f : DiscoveredFile) :
    Gathers (files ++ [f])
      (found.insert f.area (((found.get? f.area).getD SortedSet.empty).insert f.extension)) := by
  intro area
  have hfound := h area
  rw [SortedMap.get?_insert]
  -- The area of the file has its extension besides those that it had.
  by_cases harea : f.area = area
  · rw [if_pos harea, harea]
    dsimp only
    refine ⟨⟨f, List.mem_append_right _ List.mem_cons_self, harea⟩, fun e => ?_⟩
    rw [SortedSet.mem_insert, h.mem_getD_iff, eq_comm]
    simp only [List.mem_append, List.mem_singleton]
    constructor
    · rintro (rfl | ⟨f', hf', hin⟩)
      · exact ⟨f, .inr rfl, harea, rfl⟩
      · exact ⟨f', .inl hf', hin⟩
    · rintro ⟨f', hf' | rfl, hin⟩
      · exact .inr ⟨f', hf', hin⟩
      · exact .inl hin.2
  · -- An area that the file is not in has what it had.
    have hmem : ∀ f' ∈ files ++ [f], f'.area = area → f' ∈ files := by
      intro f' hf' hin
      rcases List.mem_append.1 hf' with hf' | hf'
      · exact hf'
      · exact absurd (List.mem_singleton.1 hf' ▸ hin) harea
    rw [if_neg harea]
    rcases hget : found.get? area with _ | es
    · rw [hget] at hfound
      exact fun f' hf' hin => hfound f' (hmem f' hf' hin) hin
    · rw [hget] at hfound
      rcases hfound with ⟨⟨f', hf', hin⟩, hes⟩
      refine ⟨⟨f', List.mem_append_left _ hf', hin⟩, fun e => (hes e).trans ⟨?_, ?_⟩⟩
      · rintro ⟨f', hf', hin⟩
        exact ⟨f', List.mem_append_left _ hf', hin⟩
      · rintro ⟨f', hf', hin⟩
        exact ⟨f', hmem f' hf' hin.1, hin⟩

/-- What the areas of all files hold. -/
theorem gathers_areas (d : Discovery) : Gathers d.files d.areas := by
  rcases d with ⟨files⟩
  unfold areas
  dsimp only
  induction files using List.reverseRecOn with
  | nil => exact fun area f hf => absurd hf List.not_mem_nil
  | append_singleton files f ih =>
      rw [List.foldl_append]
      exact ih.insert f

/-! ### Patterns -/

/-- Every pattern is for the extensions of the files in an area. -/
theorem exists_of_mem_patterns {d : Discovery} {pattern : String} (h : pattern ∈ d.patterns) :
    ∃ f ∈ d.files, ∃ es : SortedSet, pattern = areaPattern f.area es ∧ es.toList ≠ [] ∧
      ∀ e ∈ es.toList, ∃ f' ∈ d.files, f'.extension = e := by
  rcases List.mem_map.1 h with ⟨⟨area, es⟩, hentry, rfl⟩
  have hgathers := d.gathers_areas area
  rw [(d.areas.mem_entries_iff area es).1 hentry] at hgathers
  rcases hgathers with ⟨⟨f, hf, rfl⟩, hes⟩
  refine ⟨f, hf, es, rfl, List.ne_nil_of_mem ((hes f.extension).2 ⟨f, hf, rfl, rfl⟩), ?_⟩
  intro e he
  rcases (hes e).1 he with ⟨f', hf', -, hextension⟩
  exact ⟨f', hf', hextension⟩

/-- There is a pattern for each file. -/
theorem exists_mem_patterns {d : Discovery} {f : DiscoveredFile} (hf : f ∈ d.files) :
    ∃ es : SortedSet, areaPattern f.area es ∈ d.patterns ∧ f.extension ∈ es.toList ∧
      ∀ e ∈ es.toList, ∃ f' ∈ d.files, f'.extension = e := by
  have hgathers := d.gathers_areas f.area
  rcases hget : d.areas.get? f.area with _ | es
  · rw [hget] at hgathers
    exact absurd rfl (hgathers f hf)
  · rw [hget] at hgathers
    refine ⟨es, ?_, (hgathers.2 f.extension).2 ⟨f, hf, rfl, rfl⟩, fun e he => ?_⟩
    · exact List.mem_map.2 ⟨(f.area, es), (d.areas.mem_entries_iff _ _).2 hget, rfl⟩
    · rcases (hgathers.2 e).1 he with ⟨f', hf', -, hextension⟩
      exact ⟨f', hf', hextension⟩

end Discovery

end UtilityCss
