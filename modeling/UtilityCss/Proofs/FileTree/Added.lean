import UtilityCss.Proofs.FileTree.Plain
import UtilityCss.Proofs.FileTree.Writing

/-!
# A File Written Into a Directory

What a directory without links has after a file is written into it.

The path of a file in a directory leads to that file or to nothing, so writing it changes one
entry of the directory. The directory is still found under its path, it still has no links, and
every other file in it is where it was.

## Main definitions

* `FileNode.withFile`: The entries of a directory with a file.

## Theorems

* `FileNode.isPlain_withFile`: There are still no links.
* `FileNode.at?_withFile`: The other files are kept.
* `FileTree.exists_put_of_write`: What is written is one entry of the directory.
* `FileTree.reach_put`: The directory is found with the file in it.
* `FileTree.write_of_lookup_eq_none`: A file that is not there can be written.
-/

namespace UtilityCss

namespace FileNode

/-- The entries of a directory with a file of a name. -/
def withFile (name : String) (bytes : List UInt8) (entries : List (String × FileNode)) :
    List (String × FileNode) :=
  setEntry name (fun _ => .file (some bytes)) entries

variable {name : String} {bytes : List UInt8} {entries : List (String × FileNode)}

theorem mem_withFile {entry : String × FileNode} (h : entry ∈ withFile name bytes entries) :
    entry ∈ entries ∨ entry = (name, .file (some bytes)) := by
  induction entries with
  | nil => exact .inr (List.mem_singleton.1 h)
  | cons first entries ih =>
      rcases first with ⟨other, child⟩
      rw [withFile, setEntry] at h
      by_cases hother : other = name
      · rw [if_pos hother, List.mem_cons] at h
        rcases h with rfl | h
        · rw [hother]
          exact .inr rfl
        · exact .inl (List.mem_cons_of_mem _ h)
      · rw [if_neg hother, List.mem_cons] at h
        rcases h with rfl | h
        · exact .inl List.mem_cons_self
        · exact (ih h).imp_left (List.mem_cons_of_mem _)

theorem nodup_withFile (h : (entries.map Prod.fst).Nodup) :
    ((withFile name bytes entries).map Prod.fst).Nodup := by
  induction entries with
  | nil => exact List.nodup_cons.2 ⟨List.not_mem_nil, List.nodup_nil⟩
  | cons first entries ih =>
      rcases first with ⟨other, child⟩
      rcases List.nodup_cons.1 h with ⟨hfirst, hrest⟩
      rw [withFile, setEntry]
      by_cases hother : other = name
      · rw [if_pos hother]
        exact h
      · rw [if_neg hother]
        refine List.nodup_cons.2 ⟨fun hmem => ?_, ih hrest⟩
        rcases List.mem_map.1 hmem with ⟨entry, hentry, heq⟩
        -- An entry of this name further behind was there before, or it is the file.
        rcases mem_withFile hentry with hentry | rfl
        · exact hfirst (List.mem_map.2 ⟨entry, hentry, heq⟩)
        · exact hother heq.symm

/-- There are still no links. -/
theorem isPlain_withFile (bytes : List UInt8) (hname : Path.IsName name)
    (h : (directory entries).IsPlain) :
    (directory (withFile name bytes entries)).IsPlain := by
  cases h with
  | directory hnames hdistinct hentries =>
      refine .directory ?_ (nodup_withFile hdistinct) ?_
      · intro other hother
        rcases List.mem_map.1 hother with ⟨entry, hentry, rfl⟩
        rcases mem_withFile hentry with hentry | rfl
        · exact hnames _ (List.mem_map_of_mem hentry)
        · exact hname
      · intro entry hentry
        rcases mem_withFile hentry with hentry | rfl
        · exact hentries entry hentry
        · exact .file bytes

/-- The other files are kept. -/
theorem at?_withFile {names : List String} {kept : Option (List UInt8)} (hne : names ≠ [name])
    (hold : ∀ child, entries.lookup name = some child → ∃ old, child = .file old)
    (h : (directory entries).at? names = some (.file kept)) :
    (directory (withFile name bytes entries)).at? names = some (.file kept) := by
  rcases names with _ | ⟨first, names⟩
  · cases h
  · rw [at?_directory] at h ⊢
    rw [withFile, lookup_setEntry]
    by_cases hfirst : first = name
    · -- Nothing is below a file.
      rcases Option.bind_eq_some_iff.1 h with ⟨child, hchild, h⟩
      rw [hfirst] at hchild
      rcases hold child hchild with ⟨old, rfl⟩
      cases names with
      | nil => exact absurd (congrArg ([·]) hfirst) hne
      | cons next names => cases h
    · rw [if_neg hfirst]
      exact h

theorem lookup_ne_link (h : (directory entries).IsPlain) (target : String) :
    entries.lookup name ≠ some (.link target) := by
  intro hlookup
  cases h with
  | directory hnames hdistinct hentries => cases hentries _ (mem_of_lookup hlookup)

end FileNode

theorem Path.IsName.endsInSlash_join {name : String} (hname : IsName name) (base : String) :
    endsInSlash (join base name) = false := by
  rw [join]
  split
  · rw [← String.empty_append (s := name)]
    exact endsInSlash_append hname ""
  · split
    · exact endsInSlash_append hname base
    · exact endsInSlash_append hname (base ++ "/")

namespace FileTree

open FileNode

variable {t t' : FileTree} {root : String} {place : List String}
  {entries : List (String × FileNode)}
  (hroot : t.reach root = .ok (place, .directory entries)) {name : String}
  (hname : Path.IsName name) {bytes : List UInt8}
include hroot

theorem at?_entry : t.top.at? (place ++ [name]) = entries.lookup name := by
  rw [at?_append, at?_of_reach hroot, Option.bind_some, at?_directory]
  cases entries.lookup name <;> rfl

include hname

/-- The path of an entry leads to the entry, if that is no link. -/
theorem find_join_name (hlink : ∀ target, entries.lookup name ≠ some (.link target)) :
    t.find true (Path.join root name) = .ok (match entries.lookup name with
      | none => .absent place name false
      | some child => .found (place ++ [name]) child) := by
  rcases exists_find_join hroot with ⟨links, hfind⟩
  have hnamed := hfind (List.forall_mem_singleton.2 hname)
  rw [String.intercalate_singleton] at hnamed
  rw [hnamed, follow_eq_ok_iff]
  -- The last step goes to the entry, to nowhere, or along a link, which is excluded.
  have hat : t.top.at? (place ++ [name]) = entries.lookup name := at?_entry hroot
  rcases hlookup : entries.lookup name with _ | child
  · rw [hlookup] at hat
    exact .absent hname.toIsEntry hat fun _ hpiece => absurd hpiece List.not_mem_nil
  · rw [hlookup] at hat
    cases child with
    | file bytes => exact .file hname.toIsEntry hat
    | link target => exact absurd hlookup (hlink target)
    | directory entries' => exact .enter hname.toIsEntry hat (.stop hat)

/-- What is written is one entry of the directory, and it takes the place of a file at most. -/
theorem exists_put_of_write (hplain : (FileNode.directory entries).IsPlain)
    (h : t.write (Path.join root name) bytes = .ok t') :
    t' = t.put (place ++ [name]) (.file (some bytes)) ∧
      ∀ child, entries.lookup name = some child → ∃ old, child = .file old := by
  have hfind := find_join_name hroot hname (lookup_ne_link hplain)
  -- A write takes the place of a file or makes one, and the look-up says which.
  rcases write_eq_ok h with ⟨-, ⟨place', old, hfound, rfl⟩ | ⟨directory, name', habsent, rfl⟩⟩
  · rw [hfind, Except.ok.injEq] at hfound
    rcases hlookup : entries.lookup name with _ | child
    · rw [hlookup] at hfound
      cases hfound
    · rw [hlookup] at hfound
      cases hfound
      exact ⟨rfl, fun child' hchild' => ⟨old, (Option.some.inj hchild').symm⟩⟩
  · rw [hfind, Except.ok.injEq] at habsent
    rcases hlookup : entries.lookup name with _ | child
    · rw [hlookup] at habsent
      cases habsent
      exact ⟨rfl, fun child' hchild' => (nomatch hchild')⟩
    · rw [hlookup] at habsent
      cases habsent

/-- A file that is not there can be written. -/
theorem write_of_lookup_eq_none (bytes : List UInt8) (h : entries.lookup name = none) :
    t.write (Path.join root name) bytes = .ok (t.put (place ++ [name]) (.file (some bytes))) := by
  have hfind := find_join_name hroot hname fun target hlookup => by
    rw [h] at hlookup
    cases hlookup
  rw [h] at hfind
  rw [write, if_neg (ne_true_of_eq_false (hname.endsInSlash_join root)), hfind]
  rfl

omit hname in
/-- The directory is found with the file in it. -/
theorem reach_put (bytes : List UInt8)
    (hold : ∀ child, entries.lookup name = some child → ∃ old, child = .file old) :
    (t.put (place ++ [name]) (.file (some bytes))).reach root
      = .ok (place, .directory (withFile name bytes entries)) := by
  have hentries := at?_of_reach hroot
  have hat : t.top.at? (place ++ [name]) = entries.lookup name := at?_entry hroot
  have hgrows : t.Grows (t.put (place ++ [name]) (.file (some bytes))) := by
    refine ⟨?_, rfl⟩
    rcases hlookup : entries.lookup name with _ | child
    · exact grows_put_absent ⟨entries, hentries⟩ (hat.trans hlookup)
    · rcases hold child hlookup with ⟨old, rfl⟩
      exact grows_put_file (hat.trans hlookup) bytes
  -- The way to the root is still there, and what it leads to is read off at its place.
  rcases hgrows.find_found (reach_eq_ok_iff.1 hroot) with ⟨node, hfind, -⟩
  have hreach := reach_eq_ok_iff.2 hfind
  have hnode : (t.put (place ++ [name]) (.file (some bytes))).top.at? place
      = some (.directory (withFile name bytes entries)) := by
    show (FileNode.put (.file (some bytes)) (place ++ [name]) t.top).at? place = _
    rw [put_append (.file (some bytes)) [name] hentries, at?_put]
    rfl
  rw [hreach, Option.some.inj ((at?_of_reach hreach).symm.trans hnode)]

end FileTree

end UtilityCss
