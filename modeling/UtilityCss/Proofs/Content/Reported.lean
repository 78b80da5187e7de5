import UtilityCss.Proofs.Accounting
import UtilityCss.Proofs.FileTree.Below
import UtilityCss.Proofs.Glob.Parts

/-!
# Which Errors Are Reported

When an error on the way to a match is sure to be remarked on.

An error of a walk is remarked on if the pattern matches its path or may match something below
it. The second is predicted from the text of the pattern, part by part, and the prediction is
meant to err on the side of saying yes: what cannot be read counts as a match, and so does
everything from two stars on. It is right only if the text is cut where the glob is. A class with
a slash in it is cut in two, a class can take up a slash that the text does not show, and braces
are overlooked if something in them looks like their end. In these three cases a directory can be
denied that has matches below it.

Otherwise the prediction is right, and the argument goes along the names of a matching path. The
pieces of the first part take up the first name, because they take up no slash and the next piece
takes up one first. So the part matches the name, also on its own, and what is left of the path is
matched by what is read of the parts that are left. This can be repeated until the directory has
no name left or the parts come to two stars. And the parts cannot run out, since the last of them
takes up the last name.

## Main definitions

* `Glob.IsAbove`: A directory is above a path that a glob matches.
* `Reach.cutsAtSlashes`: A pattern is cut where its glob is.
* `Reach.Reports`: No error above a match is kept quiet.
* `Reach.TakesUp`: What is read of some parts takes up a path.
* `Reach.Silences`: An error above a match is kept quiet.

## Theorems

* `partsMayHold_of_takesUp`: What may be below a directory, part by part.
* `reports_of_cutsAtSlashes`: Every error above a match is remarked on.
* `silences_misread`: Patterns that are cut elsewhere, and what they keep quiet.
-/

namespace UtilityCss

/-- A directory is above a path that a glob matches. It is given by the names on the way to it, so
    the root has the empty path. -/
def Glob.IsAbove (g : Glob) (directory : String) : Prop :=
  ∃ init more, directory = "/".intercalate init ∧ more ≠ [] ∧
    (∀ name ∈ init ++ more, name ≠ "" ∧ '/' ∉ name.toList) ∧
    g.accepts true ("/".intercalate (init ++ more)) = true

namespace Reach

open Glob GlobPiece

/-- A pattern is cut where its glob is. Either a slash is found inside of its braces and nothing
    is cut, or each part up to the first one with two stars is a glob with the slash behind it,
    and no class inside of it takes up a slash. -/
def cutsAtSlashes (pattern : String) : Bool :=
  hasInnerSlash 0 pattern.toList ||
    ((Path.pieces pattern).takeWhile fun part => !hasTwoStars part).all fun part =>
      (Glob.parse? (part ++ "/")).any Glob.isExplicitInside

/-- No error above a match is kept quiet. -/
structure Reports (pattern : String) (g : Glob) : Prop where
  /-- The pattern matches the directory or may match something below it. -/
  reaches : ∀ {directory}, g.IsAbove directory →
    g.accepts true directory = true ∨ mayHold pattern directory = true
  /-- An error there is remarked on, whatever else is asked for. -/
  remarked : ∀ {s : Content.Scope} {given}, Content.normalize s.tree s.root given = pattern →
    ∀ extractor sel, ∃ sel', Content.addPattern s extractor sel given = .ok sel' ∧
      ∀ e, .error e ∈ s.walk pattern →
        (∀ directory, s.relative? e.path = some directory → g.IsAbove directory) →
          Content.unreadable e ∈ sel'.diagnostics

/-! ### The prediction -/

theorem encode_intercalate_cons {name : String} {names : List String} (h : names ≠ []) :
    Text.encode ("/".intercalate (name :: names))
      = Text.encode name ++ slash :: Text.encode ("/".intercalate names) := by
  rw [String.intercalate_cons_of_ne_nil h, Text.encode_append_slash]

theorem encode_ne_nil {name : String} (h : name ≠ "") : Text.encode name ≠ [] := fun heq =>
  h (Text.encode_injective (heq.trans (Text.encode_eq "").symm))

/-- A path starts with its first name. -/
theorem exists_encode_eq_cons {names : List String} (hne : names ≠ [])
    (h : ∀ name ∈ names, name ≠ "" ∧ '/' ∉ name.toList) :
    ∃ b s, Text.encode ("/".intercalate names) = b :: s ∧ b ≠ slash := by
  rcases List.exists_cons_of_ne_nil hne with ⟨name, rest, rfl⟩
  have hname := (List.forall_mem_cons.1 h).1
  have hsuffix : ∃ more, Text.encode ("/".intercalate (name :: rest))
      = Text.encode name ++ more := by
    by_cases hrest : rest = []
    · exact ⟨[], by rw [hrest, String.intercalate_singleton, List.append_nil]⟩
    · exact ⟨_, encode_intercalate_cons hrest⟩
  rcases hsuffix with ⟨more, hmore⟩
  rcases List.exists_cons_of_ne_nil (encode_ne_nil hname.1) with ⟨b, s, hbytes⟩
  refine ⟨b, s ++ more, by rw [hmore, hbytes, List.cons_append], ?_⟩
  rintro rfl
  exact Text.slash_not_mem_encode hname.2 (hbytes ▸ List.mem_cons_self)

theorem partMatches_of_isReadAs {part name : String} {ps : List GlobPiece}
    (h : IsReadAs part ps) (htaken : [] ∈ restsOfList false [Text.encode name] ps) :
    partMatches part name = true := by
  unfold partMatches
  cases hg : Glob.parse? part with
  | none => rfl
  | some g =>
      dsimp only
      rw [Glob.accepts, h.pieces_eq hg, Bool.or_eq_true]
      exact .inr (List.contains_iff_mem.2 htaken)

/-- What has been read since a draft takes up a text. -/
def TakesUp (d d' : GlobDraft) (s : List UInt8) : Prop :=
  ∀ ps, d'.pieces = ps.reverse ++ d.pieces → [] ∈ restsOfList true [s] ps

/-- The first part of a pattern matches the first name of a path, and what is read of the others
    takes up the rest of it. -/
theorem exists_takesUp {part name : String} {ps : List GlobPiece} (hps : IsReadAs part ps)
    {rest : List UInt8} (hpath : IsFirstName (Text.encode name) rest) {before : Option Char}
    {d d' : GlobDraft} {more : List Char} (hd : d.around = [])
    (hread : read? none before d (part.toList ++ '/' :: more) = some d') (hd' : d'.around = [])
    (htakes : TakesUp d d' (Text.encode name ++ slash :: rest)) :
    partMatches part name = true ∧ ∃ d₁ : GlobDraft, d₁.around = [] ∧
      read? none (some '/') d₁ more = some d' ∧ TakesUp d₁ d' rest := by
  rw [hps.inner hd] at hread
  refine ⟨?_, _, rfl, hread, fun qs hqs => ?_⟩
  · -- Whatever comes next takes up a slash first.
    have hbegins : GlobDraft.Begins (ps.reverse ++ d.pieces).reverse
        ⟨.char '/' :: (ps.reverse ++ d.pieces), []⟩ :=
      ⟨.char '/', rfl, by rw [List.reverse_reverse]; exact List.suffix_refl _⟩
    rcases hbegins.read? hread with ⟨p, hp, hsuffix⟩
    rw [GlobDraft.outer_of_around hd', List.reverse_reverse] at hsuffix
    rcases hsuffix with ⟨qs, hqs⟩
    have hall := htakes (ps ++ p :: qs.reverse) (by simp [← hqs])
    exact partMatches_of_isReadAs hps (hps.stay.mem_restsOfList_of_isSlash hpath hp hall).1
  -- What is read of the other parts follows the slash.
  · have hall := htakes (ps ++ .char '/' :: qs) (by simp [hqs])
    exact mem_restsOfList_slash.1 (hps.stay.mem_restsOfList_of_isSlash hpath rfl hall).2

/-- The directories above a path may hold what the pattern matches, if what is read of the parts
    takes up the path. -/
theorem partsMayHold_of_takesUp {parts : List String} (hparts : parts ≠ [])
    (hcut : ∀ part ∈ parts.takeWhile (fun part => !hasTwoStars part), ∃ ps, IsReadAs part ps)
    {before : Option Char} {d d' : GlobDraft} (hd : d.around = [])
    (hread : read? none before d ("/".intercalate parts).toList = some d') (hd' : d'.around = [])
    {init more : List String} (hmore : more ≠ [])
    (hnames : ∀ name ∈ init ++ more, name ≠ "" ∧ '/' ∉ name.toList)
    (htakes : TakesUp d d' (Text.encode ("/".intercalate (init ++ more)))) :
    partsMayHold parts init = true := by
  induction parts generalizing before d init with
  | nil => exact absurd rfl hparts
  | cons part rest ih =>
      cases init with
      | nil => rfl
      | cons name init =>
          rw [partsMayHold, Bool.or_eq_true, Bool.and_eq_true]
          by_cases hstars : hasTwoStars part = true
          · exact .inl hstars
          rw [Bool.not_eq_true] at hstars
          rw [List.takeWhile_cons, hstars, Bool.not_false, if_pos rfl] at hcut
          rcases List.forall_mem_cons.1 hcut with ⟨⟨ps, hps⟩, hcut⟩
          have hne : init ++ more ≠ [] := List.append_ne_nil_of_right_ne_nil init hmore
          rcases List.forall_mem_cons.1 hnames with ⟨hname, hnames⟩
          have hpath : IsFirstName (Text.encode name)
              (Text.encode ("/".intercalate (init ++ more))) :=
            ⟨encode_ne_nil hname.1, Text.slash_not_mem_encode hname.2,
              exists_encode_eq_cons hne hnames⟩
          rw [List.cons_append, encode_intercalate_cons hne] at htakes
          cases rest with
          | nil =>
              -- The last part takes up no slash, but the path has one left.
              rw [String.intercalate_singleton] at hread
              exact absurd (htakes ps (hps.last hd hread hd')) (hps.stay.not_mem hpath)
          | cons next rest =>
              have hlist : ("/".intercalate (part :: next :: rest)).toList
                  = part.toList ++ '/' :: ("/".intercalate (next :: rest)).toList := by
                rw [String.intercalate_cons_cons, String.toList_append, String.toList_append,
                  List.append_assoc]
                rfl
              rw [hlist] at hread
              rcases exists_takesUp hps hpath hd hread hd' htakes with
                ⟨hmatches, d₁, hd₁, hread₁, htakes₁⟩
              exact .inr ⟨hmatches, ih (List.cons_ne_nil _ _) hcut hd₁ hread₁ hnames htakes₁⟩

theorem mayHold_eq {init : List String} (hnames : ∀ name ∈ init, name ≠ "" ∧ '/' ∉ name.toList)
    (pattern : String) : mayHold pattern ("/".intercalate init)
      = (hasInnerSlash 0 pattern.toList || partsMayHold (Path.pieces pattern) init) := by
  have hparts : (Path.pieces ("/".intercalate init)).filter (· ≠ "") = init := by
    by_cases hinit : init = []
    · rw [hinit]
      rfl
    · have hpieces : Path.pieces ("/".intercalate init) = init :=
        Text.split_intercalate hinit fun name hname => (hnames name hname).2
      rw [hpieces, List.filter_eq_self]
      exact fun name hname => decide_eq_true (hnames name hname).1
  rw [mayHold, hparts]

/-- A pattern that is cut where its glob is denies no directory above a match. -/
theorem reaches_of_cutsAtSlashes {pattern : String} {g : Glob} (hg : Glob.parse? pattern = some g)
    (hcuts : cutsAtSlashes pattern = true) {directory : String} (h : g.IsAbove directory) :
    g.accepts true directory = true ∨ mayHold pattern directory = true := by
  rcases h with ⟨init, more, rfl, hmore, hnames, haccepted⟩
  by_cases heverything : g.pieces = [.leading]
  · refine .inl ?_
    rw [Glob.accepts, show g = ⟨[.leading]⟩ by rw [← heverything]]
    rfl
  refine .inr ?_
  rw [mayHold_eq fun name hname => hnames name (List.mem_append_left _ hname), Bool.or_eq_true]
  rw [cutsAtSlashes, Bool.or_eq_true] at hcuts
  refine hcuts.imp_right fun hall => ?_
  rcases exists_read?_of_parse? hg with ⟨d, hread, haround, hpieces⟩
  have hpattern : "/".intercalate (Path.pieces pattern) = pattern := Path.intercalate_pieces pattern
  rw [← hpattern] at hread
  refine partsMayHold_of_takesUp (Text.split_ne_nil pattern) ?_ rfl hread haround hmore hnames
    fun ps hps => ?_
  -- The parts up to the first two stars are read as they stand.
  · intro part hpart
    have hstars := List.mem_takeWhile_imp hpart
    rcases (Option.any_eq_true _ _).1 (List.all_eq_true.1 hall part hpart) with
      ⟨g', hg', hexplicit⟩
    have hslash : '/' ∉ part.toList :=
      Text.not_mem_of_mem_split ((List.takeWhile_subset _) hpart)
    exact exists_isReadAs hslash (by simpa using hstars) hg' hexplicit
  -- The pieces of the whole pattern take up the path.
  · have hall := mem_restsOfList_of_accepts heverything haccepted
    rw [hpieces, hps] at hall
    simpa [GlobDraft.empty] using hall

/-! ### The remarks -/

theorem mem_errors_iff {s : Content.Scope} {pattern : String} {g : Glob} {e : WalkError} :
    e ∈ s.errors pattern g ↔ .error e ∈ s.walk pattern ∧ s.matters pattern g e = true := by
  rw [Content.Scope.errors, List.mem_filterMap]
  constructor
  · rintro ⟨_ | e', hwalk, hfound⟩
    · rw [Option.ite_none_right_eq_some, Option.some.injEq] at hfound
      rcases hfound with ⟨hmatters, rfl⟩
      exact ⟨hwalk, hmatters⟩
    · cases hfound
  · rintro ⟨hwalk, hmatters⟩
    exact ⟨.error e, hwalk, if_pos hmatters⟩

theorem matters_of_reaches {s : Content.Scope} {pattern : String} {g : Glob} {e : WalkError}
    (h : ∀ directory, s.relative? e.path = some directory →
      g.accepts true directory = true ∨ mayHold pattern directory = true) :
    s.matters pattern g e = true := by
  unfold Content.Scope.matters
  cases hrelative : s.relative? e.path with
  | none => rfl
  | some directory => exact Bool.or_eq_true_iff.2 (h directory hrelative)

/-- What is remarked on for a pattern. -/
theorem exists_addPattern {s : Content.Scope} {pattern : String} {g : Glob}
    (hg : Glob.parse? (Content.normalize s.tree s.root pattern) = some g) (extractor : Nat)
    (sel : Selection) : ∃ sel', Content.addPattern s extractor sel pattern = .ok sel' ∧
      ∀ e ∈ s.errors (Content.normalize s.tree s.root pattern) g,
        Content.unreadable e ∈ sel'.diagnostics := by
  refine ⟨_, Content.addPattern_of_parse? hg extractor sel, fun e he => ?_⟩
  rw [Content.diagnostics_foldl_addFile]
  exact List.mem_append_right _ (List.mem_append_left _ (List.mem_map_of_mem he))

/-- Every error above a match is remarked on, if the pattern is cut where its glob is. -/
theorem reports_of_cutsAtSlashes {pattern : String} {g : Glob} (hg : Glob.parse? pattern = some g)
    (hcuts : cutsAtSlashes pattern = true) : Reports pattern g where
  reaches := reaches_of_cutsAtSlashes hg hcuts
  remarked := by
    rintro s given rfl extractor sel
    rcases exists_addPattern hg extractor sel with ⟨sel', hadded, hremarked⟩
    refine ⟨sel', hadded, fun e he habove => hremarked e (mem_errors_iff.2 ⟨he, ?_⟩)⟩
    exact matters_of_reaches fun directory hdirectory =>
      reaches_of_cutsAtSlashes hg hcuts (habove directory hdirectory)

/-- Braces, a class that could take up a slash, a slash with its meaning taken away, and two stars:
    a directory is not denied that is deeper than the pattern has parts. -/
theorem reports_of_cutsAtSlashes_stars : ∃ g,
    Glob.parse? "\x7bsrc,lib\x7d/[!_]x\\/**/y.html" = some g ∧
      Reports "\x7bsrc,lib\x7d/[!_]x\\/**/y.html" g ∧
      (g.accepts true "lib/bx/c/d/e" = true ∨
        mayHold "\x7bsrc,lib\x7d/[!_]x\\/**/y.html" "lib/bx/c/d/e" = true) := by
  have haccepts : (Glob.parse? "\x7bsrc,lib\x7d/[!_]x\\/**/y.html").map
      (·.accepts true ("/".intercalate ["lib", "bx", "c", "d", "e", "y.html"])) = some true := by
    decide +kernel
  rcases Option.map_eq_some_iff.1 haccepts with ⟨g, hg, haccepts⟩
  have hreports := reports_of_cutsAtSlashes hg (by decide +kernel)
  have habove : g.IsAbove "lib/bx/c/d/e" :=
    ⟨["lib", "bx", "c", "d", "e"], ["y.html"], by decide, by decide, by decide, haccepts⟩
  exact ⟨g, hg, hreports, hreports.reaches habove⟩

/-! ### Patterns that are cut elsewhere -/

/-- Errors in a directory above a match are kept quiet, whatever the project is. -/
structure Silences (pattern directory : String) (g : Glob) : Prop where
  /-- The directory is above a match. -/
  isAbove : g.IsAbove directory
  /-- The pattern does not match it, and nothing is expected below it. -/
  denied : g.accepts true directory = false ∧ mayHold pattern directory = false
  /-- Errors there do not matter. -/
  quiet : ∀ (s : Content.Scope) (e : WalkError), s.relative? e.path = some directory →
    e ∉ s.errors pattern g

theorem exists_silences {pattern : String} (init more : List String) (hmore : more ≠ [])
    (hnames : ∀ name ∈ init ++ more, name ≠ "" ∧ '/' ∉ name.toList)
    (h : (Glob.parse? pattern).map (fun g => (g.accepts true ("/".intercalate (init ++ more)),
      g.accepts true ("/".intercalate init), mayHold pattern ("/".intercalate init)))
        = some (true, false, false)) :
    ∃ g, Glob.parse? pattern = some g ∧ Silences pattern ("/".intercalate init) g := by
  rcases Option.map_eq_some_iff.1 h with ⟨g, hg, hall⟩
  rw [Prod.mk.injEq, Prod.mk.injEq] at hall
  refine ⟨g, hg, ⟨init, more, rfl, hmore, hnames, hall.1⟩, hall.2, fun s e hrelative he => ?_⟩
  have hmatters := (mem_errors_iff.1 he).2
  rw [Content.Scope.matters, hrelative] at hmatters
  simp only [hall.2.1, hall.2.2, Bool.or_self, Bool.false_eq_true] at hmatters

/-- A class that is cut in two, a class that takes up a slash, and braces that are overlooked. -/
theorem silences_misread :
    (∃ g, Glob.parse? "src/[!/]x/c/y.html" = some g ∧
      Silences "src/[!/]x/c/y.html" "src/ax/c" g) ∧
    (∃ g, Glob.parse? "site[!a]x/y.html" = some g ∧ Silences "site[!a]x/y.html" "site/x" g) ∧
    ∃ g, Glob.parse? "\x7b\\\x7d/x/z,b\x7d/c/y.html" = some g ∧
      Silences "\x7b\\\x7d/x/z,b\x7d/c/y.html" "b/c" g := by
  refine ⟨?_, ?_, ?_⟩
  · exact exists_silences ["src", "ax", "c"] ["y.html"] (by decide) (by decide)
      (by decide +kernel)
  · exact exists_silences ["site", "x"] ["y.html"] (by decide) (by decide)
      (by decide +kernel)
  · exact exists_silences ["b", "c"] ["y.html"] (by decide) (by decide)
      (by decide +kernel)

end Reach

end UtilityCss
