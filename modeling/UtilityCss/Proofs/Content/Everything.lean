import UtilityCss.Proofs.Content.Coverage
import UtilityCss.Proofs.Glob.Below
import UtilityCss.Proofs.Glob.Dangling
import UtilityCss.Proofs.Text.Words

/-!
# Everything Below a Path

What the pattern stands for that a directory is given as content by.

A directory stands for what its path and two stars match, and the path is put there as it is.
What becomes of its characters is another matter. Without wildcards, backslashes and closing
braces all of them stand for themselves, and then the pattern matches every path that goes on
behind this one by some names. A closing brace makes it malformed, as none has been opened.

The walk for the pattern does not ask what the characters mean. It starts at the directory that
the path names, if its pieces are names, and goes down without a bound.

## Main definitions

* `Content.everything`: The pattern of everything below a path.

## Theorems

* `Content.isSome_everything_iff`: When it can be read.
* `Content.exists_accepts_everything`: It matches what is below the path.
* `Content.covers_everything_iff`: Where the walk for it gets.
-/

namespace UtilityCss

/-! ### What is matched -/

namespace Glob

theorem closesBrace_eq_true_iff {cs : List Char} (h : '\\' ∉ cs) :
    closesBrace cs = true ↔ '}' ∈ cs := by
  induction cs with
  | nil => exact iff_of_false Bool.false_ne_true List.not_mem_nil
  | cons c cs ih =>
      rw [List.mem_cons, not_or] at h
      rw [closesBrace_cons (Ne.symm h.1), Bool.or_eq_true, decide_eq_true_eq, ih h.2,
        List.mem_cons, eq_comm]

theorem parse?_everything : parse? "**/*" = some ⟨[.leading, .run]⟩ := rfl

/-- Everything below a path that is read as it is: the characters of the path, what lies
    between, and a last name. -/
theorem parse?_everything_below {path : String} (hwild : Reach.hasWildcard path = false)
    (hback : '\\' ∉ path.toList) (hclose : '}' ∉ path.toList) :
    parse? (path ++ "/**/*") = some ⟨chars path ++ [.between, .run]⟩ := by
  have htext : (path ++ "/**/*").toList = path.toList ++ '/' :: "**/*".toList := by
    rw [String.toList_append]
    rfl
  -- The two stars take up the slash before them.
  have hbelow : ∀ pieces, read? none (some '/') ⟨.char '/' :: pieces, []⟩ "**/*".toList
      = some ⟨.run :: .between :: pieces, []⟩ := fun _ => rfl
  have hpieces : (GlobDraft.empty.pushAll path.toList).pieces = (chars path).reverse :=
    List.append_nil _
  refine parse?_of_read? ?_
  rw [htext, read?_slash_eq_ite hwild rfl, literal_of_not_mem hback, if_neg]
  · rw [List.reverse_append, ← hpieces]
    exact hbelow _
  · rw [closesBrace_eq_true_iff hback]
    exact hclose

section

variable {last : String} (hlast : '/' ∉ last.toList)
include hlast

/-- The last name is taken up by a run. -/
theorem accepts_append_run (pieces : List GlobPiece) {text : String}
    (h : Text.encode last ∈ GlobPiece.restsOfList true [Text.encode text] pieces) :
    accepts true ⟨pieces ++ [.run]⟩ text = true := by
  rw [accepts, Bool.or_eq_true, List.contains_iff_mem, GlobPiece.restsOfList_append,
    GlobPiece.mem_restsOfList_iff]
  refine .inr ⟨_, h, GlobPiece.mem_restsOfList_cons.2 ⟨[], ?_, List.mem_cons_self⟩⟩
  rw [GlobPiece.rests, ← List.append_nil (Text.encode last)]
  exact GlobPiece.mem_afterRun (Text.slash_not_mem_encode hlast) _

theorem accepts_everything (names : List String) :
    accepts true ⟨[.leading, .run]⟩ ("/".intercalate (names ++ [last])) = true := by
  refine accepts_append_run hlast [.leading] ?_
  exact GlobPiece.mem_restsOfList_cons.2 ⟨_, GlobPiece.mem_parts last, List.mem_cons_self⟩

theorem accepts_everything_below (path : String) (names : List String) :
    accepts true ⟨chars path ++ [.between, .run]⟩
      (path ++ "/" ++ "/".intercalate (names ++ [last])) = true := by
  have hpieces : chars path ++ [.between, .run] = (chars path ++ [.between]) ++ [.run] := by
    rw [List.append_assoc]
    rfl
  rw [hpieces]
  refine accepts_append_run hlast _ ?_
  rw [GlobPiece.restsOfList_append, GlobPiece.mem_restsOfList_iff, Text.encode_append_slash]
  -- The path takes up itself, and the slash and the directories below it lie between.
  refine ⟨GlobPiece.slash :: Text.encode ("/".intercalate (names ++ [last])), ?_,
    GlobPiece.mem_restsOfList_cons.2 ⟨_, ?_, List.mem_cons_self⟩⟩
  · rw [chars, GlobPiece.mem_restsOfList_chars, Text.encode_eq path]
  · rw [GlobPiece.rests, GlobPiece.afterSlash, if_pos rfl]
    exact GlobPiece.mem_parts _

end

end Glob

namespace Content

/-- The pattern of everything below a path. -/
def everything (path : String) : String := if path = "" then "**/*" else path ++ "/**/*"

theorem isSome_everything_iff {path : String} (hwild : Reach.hasWildcard path = false) :
    (Glob.parse? (everything path)).isSome = true ↔ Glob.closesBrace path.toList = false := by
  rw [everything]
  by_cases hempty : path = ""
  · rw [if_pos hempty, hempty]
    exact iff_of_true rfl rfl
  · rw [if_neg hempty, Glob.isSome_parse?_below_iff hwild]

/-- The pattern matches whatever is below the names, if they stand for themselves. -/
theorem exists_accepts_everything {names : List String} (hnames : Path.AreNames names)
    (hwild : Reach.hasWildcard ("/".intercalate names) = false)
    (hliteral : ∀ name ∈ names, '\\' ∉ name.toList ∧ '}' ∉ name.toList) :
    ∃ g, Glob.parse? (everything ("/".intercalate names)) = some g ∧
      ∀ more {last}, '/' ∉ last.toList →
        g.accepts true ("/".intercalate (names ++ (more ++ [last]))) = true := by
  have hnot : ∀ {c}, c ≠ '/' → (∀ name ∈ names, c ∉ name.toList) →
      c ∉ ("/".intercalate names).toList := by
    intro c hc hnone hmem
    rcases (Path.mem_intercalate_iff hc).1 hmem with ⟨name, hname, hmem⟩
    exact hnone name hname hmem
  by_cases hnil : names = []
  · subst hnil
    exact ⟨_, Glob.parse?_everything, fun more last hlast => Glob.accepts_everything hlast more⟩
  -- Without a backslash, a closing brace or a wildcard, the names are read letter by
  -- letter.
  · have hback := hnot (by decide) fun name hname => (hliteral name hname).1
    have hclose := hnot (by decide) fun name hname => (hliteral name hname).2
    rw [everything, if_neg (Path.intercalate_ne_empty hnames hnil)]
    refine ⟨_, Glob.parse?_everything_below hwild hback hclose, fun more last hlast => ?_⟩
    rw [String.intercalate_append_of_ne_nil hnil
      (List.append_ne_nil_of_right_ne_nil _ (List.cons_ne_nil _ _))]
    exact Glob.accepts_everything_below hlast _ more

end Content

/-! ### Where the walk gets -/

namespace Reach

theorem parts_eq {path : String} (h : hasWildcard path = false) :
    parts path = if path = "" then [] else Path.pieces path :=
  if_neg (ne_true_of_eq_false h)

theorem hasWildcard_of_mem_pieces {path piece : String} (h : hasWildcard path = false)
    (hpiece : piece ∈ Path.pieces path) : hasWildcard piece = false := by
  rw [hasWildcard, List.any_eq_false] at h ⊢
  intro c hc hwild
  have hslash : c ≠ '/' := by
    rintro rfl
    exact absurd hwild (by decide)
  exact h c ((Text.mem_iff_of_split hslash).2 ⟨piece, hpiece, hc⟩) hwild

theorem literalParts_append {parts : List String} (h : ∀ part ∈ parts, hasWildcard part = false)
    {star : String} (hstar : hasWildcard star = true) (rest : List String) :
    literalParts (parts ++ star :: rest) = parts := by
  induction parts with
  | nil =>
      cases rest with
      | nil => rfl
      | cons next rest =>
          rw [List.nil_append, literalParts, if_pos hstar]
          exact fun h => List.cons_ne_nil _ _ h
  | cons part parts ih =>
      rcases List.forall_mem_cons.1 h with ⟨hpart, hparts⟩
      rw [List.cons_append, literalParts, if_neg (ne_true_of_eq_false hpart), ih hparts]
      exact List.append_ne_nil_of_right_ne_nil _ (List.cons_ne_nil _ _)

end Reach

namespace Content

theorem levels_everything (path : String) : Reach.levels (everything path) = none := by
  have hstars : Reach.hasTwoStars (everything path) = true := by
    rw [everything]
    split
    · rfl
    · have htext : (path ++ "/**/*").toList
          = (path ++ "/").toList ++ (['*', '*'] ++ ['/', '*']) := by
        rw [String.toList_append, String.toList_append, List.append_assoc]
        rfl
      rw [Reach.hasTwoStars, htext]
      exact Text.hasWord_append _ _
  rw [Reach.levels, hstars, Bool.true_or, if_pos rfl]

/-- The walk for everything below a path starts where the path leads. -/
theorem parts_everything {path : String} (hwild : Reach.hasWildcard path = false) :
    Reach.parts (everything path) = Reach.parts path := by
  rw [Reach.parts_eq hwild]
  by_cases hempty : path = ""
  · rw [everything, if_pos hempty, if_pos hempty]
    rfl
  -- The pieces of the path come first, and the stars end the literal parts.
  · have htext : path ++ "/**/*" = path ++ "/" ++ ("**" ++ "/" ++ "*") := by
      rw [String.append_assoc]
      rfl
    have hpieces : Path.pieces (path ++ "/**/*") = Path.pieces path ++ ["**", "*"] := by
      rw [htext, Path.pieces_append]
      rfl
    have hstar : Reach.hasWildcard (path ++ "/**/*") = true := by
      rw [Reach.hasWildcard_append, Bool.or_eq_true]
      exact .inr rfl
    rw [everything, if_neg hempty, if_neg hempty, Reach.parts, if_pos hstar, hpieces]
    refine Reach.literalParts_append (fun part hpart => ?_) rfl _
    exact Reach.hasWildcard_of_mem_pieces hwild hpart

section

variable {names : List String} (hnames : Path.AreNames names)
  (hwild : Reach.hasWildcard ("/".intercalate names) = false)
include hnames hwild

theorem parts_intercalate : Reach.parts ("/".intercalate names) = names := by
  rw [Reach.parts_eq hwild]
  by_cases hnil : names = []
  · rw [hnil]
    rfl
  · rw [if_neg (Path.intercalate_ne_empty hnames hnil), Path.pieces_intercalate hnames hnil]

/-- The walk gets to everything behind the names. -/
theorem covers_everything_iff {names' : List String} :
    Reach.Covers (everything ("/".intercalate names)) names' ↔ ∃ more, names' = names ++ more := by
  have hparts := (parts_everything hwild).trans (parts_intercalate hnames hwild)
  rw [Reach.covers_iff (hparts.symm ▸ hnames), hparts, levels_everything]
  simp only [Option.not_mem_none, false_implies, implies_true, and_true]

end

end Content

end UtilityCss
