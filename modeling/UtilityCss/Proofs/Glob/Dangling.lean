import UtilityCss.Content.Reach
import UtilityCss.Proofs.Glob.Start

/-!
# Malformed Texts Without Wildcards

When a text without wildcards is no glob, and what becomes of it with more behind it.

Without wildcards there are two ways for a text to be malformed. It can close a brace that
it has not opened, and nothing behind the brace helps. Or it can end in a backslash that
takes the meaning of nothing away. That one is mended by anything that follows: the backslash
then takes the meaning of the next character away, and if this is a slash, which means nothing
else than itself, the backslash leaves no trace.

So a text is a glob with everything below it exactly if it closes no brace, and a glob by
itself if in addition no backslash dangles at its end.

## Main definitions

* `Glob.dangles`: A backslash at the end takes the meaning of nothing away.
* `Glob.closesBrace`: A brace is closed.

## Theorems

* `read?_eq_ite`, `read?_slash_eq_ite`: What is read of a text without wildcards, alone and
  before a slash.
* `isSome_parse?_iff`: When a text without wildcards is a glob.
* `isSome_parse?_below_iff`: When it is one with everything below it.
-/

namespace UtilityCss

namespace Glob

/-- A backslash ends the text and takes the meaning of nothing away. -/
def dangles : List Char → Bool
  | [] => false
  | ['\\'] => true
  | '\\' :: _ :: cs => dangles cs
  | _ :: cs => dangles cs

/-- The text closes a brace. -/
def closesBrace : List Char → Bool
  | [] => false
  | ['\\'] => false
  | '\\' :: _ :: cs => closesBrace cs
  | c :: cs => c = '}' || closesBrace cs

theorem dangles_cons {c : Char} (hc : c ≠ '\\') (cs : List Char) :
    dangles (c :: cs) = dangles cs := by
  rw [dangles]
  · exact fun h _ => hc h
  · exact fun _ _ h _ => hc h

theorem closesBrace_cons {c : Char} (hc : c ≠ '\\') (cs : List Char) :
    closesBrace (c :: cs) = (c = '}' || closesBrace cs) := by
  rw [closesBrace]
  · exact fun h _ => hc h
  · exact fun _ _ h _ => hc h

section

variable {cs : List Char}
  (hcs : (cs.any fun c => c = '*' || c = '?' || c = '[' || c = '{') = false)
include hcs

/-- What is read of a text without wildcards. -/
theorem read?_eq_ite {before : Option Char} {d : GlobDraft} (haround : d.around = []) :
    read? none before d cs
      = if closesBrace cs || dangles cs then none else some (d.pushAll (literal cs)) := by
  fun_induction literal cs generalizing before d with
  | case1 => rfl
  | case2 => rfl
  | case3 e cs ih =>
      rw [List.any_cons, Bool.or_eq_false_iff, List.any_cons] at hcs
      rw [GlobDraft.pushAll_cons]
      exact ih (Bool.or_eq_false_iff.1 hcs.2).2 haround
  | case4 c cs hlone hpair ih =>
      rw [List.any_cons, Bool.or_eq_false_iff] at hcs
      have hc := ne_backslash hlone hpair
      have hpush : (d.push (.char c)).around = [] := haround
      rw [closesBrace_cons hc, dangles_cons hc, GlobDraft.pushAll_cons]
      -- No brace is open, so a closing brace ends the reading.
      by_cases hclose : c = '}'
      · rw [hclose, read?_closes haround, decide_eq_true rfl, Bool.true_or, Bool.true_or,
          if_pos rfl]
      · rw [read?_char hcs.1 hc hclose haround, ih hcs.2 hpush, decide_eq_false hclose,
          Bool.false_or]

/-- What is read of a text without wildcards before a slash. A backslash at its end takes
    the meaning of the slash away, which then stands for itself as it does anyway. -/
theorem read?_slash_eq_ite {before : Option Char} {d : GlobDraft} (haround : d.around = [])
    (more : List Char) :
    read? none before d (cs ++ '/' :: more)
      = if closesBrace cs then none
        else read? none (some '/') ((d.pushAll (literal cs)).push (.char '/')) more := by
  fun_induction literal cs generalizing before d with
  -- Only the second case differs from the end of a text: a lone backslash has the slash to
  -- stand for.
  | case1 => exact read?_char (by decide) (by decide) (by decide) haround more
  | case2 => rfl
  | case3 e cs ih =>
      rw [List.any_cons, Bool.or_eq_false_iff, List.any_cons] at hcs
      rw [GlobDraft.pushAll_cons]
      exact ih (Bool.or_eq_false_iff.1 hcs.2).2 haround
  | case4 c cs hlone hpair ih =>
      rw [List.any_cons, Bool.or_eq_false_iff] at hcs
      have hc := ne_backslash hlone hpair
      have hpush : (d.push (.char c)).around = [] := haround
      rw [closesBrace_cons hc, GlobDraft.pushAll_cons, List.cons_append]
      by_cases hclose : c = '}'
      · rw [hclose, read?_closes haround, decide_eq_true rfl, Bool.true_or, if_pos rfl]
      · rw [read?_char hcs.1 hc hclose haround, ih hcs.2 hpush, decide_eq_false hclose,
          Bool.false_or]

end

section

variable {text : String} (hwild : Reach.hasWildcard text = false)
include hwild

/-- A text without wildcards is a glob exactly if it closes no brace and no backslash dangles
    at its end. -/
theorem isSome_parse?_iff : (parse? text).isSome = true ↔
    closesBrace text.toList = false ∧ dangles text.toList = false := by
  rw [parse?, read?_eq_ite hwild rfl]
  rcases closesBrace text.toList with _ | _
  · rcases dangles text.toList with _ | _
    · exact iff_of_true rfl ⟨rfl, rfl⟩
    · exact iff_of_false Bool.false_ne_true fun h => Bool.false_ne_true h.2.symm
  · exact iff_of_false Bool.false_ne_true fun h => Bool.false_ne_true h.1.symm

/-- With everything below it, it is one exactly if it closes no brace. -/
theorem isSome_parse?_below_iff :
    (parse? (text ++ "/**/*")).isSome = true ↔ closesBrace text.toList = false := by
  have hbelow : ∀ d : GlobDraft, read? none (some '/') (d.push (.char '/')) "**/*".toList
      = some (((d.push (.char '/')).stars .between).push .run) := fun _ => rfl
  have htext : (text ++ "/**/*").toList = text.toList ++ '/' :: "**/*".toList := by
    rw [String.toList_append]
    rfl
  rw [parse?, htext, read?_slash_eq_ite hwild rfl, hbelow]
  rcases closesBrace text.toList with _ | _
  · exact iff_of_true rfl rfl
  · exact iff_of_false Bool.false_ne_true fun h => Bool.false_ne_true h.symm

end

end Glob

end UtilityCss
