import UtilityCss.Proofs.Yaml.Quoted
import UtilityCss.Yaml.Token

/-!
# Reading Token by Token

What single steps of reading a document do, and how they make up a run.

A run is bounded by a number of steps, so what a run does with a part of a document is told by
the steps that it takes for it: the rest of the run starts where they have led.

A step passes over what separates tokens, gives up the place of a key that is out of reach, closes
the collections that are deeper, and then reads a token. Each of these four is said for the cases
in which little happens, and the steps below are put together from them.

The colon behind a key is the one token that changes what has been read before. The key has been
pushed by then, and what makes it a key is put in front of it.

## Main definitions

* `Yaml.Lexer.Reads`: A number of steps leads from one state to another one.

## Theorems

* `Yaml.Lexer.Reads.run?`: A run goes on where some of its steps have led.
* `Yaml.Lexer.step?_eq`: A step by its four parts.
* `Yaml.Lexer.step?_colon`, `Yaml.Lexer.step?_colon_open`: A colon makes a key.
* `Yaml.Lexer.token?_quoted`: A scalar in quotes is read as it was written.
-/

namespace UtilityCss

namespace Yaml

namespace Lexer

/-! ### Steps -/

/-- So many steps lead from one state to another one. -/
inductive Reads : Nat → Lexer → Lexer → Prop where
  /-- No step. -/
  | refl (a : Lexer) : Reads 0 a a
  /-- A step and more. -/
  | step {n : Nat} {a b c : Lexer} (h : a.step? = some (true, b)) (hrest : Reads n b c) :
    Reads (n + 1) a c

theorem Reads.single {a b : Lexer} (h : a.step? = some (true, b)) : Reads 1 a b :=
  .step h (.refl b)

theorem Reads.trans {m n : Nat} {a b c : Lexer} (hab : Reads m a b) (hbc : Reads n b c) :
    Reads (m + n) a c := by
  induction hab with
  | refl => rwa [Nat.zero_add]
  | step h _ ih =>
      rw [Nat.add_right_comm]
      exact .step h (ih hbc)

/-- A run goes on where some of its steps have led. -/
theorem Reads.run? {n : Nat} {a b : Lexer} (h : Reads n a b) (fuel : Nat) :
    a.run? (n + fuel) = b.run? fuel := by
  induction h with
  | refl => rw [Nat.zero_add]
  | step h _ ih =>
      rw [Nat.add_right_comm, Lexer.run?, h]
      exact ih

theorem step?_eq {lx lx₁ lx₂ lx₃ : Lexer} (hskip : lx.skip = lx₁)
    (hexpire : lx₁.expireAll? = some lx₂) (hclose : lx₂.closeBlocks lx₂.cur.column = lx₃) :
    lx.step? = lx₃.token? := by
  rw [step?, hskip, hexpire]
  exact congrArg token? hclose

/-! ### Parts of a step -/

/-- The place of a key on the same line is kept. -/
theorem expireAll?_of_near {lx : Lexer} {p : KeyPlace} (hplace : lx.place = some p)
    (haround : lx.around = []) (hline : lx.cur.line ≤ p.line)
    (hindex : lx.cur.index ≤ p.index + 1024) : lx.expireAll? = some lx := by
  have hnear : ¬(p.line < lx.cur.line ∨ p.index + 1024 < lx.cur.index) := by omega
  rcases lx with ⟨cur, tokens, indent, outer, place, around, keyAllowed⟩
  cases hplace
  cases haround
  rw [expireAll?, expire?]
  simp only [Bool.or_eq_true, decide_eq_true_eq, if_neg hnear]
  rfl

/-- On the next line it is given up. -/
theorem expireAll?_of_lt {lx : Lexer} {p : KeyPlace} (hplace : lx.place = some p)
    (haround : lx.around = []) (hline : p.line < lx.cur.line) (hfree : p.required = false) :
    lx.expireAll? = some { lx with place := none } := by
  rcases lx with ⟨cur, tokens, indent, outer, place, around, keyAllowed⟩
  cases hplace
  cases haround
  rw [expireAll?, expire?]
  simp only [hline, hfree, decide_true, Bool.true_or, if_true, Bool.false_eq_true, if_false]
  rfl

theorem closeBlocks_of_le {lx : Lexer} {column : Int} (h : lx.indent ≤ column) :
    lx.closeBlocks column = lx := by
  have hkeep : closeFrom column lx.indent lx.outer 0 = (lx.indent, lx.outer, 0) := by
    cases lx.outer with
    | nil => rfl
    | cons up outer => rw [closeFrom, if_neg (Int.not_lt.2 h)]
  rw [closeBlocks, hkeep]
  simp only [Array.replicate_zero, Array.append_empty, ite_self]

/-! ### Keys -/

theorem insertIdx_length_append (ts us : List Token) (t : Token) :
    (ts ++ us).insertIdx ts.length t = ts ++ t :: us := by
  induction ts with
  | nil => rfl
  | cons first ts ih =>
      rw [List.cons_append, List.length_cons, List.insertIdx_succ_cons, ih, List.cons_append]

/-- A token that goes before the last one. -/
theorem insertIdxIfInBounds_push (T : Array Token) (last t : Token) :
    (T.push last).insertIdxIfInBounds T.size t = (T.push t).push last := by
  rcases T with ⟨ts⟩
  rw [List.push_toArray, List.insertIdxIfInBounds_toArray, List.size_toArray,
    insertIdx_length_append, List.push_toArray, List.push_toArray, List.append_assoc]
  rfl

/-- A token that goes before the last two. -/
theorem insertIdxIfInBounds_push_push (T : Array Token) (former last t : Token) :
    ((T.push former).push last).insertIdxIfInBounds T.size t
      = ((T.push t).push former).push last := by
  rcases T with ⟨ts⟩
  simp only [List.push_toArray, List.insertIdxIfInBounds_toArray, List.size_toArray,
    List.append_assoc, List.singleton_append, insertIdx_length_append]
  rfl

section

variable {T : Array Token} {t : Token} {more : List Char} {i l c n : Nat} {indent : Int}
  {outer : List Int} {required : Bool} (hmore : startsBlank more = true) (hn : n ≤ 1024)
include hmore hn

/-- A colon on the line of the key that it makes. -/
theorem step?_value (hindent : indent ≤ c) :
    step? ⟨⟨':' :: more, i + n, l, c + n⟩, T.push t, indent, outer,
        some ⟨required, T.size, i, l, c⟩, [], false⟩
      = (value? ⟨⟨':' :: more, i + n, l, c + n⟩, T.push t, indent, outer,
          some ⟨required, T.size, i, l, c⟩, [], false⟩).map (true, ·) := by
  have hskip : skip ⟨⟨':' :: more, i + n, l, c + n⟩, T.push t, indent, outer,
        some ⟨required, T.size, i, l, c⟩, [], false⟩
      = ⟨⟨':' :: more, i + n, l, c + n⟩, T.push t, indent, outer,
        some ⟨required, T.size, i, l, c⟩, [], false⟩ := rfl
  have hcolumn : indent ≤ ((c + n : Nat) : Int) := by omega
  rw [step?_eq hskip (expireAll?_of_near rfl rfl (Nat.le_refl _) (Nat.add_le_add_left hn i))
    (closeBlocks_of_le hcolumn), token?]
  have hmarker : (Cursor.mk (':' :: more) (i + n) l (c + n)).atMarker = false :=
    Bool.and_false _
  have hdirective : (decide (c + n = 0) && decide (':' = '%')) = false := Bool.and_false _
  dsimp only
  rw [hdirective, hmarker, hmore]
  rfl

/-- A colon behind a key of the mapping that is open. -/
theorem step?_colon (hindent : indent = c) :
    step? ⟨⟨':' :: more, i + n, l, c + n⟩, T.push t, indent, outer,
        some ⟨required, T.size, i, l, c⟩, [], false⟩
      = some (true, ⟨⟨more, i + n + 1, l, c + n + 1⟩, ((T.push .key).push t).push .value, indent,
        outer, none, [], false⟩) := by
  rw [step?_value hmore hn (Int.le_of_eq hindent), value?]
  dsimp only
  rw [insertIdxIfInBounds_push, openBlock, hindent]
  simp only [Int.lt_irrefl, decide_false, Bool.and_false, Bool.false_eq_true, if_false]
  rfl

/-- A colon behind the first key of a mapping. -/
theorem step?_colon_open (hindent : indent < c) :
    step? ⟨⟨':' :: more, i + n, l, c + n⟩, T.push t, indent, outer,
        some ⟨required, T.size, i, l, c⟩, [], false⟩
      = some (true, ⟨⟨more, i + n + 1, l, c + n + 1⟩,
        (((T.push .blockMapping).push .key).push t).push .value, c, indent :: outer, none, [],
        false⟩) := by
  rw [step?_value hmore hn (Int.le_of_lt hindent), value?]
  dsimp only
  rw [insertIdxIfInBounds_push, openBlock]
  simp only [hindent, decide_true, inFlow, List.isEmpty_nil, Bool.not_true, Bool.not_false,
    Bool.and_self, if_true, insertIdxIfInBounds_push_push]
  rfl

end

/-! ### Scalars in quotes -/

section

variable {T : Array Token} {cs more : List Char} {i l c : Nat} {indent : Int} {outer : List Int}

/-- A scalar in quotes is read as it was written, and it may be a key. -/
theorem token?_quoted (h : ∀ c ∈ cs, isLiteral c = true) :
    token? ⟨⟨'"' :: (cs ++ '"' :: more), i, l, c⟩, T, indent, outer, none, [], true⟩
      = some (true, ⟨⟨more, i + cs.length + 2, l, c + cs.length + 2⟩, T.push (.scalar cs false),
        indent, outer, some ⟨decide (indent = c), T.size, i, l, c⟩, [], false⟩) := by
  have hmarker : (Cursor.mk ('"' :: (cs ++ '"' :: more)) i l c).atMarker = false :=
    Bool.and_false _
  have hdirective : (decide (c = 0) && decide ('"' = '%')) = false := Bool.and_false _
  have hdrop : ('"' :: (cs ++ '"' :: more)).drop (cs.length + 2) = more := by
    rw [List.drop_succ_cons, List.drop_length_add_append, List.drop_one, List.tail_cons]
  have hread : readQuoted? '"' ⟨'"' :: (cs ++ '"' :: more), i, l, c⟩
      = some ⟨cs, ⟨more, i + cs.length + 2, l, c + cs.length + 2⟩, false⟩ := by
    rw [readQuoted?_append h rfl, Cursor.next, hdrop]
    rfl
  -- The place is saved before the scalar is read, because it may turn out to be a key.
  have hinline : inline? ⟨⟨'"' :: (cs ++ '"' :: more), i, l, c⟩, T, indent, outer, none, [], true⟩
        false (readQuoted? '"')
      = some ⟨⟨more, i + cs.length + 2, l, c + cs.length + 2⟩, T.push (.scalar cs false), indent,
        outer, some ⟨decide (indent = c), T.size, i, l, c⟩, [], false⟩ := by
    have hsave : savePlace? ⟨⟨'"' :: (cs ++ '"' :: more), i, l, c⟩, T, indent, outer, none, [],
          true⟩
        = some ⟨⟨'"' :: (cs ++ '"' :: more), i, l, c⟩, T, indent, outer,
          some ⟨decide (indent = c), T.size, i, l, c⟩, [], true⟩ := rfl
    rw [inline?, hsave]
    dsimp only
    rw [hread]
    rfl
  rw [token?]
  dsimp only
  rw [hdirective, hmarker]
  exact congrArg (Option.map (true, ·)) hinline

end

end Lexer

end Yaml

end UtilityCss
