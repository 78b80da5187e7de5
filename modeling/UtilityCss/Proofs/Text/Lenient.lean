import Mathlib.Data.List.Induction
import Mathlib.Data.Nat.Find
import UtilityCss.Proofs.Text.Decoding

/-!
# Reading Leniently

What lenient reading makes of bytes, said without the pass that reads them.

Bytes that are no text are cut in the standard way. Where the bytes of a character stand, that
character is read. Elsewhere a malformed piece is skipped: as many bytes as some character begins
with, or one byte if no character begins with it. This determines the reading (`isCutInto_iff`),
because the sequence that the pass has open is at each time the beginning of a character, and
the bytes that it waits for are those that can follow in one.

An ASCII byte is part of one character only, and that character has no other byte. So a malformed
piece neither holds it nor would hold more if it were not there, and bytes are read on either side
of it as if there were no others.

## Main definitions

* `IsMalformed`: A malformed piece.
* `IsCutInto`: The bytes are cut into characters and malformed pieces.
* `Unfinished.IsLeftBy`: A piece leaves a sequence open.
* `IsReadAs`: The bytes are read as a text in the standard way.

## Theorems

* `isCutInto_iff`: Lenient reading cuts bytes in the standard way.
* `pieces_append_ascii`: An ASCII byte cuts bytes in two.
* `isReadAs_iff`: So the text that it gives is the standard one.
-/

namespace UtilityCss

namespace Text

/-- A character begins with the bytes. -/
def BeginsCharacter (bytes : List UInt8) : Prop :=
  ∃ c, bytes <+: String.utf8EncodeChar c

/-- The bytes before `rest` are a malformed piece. -/
structure IsMalformed (piece rest : List UInt8) : Prop where
  /-- No character stands there. -/
  unreadable : ∀ c, ¬String.utf8EncodeChar c <+: piece ++ rest
  /-- The piece is one byte, or a character begins with it. -/
  begun : piece.length = 1 ∨ piece ≠ [] ∧ BeginsCharacter piece
  /-- No character begins with more bytes. -/
  longest : ∀ longer, longer <+: piece ++ rest → BeginsCharacter longer →
    longer.length ≤ piece.length

/-- The bytes are cut into characters and malformed pieces, the latter told as `none`. -/
inductive IsCutInto : List UInt8 → List (Option Char) → Prop
  | nil : IsCutInto [] []
  | char {c : Char} {rest : List UInt8} {ps : List (Option Char)} :
      IsCutInto rest ps → IsCutInto (String.utf8EncodeChar c ++ rest) (some c :: ps)
  | malformed {piece rest : List UInt8} {ps : List (Option Char)} :
      IsMalformed piece rest → IsCutInto rest ps → IsCutInto (piece ++ rest) (none :: ps)

/-! ### Characters from bytes -/

theorem utf8EncodeChar_ofNat {v : Nat} (h : v.isValidChar) :
    String.utf8EncodeChar (Char.ofNat v) =
      if v ≤ 0x7F then [UInt8.ofNat v]
      else if v ≤ 0x7FF then [UInt8.ofNat (v / 64 % 32 + 192), UInt8.ofNat (v % 64 + 128)]
      else if v ≤ 0xFFFF then
        [UInt8.ofNat (v / 4096 % 16 + 224), UInt8.ofNat (v / 64 % 64 + 128),
          UInt8.ofNat (v % 64 + 128)]
      else
        [UInt8.ofNat (v / 262144 % 8 + 240), UInt8.ofNat (v / 4096 % 64 + 128),
          UInt8.ofNat (v / 64 % 64 + 128), UInt8.ofNat (v % 64 + 128)] := by
  have hval : (Char.ofNat v).val.toNat = v := by
    rw [Char.ofNat, dif_pos h]
    rfl
  rw [String.utf8EncodeChar, hval]

/-! ### Open sequences -/

namespace Unfinished

/-- The bytes complete the sequence: the first one is within its bounds, and the others, as many
    as are missing after it, are within those of all later bytes. -/
def IsCompletedBy (u : Unfinished) : List UInt8 → Prop
  | [] => False
  | b :: bytes => (u.low.toNat ≤ b.toNat ∧ b.toNat ≤ u.high.toNat) ∧ bytes.length = u.after ∧
      ∀ b ∈ bytes, 0x80 ≤ b.toNat ∧ b.toNat ≤ 0xBF

/-- The piece leaves the sequence open. -/
structure IsLeftBy (u : Unfinished) (piece : List UInt8) : Prop where
  /-- What follows the piece is read in the sequence. -/
  reads : ∀ bytes, piecesFrom none (piece ++ bytes) = piecesFrom (some u) bytes
  /-- A character has the bytes of the piece and those that complete the sequence. -/
  completes : ∀ bytes, u.IsCompletedBy bytes → ∃ c, String.utf8EncodeChar c = piece ++ bytes

section

variable {a low high : UInt8} {bits : Nat} (hlow : 0x80 ≤ low.toNat) (hhigh : high.toNat ≤ 0xBF)
  {bytes : List UInt8}
include hlow hhigh

theorem exists_encoded_two (ha : 0xC2 ≤ a.toNat ∧ a.toNat ≤ 0xDF)
    (h : IsCompletedBy ⟨0, low, high, bits⟩ bytes) :
    ∃ ch, String.utf8EncodeChar ch = [a] ++ bytes := by
  rcases bytes with _ | ⟨b, bytes⟩
  · exact h.elim
  · rcases h with ⟨hb, hlength, -⟩
    rcases List.length_eq_zero_iff.1 hlength with rfl
    dsimp only at hb
    generalize hv : (a.toNat - 0xC0) * 64 + (b.toNat - 0x80) = v
    refine ⟨Char.ofNat v, ?_⟩
    rw [utf8EncodeChar_ofNat (.inl (by omega)), if_neg (by omega), if_pos (by omega),
      show v / 64 % 32 + 192 = a.toNat by omega, show v % 64 + 128 = b.toNat by omega,
      UInt8.ofNat_toNat, UInt8.ofNat_toNat, List.singleton_append]

theorem exists_encoded_three (ha : 0xE0 ≤ a.toNat ∧ a.toNat ≤ 0xEF)
    (hlong : a.toNat = 0xE0 → 0xA0 ≤ low.toNat) (hsurrogate : a.toNat = 0xED → high.toNat ≤ 0x9F)
    (h : IsCompletedBy ⟨1, low, high, bits⟩ bytes) :
    ∃ ch, String.utf8EncodeChar ch = [a] ++ bytes := by
  rcases bytes with _ | ⟨b, bytes⟩
  · exact h.elim
  · rcases h with ⟨hb, hlength, hlater⟩
    rcases List.length_eq_one_iff.1 hlength with ⟨c, rfl⟩
    have hc := hlater c List.mem_cons_self
    dsimp only at hb
    generalize hv : ((a.toNat - 0xE0) * 64 + (b.toNat - 0x80)) * 64 + (c.toNat - 0x80) = v
    -- No surrogate, because of the bound on the second byte.
    have hvalid : v.isValidChar := by
      unfold Nat.isValidChar
      omega
    refine ⟨Char.ofNat v, ?_⟩
    rw [utf8EncodeChar_ofNat hvalid, if_neg (by omega), if_neg (by omega), if_pos (by omega),
      show v / 4096 % 16 + 224 = a.toNat by omega, show v / 64 % 64 + 128 = b.toNat by omega,
      show v % 64 + 128 = c.toNat by omega, UInt8.ofNat_toNat, UInt8.ofNat_toNat,
      UInt8.ofNat_toNat, List.singleton_append]

theorem exists_encoded_four (ha : 0xF0 ≤ a.toNat ∧ a.toNat ≤ 0xF4)
    (hlong : a.toNat = 0xF0 → 0x90 ≤ low.toNat) (hgreatest : a.toNat = 0xF4 → high.toNat ≤ 0x8F)
    (h : IsCompletedBy ⟨2, low, high, bits⟩ bytes) :
    ∃ ch, String.utf8EncodeChar ch = [a] ++ bytes := by
  rcases bytes with _ | ⟨b, bytes⟩
  · exact h.elim
  · rcases h with ⟨hb, hlength, hlater⟩
    rcases List.length_eq_two.1 hlength with ⟨c, d, rfl⟩
    have hc := hlater c List.mem_cons_self
    have hd := hlater d (List.mem_cons_of_mem _ List.mem_cons_self)
    dsimp only at hb
    generalize hv : (((a.toNat - 0xF0) * 64 + (b.toNat - 0x80)) * 64 + (c.toNat - 0x80)) * 64
      + (d.toNat - 0x80) = v
    refine ⟨Char.ofNat v, ?_⟩
    rw [utf8EncodeChar_ofNat (.inr ⟨by omega, by omega⟩), if_neg (by omega), if_neg (by omega),
      if_neg (by omega), show v / 262144 % 8 + 240 = a.toNat by omega,
      show v / 4096 % 64 + 128 = b.toNat by omega, show v / 64 % 64 + 128 = c.toNat by omega,
      show v % 64 + 128 = d.toNat by omega, UInt8.ofNat_toNat, UInt8.ofNat_toNat,
      UInt8.ofNat_toNat, UInt8.ofNat_toNat, List.singleton_append]

end

/-- A byte that begins a sequence leaves it open. -/
theorem isLeftBy_singleton {a : UInt8} {u : Unfinished} (h : Start.ofByte a = .sequence u) :
    u.IsLeftBy [a] where
  reads bytes := by rw [List.singleton_append, piecesFrom, h]
  completes bytes hbytes := by
    have hstart := ofByte_ofNat a.toNat_lt
    rw [UInt8.ofNat_toNat, h] at hstart
    -- Four first bytes leave less room for the second one than the others do.
    split_ifs at hstart with hone htwo hleast hsurrogate hthree hleast' hfour hgreatest <;>
      cases hstart
    · exact exists_encoded_two (by decide) (by decide) htwo hbytes
    · exact exists_encoded_three (by decide) (by decide) (by omega) (fun _ => by decide)
        (by omega) hbytes
    · exact exists_encoded_three (by decide) (by decide) (by omega) (by omega)
        (fun _ => by decide) hbytes
    · exact exists_encoded_three (by decide) (by decide) (by omega) (by omega) (by omega) hbytes
    · exact exists_encoded_four (by decide) (by decide) (by omega) (fun _ => by decide)
        (by omega) hbytes
    · exact exists_encoded_four (by decide) (by decide) (by omega) (by omega) (by omega) hbytes
    · exact exists_encoded_four (by decide) (by decide) (by omega) (by omega)
        (fun _ => by decide) hbytes

namespace IsLeftBy

variable {u : Unfinished} {piece : List UInt8} {b : UInt8}

/-- A byte within the bounds goes on with the sequence. -/
theorem concat {after : Nat} {low high : UInt8} {bits : Nat}
    (h : IsLeftBy ⟨after + 1, low, high, bits⟩ piece) (hb : low ≤ b ∧ b ≤ high) :
    IsLeftBy ⟨after, 0x80, 0xBF, bits * 64 + (b.toNat - 0x80)⟩ (piece ++ [b]) where
  reads bytes := by rw [List.append_assoc, List.singleton_append, h.reads, piecesFrom, if_pos hb]
  completes bytes hbytes := by
    rcases bytes with _ | ⟨c, bytes⟩
    · exact hbytes.elim
    · rcases hbytes with ⟨hc, hlength, hlater⟩
      rw [List.append_assoc, List.singleton_append]
      refine h.completes _ ⟨⟨UInt8.le_iff_toNat_le.1 hb.1, UInt8.le_iff_toNat_le.1 hb.2⟩, ?_, ?_⟩
      · rw [List.length_cons, hlength]
      · exact List.forall_mem_cons.2 ⟨hc, hlater⟩

/-- A character begins with the piece and any byte within the bounds. -/
theorem beginsCharacter_concat (h : u.IsLeftBy piece) (hb : u.low ≤ b ∧ b ≤ u.high) :
    BeginsCharacter (piece ++ [b]) := by
  have hcompleted : u.IsCompletedBy (b :: List.replicate u.after 0x80) := by
    refine ⟨⟨UInt8.le_iff_toNat_le.1 hb.1, UInt8.le_iff_toNat_le.1 hb.2⟩, List.length_replicate,
      fun c hc => ?_⟩
    rw [List.eq_of_mem_replicate hc]
    decide
  rcases h.completes _ hcompleted with ⟨c, hc⟩
  refine ⟨c, List.replicate u.after 0x80, ?_⟩
  rw [hc, List.append_assoc, List.singleton_append]

end IsLeftBy

end Unfinished

/-! ### Beginnings -/

/-- Bytes are not read as nothing, and neither is an open sequence. -/
theorem piecesFrom_ne_nil {open? : Option Unfinished} {bytes : List UInt8}
    (h : open?.isSome = true ∨ bytes ≠ []) : piecesFrom open? bytes ≠ [] := by
  fun_induction piecesFrom open? bytes with
  | case1 => simp only [Option.isSome_none, Bool.false_eq_true, ne_eq, not_true, or_self] at h
  | case4 bytes b rest hstart ih => exact ih (.inl rfl)
  | case7 bytes u b hb bits after hafter ih => exact ih (.inl rfl)
  | _ => exact List.cons_ne_nil _ _

/-- A byte that cannot go on with the open sequence ends a malformed piece before itself. -/
theorem piecesFrom_outside {u : Unfinished} {b : UInt8} (hb : ¬(u.low ≤ b ∧ b ≤ u.high))
    (bytes : List UInt8) :
    piecesFrom (some u) (b :: bytes) = none :: piecesFrom none (b :: bytes) := by
  conv_lhs => rw [piecesFrom, if_neg hb]
  rw [piecesFrom]
  cases Start.ofByte b <;> rfl

/-- Part of the bytes of a character leaves a sequence open. -/
theorem exists_isLeftBy {c : Char} {piece rest : List UInt8} (hpiece : piece ≠ [])
    (hrest : rest ≠ []) (h : piece ++ rest = String.utf8EncodeChar c) :
    ∃ u : Unfinished, u.IsLeftBy piece := by
  have hread : piecesFrom none (piece ++ rest) = [some c] := by
    rw [h, ← List.append_nil (String.utf8EncodeChar c), piecesFrom_utf8EncodeChar, piecesFrom]
  have hnonempty : ∀ {rest : List UInt8}, rest ≠ [] → piecesFrom none rest ≠ [] :=
    fun hrest => piecesFrom_ne_nil (.inr hrest)
  clear h
  -- By induction on the bytes from the left: each of them leaves a sequence open, since
  -- otherwise the piece would be all of the character or would be malformed.
  induction piece using List.reverseRecOn generalizing rest with
  | nil => exact absurd rfl hpiece
  | append_singleton piece b ih =>
      rw [List.append_assoc, List.singleton_append] at hread
      rcases eq_or_ne piece [] with rfl | hne
      · rw [List.nil_append, piecesFrom] at hread
        rcases hstart : Start.ofByte b with ch | u | _
        · rw [hstart] at hread
          exact absurd (List.cons.inj hread).2 (hnonempty hrest)
        · exact ⟨u, Unfinished.isLeftBy_singleton hstart⟩
        · rw [hstart] at hread
          exact absurd (List.cons.inj hread).1 (Option.some_ne_none c).symm
      · -- The sequence that was open before the byte is not the one that is open after it.
        rcases ih hne (List.cons_ne_nil b rest) hread with ⟨⟨after, low, high, bits⟩, hleft⟩
        rw [hleft.reads] at hread
        by_cases hb : low ≤ b ∧ b ≤ high
        · cases after with
          | zero =>
              rw [piecesFrom, if_pos hb] at hread
              exact absurd (List.cons.inj hread).2 (hnonempty hrest)
          | succ after => exact ⟨_, hleft.concat hb⟩
        · rw [piecesFrom_outside hb] at hread
          exact absurd (List.cons.inj hread).1 (Option.some_ne_none c).symm

/-- The bytes of an ASCII character. -/
theorem utf8EncodeChar_ascii {b : UInt8} (hb : b < 0x80) :
    String.utf8EncodeChar (Char.ofNat b.toNat) = [b] := by
  have hlt : b.toNat < 0x80 := UInt8.lt_iff_toNat_lt.1 hb
  rw [utf8EncodeChar_ofNat (.inl (by omega)), if_pos (by omega), UInt8.ofNat_toNat]

/-- A character begins with any byte that can start one. -/
theorem beginsCharacter_singleton {b : UInt8} (h : Start.ofByte b ≠ .malformed) :
    BeginsCharacter [b] := by
  by_cases hb : b < 0x80
  · exact ⟨Char.ofNat b.toNat, [], utf8EncodeChar_ascii hb ▸ List.append_nil [b]⟩
  · rcases hstart : Start.ofByte b with ch | u | _
    · rw [Start.ofByte, if_neg hb] at hstart
      split_ifs at hstart
    · have hbounds : u.low ≤ u.low ∧ u.low ≤ u.high := by
        have hstart := hstart
        rw [Start.ofByte, if_neg hb] at hstart
        split_ifs at hstart <;> cases hstart <;> dsimp only <;> decide
      rcases (Unfinished.isLeftBy_singleton hstart).beginsCharacter_concat hbounds with ⟨c, hc⟩
      exact ⟨c, (List.prefix_append [b] [u.low]).trans hc⟩
    · exact absurd hstart h

/-! ### Cutting -/

/-- A malformed piece is read as one. -/
theorem pieces_malformed {piece rest : List UInt8} (h : IsMalformed piece rest) :
    pieces (piece ++ rest) = none :: pieces rest := by
  by_cases hbegins : piece ≠ [] ∧ BeginsCharacter piece
  · rcases hbegins with ⟨hpiece, c, missing, hc⟩
    have hmissing : missing ≠ [] := by
      rintro rfl
      rw [List.append_nil] at hc
      exact h.unreadable c ⟨rest, by rw [hc]⟩
    rcases exists_isLeftBy hpiece hmissing hc with ⟨u, hleft⟩
    rw [pieces, hleft.reads]
    rcases rest with _ | ⟨b, rest⟩
    · rfl
    · -- A byte that goes on with the sequence would make the piece longer.
      refine piecesFrom_outside (fun hb => ?_) rest
      have hlonger := h.longest (piece ++ [b]) ⟨rest, by rw [List.append_assoc]; rfl⟩
        (hleft.beginsCharacter_concat hb)
      rw [List.length_append] at hlonger
      exact absurd hlonger (Nat.not_succ_le_self _)
  -- A byte that begins no character is malformed alone.
  · rcases List.length_eq_one_iff.1 (h.begun.resolve_right hbegins) with ⟨b, rfl⟩
    have hstart : Start.ofByte b = .malformed := by
      by_contra hstart
      exact hbegins ⟨List.cons_ne_nil b [], beginsCharacter_singleton hstart⟩
    rw [List.singleton_append, pieces, piecesFrom, hstart]
    rfl

/-- Where no character stands, there is a malformed piece. -/
theorem exists_isMalformed {bytes : List UInt8} (hbytes : bytes ≠ [])
    (h : ∀ c, ¬String.utf8EncodeChar c <+: bytes) :
    ∃ piece rest, bytes = piece ++ rest ∧ IsMalformed piece rest := by
  classical
  -- The piece is the longest beginning of a character, or one byte if there is none.
  generalize hmost : Nat.findGreatest (fun n => BeginsCharacter (bytes.take n)) bytes.length = most
  have hle : most ≤ bytes.length := hmost ▸ Nat.findGreatest_le _
  have hpos : 0 < bytes.length := List.length_pos_iff.2 hbytes
  have hlength : (bytes.take (max most 1)).length = max most 1 := by
    rw [List.length_take]
    omega
  have hsplit := List.take_append_drop (max most 1) bytes
  refine ⟨bytes.take (max most 1), bytes.drop (max most 1), hsplit.symm, ?_, ?_, ?_⟩
  · rw [hsplit]
    exact h
  · rcases Nat.eq_zero_or_pos most with hzero | hmore
    · refine .inl ?_
      rw [hlength, hzero]
      rfl
    · have hbegins : BeginsCharacter (bytes.take most) :=
        Nat.findGreatest_of_ne_zero hmost (Nat.ne_of_gt hmore)
      rw [Nat.max_eq_left hmore] at hlength ⊢
      exact .inr ⟨List.length_pos_iff.1 (hlength.symm ▸ hmore), hbegins⟩
  · rw [hsplit, hlength]
    intro longer hlonger hbegins
    rw [List.prefix_iff_eq_take.1 hlonger] at hbegins
    have hgreatest := Nat.le_findGreatest (P := fun n => BeginsCharacter (bytes.take n))
      hlonger.length_le hbegins
    omega

/-- All bytes can be cut. -/
theorem exists_isCutInto (bytes : List UInt8) : ∃ ps, IsCutInto bytes ps := by
  induction hn : bytes.length using Nat.strong_induction_on generalizing bytes with
  | _ n ih =>
      rcases eq_or_ne bytes [] with rfl | hbytes
      · exact ⟨[], .nil⟩
      -- A character or a malformed piece is cut off, and either takes up a byte at least.
      · by_cases hchar : ∃ c, String.utf8EncodeChar c <+: bytes
        · rcases hchar with ⟨c, rest, rfl⟩
          have hpos : 0 < (String.utf8EncodeChar c).length :=
            List.length_pos_iff.2 String.utf8EncodeChar_ne_nil
          rw [List.length_append] at hn
          rcases ih rest.length (by omega) rest rfl with ⟨ps, hps⟩
          exact ⟨_, .char hps⟩
        · rcases exists_isMalformed hbytes (not_exists.1 hchar) with ⟨piece, rest, rfl, hpiece⟩
          have hpos : 0 < piece.length := by
            rcases hpiece.begun with hone | hmore
            · omega
            · exact List.length_pos_iff.2 hmore.1
          rw [List.length_append] at hn
          rcases ih rest.length (by omega) rest rfl with ⟨ps, hps⟩
          exact ⟨_, .malformed hpiece hps⟩

/-- Lenient reading cuts bytes in the standard way, which is the only one. -/
theorem isCutInto_iff {bytes : List UInt8} {ps : List (Option Char)} :
    IsCutInto bytes ps ↔ pieces bytes = ps := by
  have hread : ∀ {bytes ps}, IsCutInto bytes ps → pieces bytes = ps := by
    intro bytes ps h
    induction h with
    | nil => rfl
    | char _ ih =>
        rw [pieces, piecesFrom_utf8EncodeChar, ← ih]
        rfl
    | malformed hpiece _ ih => rw [pieces_malformed hpiece, ih]
  refine ⟨hread, ?_⟩
  rintro rfl
  rcases exists_isCutInto bytes with ⟨ps, hps⟩
  rw [hread hps]
  exact hps

-- A character that is cut short is one piece, and bytes that cannot start one are one each.
example : pieces [0xE2, 0x82, 0x41, 0xFF, 0x80] = [none, some 'A', none, none] := by decide

/-! ### ASCII bytes -/

/-- No character has bytes on either side of the beginning of an ASCII byte. -/
theorem prefix_of_prefix_ascii {c : Char} {b : UInt8} (hb : b < 0x80) {bytes more part : List UInt8}
    (hbytes : bytes ≠ []) (hpart : part <+: String.utf8EncodeChar c)
    (h : part <+: bytes ++ b :: more) : part <+: bytes := by
  rcases Nat.lt_or_ge bytes.length part.length with hlonger | hle
  · -- The byte would be one of several.
    have hthrough : bytes ++ [b] <+: part := by
      refine List.prefix_of_prefix_length_le ⟨more, ?_⟩ h ?_
      · rw [List.append_assoc, List.singleton_append]
      · rw [List.length_append]
        exact hlonger
    have hmem : b ∈ bytes ++ [b] := List.mem_append_right _ (List.mem_singleton_self b)
    have hwhole := (hthrough.trans hpart).length_le
    rw [utf8EncodeChar_eq_singleton hb ((hthrough.trans hpart).mem hmem), List.length_append]
      at hwhole
    have hpos := List.length_pos_iff.2 hbytes
    simp only [List.length_singleton] at hwhole
    omega
  · exact List.prefix_of_prefix_length_le h (List.prefix_append _ _) hle

theorem IsMalformed.ne_nil {piece rest : List UInt8} (h : IsMalformed piece rest) : piece ≠ [] := by
  rcases h.begun with hone | hmore
  · exact List.length_pos_iff.1 (hone ▸ Nat.one_pos)
  · exact hmore.1

/-- A malformed piece stays one if an ASCII byte comes later. -/
theorem IsMalformed.append_ascii {piece rest : List UInt8} (h : IsMalformed piece rest) {b : UInt8}
    (hb : b < 0x80) (more : List UInt8) : IsMalformed piece (rest ++ b :: more) := by
  have hbytes : piece ++ rest ≠ [] := List.append_ne_nil_of_left_ne_nil h.ne_nil rest
  refine ⟨fun c hc => ?_, h.begun, fun longer hlonger hbegins => ?_⟩
  · rw [← List.append_assoc] at hc
    exact h.unreadable c (prefix_of_prefix_ascii hb hbytes (List.prefix_refl _) hc)
  · rw [← List.append_assoc] at hlonger
    rcases hbegins with ⟨c, hc⟩
    exact h.longest longer (prefix_of_prefix_ascii hb hbytes hc hlonger) ⟨c, hc⟩

theorem IsCutInto.append_ascii {bytes more : List UInt8} {ps qs : List (Option Char)} {b : UInt8}
    (hb : b < 0x80) (h : IsCutInto bytes ps) (hmore : IsCutInto more qs) :
    IsCutInto (bytes ++ b :: more) (ps ++ some (Char.ofNat b.toNat) :: qs) := by
  induction h with
  | nil =>
      have hchar := hmore.char (c := Char.ofNat b.toNat)
      rw [utf8EncodeChar_ascii hb] at hchar
      exact hchar
  | char _ ih =>
      rw [List.append_assoc]
      exact ih.char
  | malformed hpiece _ ih =>
      rw [List.append_assoc]
      exact .malformed (hpiece.append_ascii hb more) ih

/-- An ASCII byte cuts bytes in two. -/
theorem pieces_append_ascii {b : UInt8} (hb : b < 0x80) (bytes more : List UInt8) :
    pieces (bytes ++ b :: more) = pieces bytes ++ some (Char.ofNat b.toNat) :: pieces more :=
  isCutInto_iff.1 ((isCutInto_iff.2 rfl).append_ascii hb (isCutInto_iff.2 rfl))

/-! ### Texts -/

/-- The bytes are read as the text in the standard way, with U+FFFD for each malformed piece. -/
def IsReadAs (bytes : List UInt8) (text : String) : Prop :=
  ∃ ps, IsCutInto bytes ps ∧ text.toList = ps.map fun piece => piece.getD replacement

theorem toList_decodeLossy (bytes : List UInt8) :
    (decodeLossy bytes).toList = (pieces bytes).map fun piece => piece.getD replacement := by
  rw [decodeLossy, String.toList_ofList]

/-- Lenient reading is reading in the standard way. -/
theorem isReadAs_iff {bytes : List UInt8} {text : String} :
    IsReadAs bytes text ↔ decodeLossy bytes = text := by
  simp only [IsReadAs, isCutInto_iff, exists_eq_left', ← toList_decodeLossy, String.toList_inj]
  exact eq_comm

/-- Texts are read as they are on either side of an ASCII byte. -/
theorem toList_decodeLossy_append_ascii {b : UInt8} (hb : b < 0x80) (bytes more : List UInt8) :
    (decodeLossy (bytes ++ b :: more)).toList
      = (decodeLossy bytes).toList ++ Char.ofNat b.toNat :: (decodeLossy more).toList := by
  rw [toList_decodeLossy, pieces_append_ascii hb, List.map_append, List.map_cons,
    ← toList_decodeLossy, ← toList_decodeLossy]
  rfl

/-- The bytes of a text are read as that text. -/
theorem decodeLossy_encode (s : String) : decodeLossy (encode s) = s := by
  refine String.toList_inj.1 ?_
  rw [toList_decodeLossy, pieces_encode, List.map_map]
  exact List.map_id _

end Text

end UtilityCss
