import UtilityCss.Proofs.Text.Bytes

/-!
# Reading What Was Written

The text of the bytes of a text.

Decoding and encoding are described in different terms. A text is encoded character by
character, and decoding goes byte by byte and carries the bits of an unfinished sequence. They
meet at each character: the first byte says how many follow, and the bounds on the second one,
which rule out long forms and surrogates, hold because the character has the value that it has.

## Theorems

* `Text.piecesFrom_utf8EncodeChar`: The bytes of a character are read as that character.
* `Text.decode?_encode`: The bytes of a text are read as that text.
-/

namespace UtilityCss

namespace Text

/-- What a byte begins, by its number. -/
theorem ofByte_ofNat {n : Nat} (hn : n < 256) : Start.ofByte (UInt8.ofNat n) =
    if n < 0x80 then .char (Char.ofNat n)
    else if 0xC2 ≤ n ∧ n ≤ 0xDF then .sequence ⟨0, 0x80, 0xBF, n - 0xC0⟩
    else if n = 0xE0 then .sequence ⟨1, 0xA0, 0xBF, 0⟩
    else if n = 0xED then .sequence ⟨1, 0x80, 0x9F, 0xD⟩
    else if 0xE1 ≤ n ∧ n ≤ 0xEF then .sequence ⟨1, 0x80, 0xBF, n - 0xE0⟩
    else if n = 0xF0 then .sequence ⟨2, 0x90, 0xBF, 0⟩
    else if 0xF1 ≤ n ∧ n ≤ 0xF3 then .sequence ⟨2, 0x80, 0xBF, n - 0xF0⟩
    else if n = 0xF4 then .sequence ⟨2, 0x80, 0x8F, 4⟩
    else .malformed := by
  simp only [Start.ofByte, UInt8.lt_iff_toNat_lt, UInt8.le_iff_toNat_le, ← UInt8.toNat_inj,
    UInt8.toNat_ofNat_of_lt' hn]
  rfl

theorem piecesFrom_first {n : Nat} {u : Unfinished}
    (h : Start.ofByte (UInt8.ofNat n) = .sequence u) (bytes : List UInt8) :
    piecesFrom none (UInt8.ofNat n :: bytes) = piecesFrom (some u) bytes := by
  rw [piecesFrom, h]

section

variable {low high : UInt8} {bits n : Nat} (hn : n < 256) (hlow : low.toNat ≤ n)
  (hhigh : n ≤ high.toNat) (bytes : List UInt8)
include hn hlow hhigh

theorem bounds_ofNat : low ≤ UInt8.ofNat n ∧ UInt8.ofNat n ≤ high := by
  rw [UInt8.le_iff_toNat_le, UInt8.le_iff_toNat_le, UInt8.toNat_ofNat_of_lt' hn]
  exact ⟨hlow, hhigh⟩

theorem piecesFrom_last : piecesFrom (some ⟨0, low, high, bits⟩) (UInt8.ofNat n :: bytes)
    = some (Char.ofNat (bits * 64 + (n - 0x80))) :: piecesFrom none bytes := by
  rw [piecesFrom, if_pos (bounds_ofNat hn hlow hhigh), UInt8.toNat_ofNat_of_lt' hn]

theorem piecesFrom_next {after : Nat} :
    piecesFrom (some ⟨after + 1, low, high, bits⟩) (UInt8.ofNat n :: bytes)
      = piecesFrom (some ⟨after, 0x80, 0xBF, bits * 64 + (n - 0x80)⟩) bytes := by
  rw [piecesFrom, if_pos (bounds_ofNat hn hlow hhigh), UInt8.toNat_ofNat_of_lt' hn]

end

-- Six bits and the mark of a byte inside of a character.
theorem continuation_bounds (v : Nat) : 0x80 ≤ v % 64 + 128 ∧ v % 64 + 128 ≤ 0xBF := by
  omega

theorem piecesFrom_two {v : Nat} (hlow : 0x80 ≤ v) (hhigh : v ≤ 0x7FF) (bytes : List UInt8) :
    piecesFrom none (UInt8.ofNat (v / 64 % 32 + 192) :: UInt8.ofNat (v % 64 + 128) :: bytes)
      = some (Char.ofNat v) :: piecesFrom none bytes := by
  have hfirst : v / 64 % 32 + 192 < 256 := by omega
  have hstart : Start.ofByte (UInt8.ofNat (v / 64 % 32 + 192))
      = .sequence ⟨0, 0x80, 0xBF, v / 64⟩ := by
    rw [ofByte_ofNat hfirst, if_neg (by omega), if_pos (by omega),
      show v / 64 % 32 + 192 - 0xC0 = v / 64 by omega]
  have hlast := continuation_bounds v
  have hbits : v / 64 * 64 + (v % 64 + 128 - 0x80) = v := by omega
  rw [piecesFrom_first hstart, piecesFrom_last (by omega) hlast.1 hlast.2, hbits]

theorem piecesFrom_three {v : Nat} (hlow : 0x800 ≤ v) (hhigh : v ≤ 0xFFFF)
    (hvalid : v < 0xD800 ∨ 0xDFFF < v) (bytes : List UInt8) :
    piecesFrom none (UInt8.ofNat (v / 4096 % 16 + 224) :: UInt8.ofNat (v / 64 % 64 + 128)
      :: UInt8.ofNat (v % 64 + 128) :: bytes) = some (Char.ofNat v) :: piecesFrom none bytes := by
  have hfirst : v / 4096 % 16 + 224 < 256 := by omega
  -- The bounds on the second byte depend on the first one.
  have hsecond : ∃ low high : UInt8, low.toNat ≤ v / 64 % 64 + 128 ∧
      v / 64 % 64 + 128 ≤ high.toNat ∧ Start.ofByte (UInt8.ofNat (v / 4096 % 16 + 224))
        = .sequence ⟨1, low, high, v / 4096⟩ := by
    rw [ofByte_ofNat hfirst, if_neg (by omega), if_neg (by omega)]
    by_cases hleast : v / 4096 = 0
    · refine ⟨0xA0, 0xBF, show 0xA0 ≤ _ by omega, show _ ≤ 0xBF by omega, ?_⟩
      rw [if_pos (by omega), hleast]
    · rw [if_neg (by omega)]
      by_cases hsurrogate : v / 4096 = 13
      · refine ⟨0x80, 0x9F, show 0x80 ≤ _ by omega, show _ ≤ 0x9F by omega, ?_⟩
        rw [if_pos (by omega), hsurrogate]
      · refine ⟨0x80, 0xBF, show 0x80 ≤ _ by omega, show _ ≤ 0xBF by omega, ?_⟩
        rw [if_neg (by omega), if_pos (by omega),
          show v / 4096 % 16 + 224 - 0xE0 = v / 4096 by omega]
  rcases hsecond with ⟨low, high, hlow, hhigh, hstart⟩
  have hlast := continuation_bounds v
  have hbits : (v / 4096 * 64 + (v / 64 % 64 + 128 - 0x80)) * 64 + (v % 64 + 128 - 0x80) = v := by
    omega
  rw [piecesFrom_first hstart, piecesFrom_next (by omega) hlow hhigh,
    piecesFrom_last (by omega) hlast.1 hlast.2, hbits]

theorem piecesFrom_four {v : Nat} (hlow : 0x10000 ≤ v) (hhigh : v < 0x110000)
    (bytes : List UInt8) :
    piecesFrom none (UInt8.ofNat (v / 262144 % 8 + 240) :: UInt8.ofNat (v / 4096 % 64 + 128)
      :: UInt8.ofNat (v / 64 % 64 + 128) :: UInt8.ofNat (v % 64 + 128) :: bytes)
      = some (Char.ofNat v) :: piecesFrom none bytes := by
  have hfirst : v / 262144 % 8 + 240 < 256 := by omega
  -- The least first byte keeps overlong forms out, and the greatest one what is no code
  -- point.
  have hsecond : ∃ low high : UInt8, low.toNat ≤ v / 4096 % 64 + 128 ∧
      v / 4096 % 64 + 128 ≤ high.toNat ∧ Start.ofByte (UInt8.ofNat (v / 262144 % 8 + 240))
        = .sequence ⟨2, low, high, v / 262144⟩ := by
    rw [ofByte_ofNat hfirst, if_neg (by omega), if_neg (by omega), if_neg (by omega),
      if_neg (by omega), if_neg (by omega)]
    by_cases hleast : v / 262144 = 0
    · refine ⟨0x90, 0xBF, show 0x90 ≤ _ by omega, show _ ≤ 0xBF by omega, ?_⟩
      rw [if_pos (by omega), hleast]
    · rw [if_neg (by omega)]
      by_cases hgreatest : v / 262144 = 4
      · refine ⟨0x80, 0x8F, show 0x80 ≤ _ by omega, show _ ≤ 0x8F by omega, ?_⟩
        rw [if_neg (by omega), if_pos (by omega), hgreatest]
      · refine ⟨0x80, 0xBF, show 0x80 ≤ _ by omega, show _ ≤ 0xBF by omega, ?_⟩
        rw [if_pos (by omega), show v / 262144 % 8 + 240 - 0xF0 = v / 262144 by omega]
  rcases hsecond with ⟨low, high, hlow, hhigh, hstart⟩
  have hthird := continuation_bounds (v / 64)
  have hlast := continuation_bounds v
  have hbits : ((v / 262144 * 64 + (v / 4096 % 64 + 128 - 0x80)) * 64
      + (v / 64 % 64 + 128 - 0x80)) * 64 + (v % 64 + 128 - 0x80) = v := by
    omega
  rw [piecesFrom_first hstart, piecesFrom_next (by omega) hlow hhigh,
    piecesFrom_next (by omega) hthird.1 hthird.2, piecesFrom_last (by omega) hlast.1 hlast.2, hbits]

/-- The bytes of a character are read as that character. -/
theorem piecesFrom_utf8EncodeChar (c : Char) (bytes : List UInt8) :
    piecesFrom none (String.utf8EncodeChar c ++ bytes) = some c :: piecesFrom none bytes := by
  have hvalid : c.val.toNat < 0xd800 ∨ 0xdfff < c.val.toNat ∧ c.val.toNat < 0x110000 := c.valid
  have hchar : Char.ofNat c.val.toNat = c := Char.ofNat_toNat c
  rw [String.utf8EncodeChar]
  -- One case for each number of bytes.
  generalize c.val.toNat = v at hvalid hchar
  split
  · next hone =>
      have hbyte : (UInt8.ofNat v).toNat = v := UInt8.toNat_ofNat_of_lt' (show v < 256 by omega)
      have hascii : UInt8.ofNat v < 0x80 := by
        rw [UInt8.lt_iff_toNat_lt, hbyte]
        exact Nat.lt_succ_of_le hone
      rw [List.singleton_append, piecesFrom_ascii _ _ hascii, hbyte, hchar]
  · split
    · exact (piecesFrom_two (by omega) (by omega) bytes).trans (by rw [hchar])
    · split
      · exact (piecesFrom_three (by omega) (by omega) (by omega) bytes).trans (by rw [hchar])
      · exact (piecesFrom_four (by omega) (by omega) bytes).trans (by rw [hchar])

/-- The bytes of a text are read as its characters. -/
theorem pieces_encode (s : String) : pieces (encode s) = s.toList.map some := by
  rw [encode_eq, pieces]
  induction s.toList with
  | nil => rfl
  | cons c cs ih => rw [List.flatMap_cons, piecesFrom_utf8EncodeChar, ih, List.map_cons]

/-- The bytes of a text are read as that text. -/
theorem decode?_encode (s : String) : decode? (encode s) = some s := by
  have hall : ∀ cs : List Char, (cs.map some).mapM id = some cs := by
    intro cs
    induction cs with
    | nil => rfl
    | cons c cs ih =>
        rw [List.map_cons, List.mapM_cons, ih]
        rfl
  rw [decode?, pieces_encode, hall, Option.map_some, String.ofList_toList]

end Text

end UtilityCss
