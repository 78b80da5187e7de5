/-!
# Reading Bytes as Text

Decoding UTF-8, strictly and leniently.

A configuration must be text: one malformed byte refuses the file. Scanned
content is read leniently: every maximal malformed piece becomes one U+FFFD,
and decoding goes on with the byte that did not fit. Both readings come from
one pass that says, piece by piece, which character was read or that none was.

The pass walks the bytes once and carries at most one unfinished sequence. A
byte that cannot continue it ends the malformed piece *before* itself and is
then read afresh, so an ASCII byte is never part of a malformed piece and the
text after it is read as if it stood alone (`piecesFrom_ascii`).

## Main definitions

* `Unfinished`: A sequence that still lacks bytes.
* `Start`: What one byte begins.
* `pieces`: The characters of a byte list, `none` for a malformed piece.
* `decodeLossy`: The text with U+FFFD for malformed pieces.
* `decode?`: The text, if nothing is malformed.

## Theorems

* `piecesFrom_ascii`: An ASCII byte is a character of its own.
* `encode_injective`: Different texts have different bytes.
-/

namespace UtilityCss

namespace Text

/-- A sequence of several bytes of which some have been read. -/
structure Unfinished where
  /-- How many bytes are missing after the next one. -/
  after : Nat
  /-- The least byte that can come next. -/
  low : UInt8
  /-- The greatest byte that can come next. -/
  high : UInt8
  /-- The bits read so far. -/
  bits : Nat

/-- What a byte begins where no sequence is open. -/
inductive Start where
  /-- A character of one byte. -/
  | char (c : Char)
  /-- A sequence of several bytes. -/
  | sequence (rest : Unfinished)
  /-- Nothing: the byte can start no sequence. -/
  | malformed

/-- What a byte begins. The bounds on the second byte rule out long forms,
    surrogates and code points past U+10FFFF. -/
def Start.ofByte (b : UInt8) : Start :=
  if b < 0x80 then .char (Char.ofNat b.toNat)
  else if 0xC2 ≤ b ∧ b ≤ 0xDF then .sequence ⟨0, 0x80, 0xBF, b.toNat - 0xC0⟩
  else if b = 0xE0 then .sequence ⟨1, 0xA0, 0xBF, 0⟩
  else if b = 0xED then .sequence ⟨1, 0x80, 0x9F, 0xD⟩
  else if 0xE1 ≤ b ∧ b ≤ 0xEF then .sequence ⟨1, 0x80, 0xBF, b.toNat - 0xE0⟩
  else if b = 0xF0 then .sequence ⟨2, 0x90, 0xBF, 0⟩
  else if 0xF1 ≤ b ∧ b ≤ 0xF3 then .sequence ⟨2, 0x80, 0xBF, b.toNat - 0xF0⟩
  else if b = 0xF4 then .sequence ⟨2, 0x80, 0x8F, 4⟩
  else .malformed

/-- The characters of a byte list in order, `none` for a malformed piece,
    given the sequence that the bytes before have left open. -/
def piecesFrom : Option Unfinished → List UInt8 → List (Option Char)
  | none, [] => []
  | some _, [] => [none]
  | none, b :: bytes =>
    match Start.ofByte b with
    | .char c => some c :: piecesFrom none bytes
    | .sequence rest => piecesFrom (some rest) bytes
    | .malformed => none :: piecesFrom none bytes
  | some u, b :: bytes =>
    if u.low ≤ b ∧ b ≤ u.high then
      let bits := u.bits * 64 + (b.toNat - 0x80)
      match u.after with
      | 0 => some (Char.ofNat bits) :: piecesFrom none bytes
      | after + 1 => piecesFrom (some ⟨after, 0x80, 0xBF, bits⟩) bytes
    else
      -- The piece ends here, and the byte is read afresh.
      match Start.ofByte b with
      | .char c => none :: some c :: piecesFrom none bytes
      | .sequence rest => none :: piecesFrom (some rest) bytes
      | .malformed => none :: none :: piecesFrom none bytes

/-- The characters of a byte list in order, `none` for a malformed piece. -/
def pieces (bytes : List UInt8) : List (Option Char) :=
  piecesFrom none bytes

/-- What stands for a malformed piece. -/
def replacement : Char := '\uFFFD'

/-- The text of a byte list, with U+FFFD for each malformed piece. -/
def decodeLossy (bytes : List UInt8) : String :=
  String.ofList ((pieces bytes).map fun piece => piece.getD replacement)

/-- The text of a byte list, or `none` if any of it is malformed. -/
def decode? (bytes : List UInt8) : Option String :=
  ((pieces bytes).mapM id).map String.ofList

/-- The bytes of a text. -/
def encode (s : String) : List UInt8 := s.toUTF8.toList

/-- An ASCII byte is a character of its own, whatever follows. -/
theorem piecesFrom_ascii (b : UInt8) (bytes : List UInt8) (h : b < 0x80) :
    piecesFrom none (b :: bytes) =
      some (Char.ofNat b.toNat) :: piecesFrom none bytes := by
  rw [piecesFrom, Start.ofByte, if_pos h]

theorem toList_loop (bytes : ByteArray) (i : Nat) (back : List UInt8) :
    ByteArray.toList.loop bytes i back = back.reverse ++ bytes.data.toList.drop i := by
  fun_induction ByteArray.toList.loop bytes i back with
  | case1 i back hi ih =>
    have hi : i < bytes.data.toList.length := hi
    have hbyte : bytes.get! i = bytes.data.toList[i] := getElem!_pos bytes.data i hi
    rw [ih, List.reverse_cons, List.append_assoc, List.drop_eq_getElem_cons hi, hbyte,
      List.singleton_append]
  | case2 i back hi =>
    have hlength : bytes.data.toList.length ≤ i := Nat.le_of_not_lt hi
    rw [List.drop_of_length_le hlength, List.append_nil]

/-- Different texts have different bytes. -/
theorem encode_injective {s s' : String} (h : encode s = encode s') : s = s' := by
  rw [encode, encode, ByteArray.toList, ByteArray.toList, toList_loop, toList_loop] at h
  exact String.toByteArray_inj.1 (ByteArray.ext (Array.toList_inj.1 h))

end Text

end UtilityCss
