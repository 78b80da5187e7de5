import Mathlib.Data.List.Basic
import UtilityCss.Text.Utf8

/-!
# Bytes of Text

The bytes of a text, character by character.

Patterns are matched byte by byte, but they are written in characters. The two views agree
because the bytes of a character tell where they end: a text whose bytes start with those of
another one starts with its characters. A slash is one byte, and no other character has it.

## Theorems

* `Text.encode_ofList`: The bytes of a text are those of its characters in order.
* `Text.prefix_of_bytes_prefix`: Texts start alike if their bytes do.
* `Text.utf8EncodeChar_eq_singleton`: A character that has an ASCII byte has no other.
* `Text.count_slash_encode`: A text has as many slashes as its bytes.
-/

namespace UtilityCss

namespace Text

theorem toList_toByteArray (bytes : List UInt8) : bytes.toByteArray.toList = bytes := by
  rw [ByteArray.toList, toList_loop, List.reverse_nil, List.nil_append, List.drop_zero,
    List.data_toByteArray, List.toList_toArray]

/-- The bytes of a text are those of its characters in order. -/
theorem encode_ofList (cs : List Char) :
    encode (String.ofList cs) = cs.flatMap String.utf8EncodeChar := by
  have hbytes : (String.ofList cs).toUTF8 = (cs.flatMap String.utf8EncodeChar).toByteArray := by
    rw [String.toUTF8, String.toByteArray_ofList, List.utf8Encode]
  rw [encode, hbytes, toList_toByteArray]

theorem encode_eq (s : String) : encode s = s.toList.flatMap String.utf8EncodeChar := by
  rw [← encode_ofList, String.ofList_toList]

-- Decoding looks at the bytes of one character only.
theorem eq_of_utf8EncodeChar_append {c c' : Char} {bytes bytes' : List UInt8}
    (h : String.utf8EncodeChar c ++ bytes = String.utf8EncodeChar c' ++ bytes') :
    c = c' ∧ bytes = bytes' := by
  have hc : c = c' := by
    have hdecode := congrArg (fun b => b.toByteArray.utf8DecodeChar? 0) h
    simp only [List.toByteArray_append, ByteArray.utf8DecodeChar?_utf8EncodeChar_append,
      Option.some.injEq] at hdecode
    exact hdecode
  rw [hc] at h
  exact ⟨hc, List.append_cancel_left h⟩

/-- Texts start alike if their bytes do. -/
theorem prefix_of_bytes_prefix {cs cs' : List Char}
    (h : cs.flatMap String.utf8EncodeChar <+: cs'.flatMap String.utf8EncodeChar) : cs <+: cs' := by
  induction cs generalizing cs' with
  | nil => exact List.nil_prefix
  | cons c cs ih =>
      rcases h with ⟨rest, h⟩
      cases cs' with
      | nil =>
          rw [List.flatMap_nil, List.append_eq_nil_iff, List.flatMap_cons,
            List.append_eq_nil_iff] at h
          exact absurd h.1.1 String.utf8EncodeChar_ne_nil
      | cons c' cs' =>
          rw [List.flatMap_cons, List.flatMap_cons, List.append_assoc] at h
          rcases eq_of_utf8EncodeChar_append h with ⟨rfl, hrest⟩
          exact List.cons_prefix_cons.2 ⟨rfl, ih ⟨rest, hrest⟩⟩

/-- A character that has an ASCII byte has no other. -/
theorem utf8EncodeChar_eq_singleton {c : Char} {b : UInt8} (hb : b < 0x80)
    (h : b ∈ String.utf8EncodeChar c) : String.utf8EncodeChar c = [b] := by
  have hlt : b.toNat < 0x80 := UInt8.lt_iff_toNat_lt.1 hb
  have hbyte : ∀ {n : Nat}, b = UInt8.ofNat n → b.toNat = n % 256 := fun h =>
    (congrArg UInt8.toNat h).trans UInt8.toNat_ofNat'
  rw [String.utf8EncodeChar] at h ⊢
  -- The bytes of a character of several are not below 128.
  split at h
  · next hone =>
      rw [if_pos hone, List.mem_singleton.1 h]
  · split at h
    · simp only [List.mem_cons, List.not_mem_nil, or_false] at h
      rcases h with h | h <;> have heq := hbyte h <;> omega
    · split at h
      · simp only [List.mem_cons, List.not_mem_nil, or_false] at h
        rcases h with h | h | h <;> have heq := hbyte h <;> omega
      · simp only [List.mem_cons, List.not_mem_nil, or_false] at h
        rcases h with h | h | h | h <;> have heq := hbyte h <;> omega

theorem not_mem_utf8EncodeChar {c : Char} (hc : c ≠ '/') : 47 ∉ String.utf8EncodeChar c := by
  intro hmem
  have hslash : String.utf8EncodeChar '/' = [47] := rfl
  have hsame : String.utf8EncodeChar c ++ [] = String.utf8EncodeChar '/' ++ [] := by
    rw [utf8EncodeChar_eq_singleton (by decide) hmem, hslash]
  exact hc (eq_of_utf8EncodeChar_append hsame).1

theorem count_slash_utf8EncodeChar (c : Char) :
    (String.utf8EncodeChar c).count 47 = if c = '/' then 1 else 0 := by
  by_cases hc : c = '/'
  · rw [hc, if_pos rfl]
    rfl
  · rw [if_neg hc, List.count_eq_zero]
    exact not_mem_utf8EncodeChar hc

/-- A text has as many slashes as its bytes. -/
theorem count_slash_encode (cs : List Char) :
    (cs.flatMap String.utf8EncodeChar).count 47 = cs.count '/' := by
  induction cs with
  | nil => rfl
  | cons c cs ih =>
      rw [List.flatMap_cons, List.count_append, ih, List.count_cons, count_slash_utf8EncodeChar]
      simp only [beq_iff_eq, Nat.add_comm]

end Text

end UtilityCss
