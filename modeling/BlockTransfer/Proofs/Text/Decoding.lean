import BlockTransfer.Text.Utf8
import BlockTransfer.Proofs.Text.ByteOrder
/-!
# Reading back the bytes of a text

The bytes of a text are read as that text. A character is read from its own bytes,
whatever follows them (`Utf8.decodeFrom_utf8EncodeChar`), because its first byte says
how many belong to it and none of them is out of range.

Key theorem: `Utf8.decode_bytes`.
-/

namespace BlockTransfer
namespace Utf8

/-- Bytes that belong to the character read last are passed over. -/
theorem decodeFrom_length (used rest : Bytes) :
    decodeFrom used.length (used ++ rest) = decodeFrom 0 rest := by
  induction used with
  | nil => rfl
  | cons b used ih => exact ih

/-- A first byte and those after it are read as one character. -/
theorem decodeFrom_cons {b : UInt8} {c : Char} {more rest : Bytes}
    (h : first b (more ++ rest) = (c, more.length)) :
    decodeFrom 0 (b :: more ++ rest) = c :: decodeFrom 0 rest := by
  rw [List.cons_append, decodeFrom, h]
  exact congrArg (c :: ·) (decodeFrom_length more rest)

/-- The second of three bytes is in the range that the first asks for, which leaves out
longer forms of smaller numbers, and surrogates. -/
theorem leading?_of_three {v b b₁ : Nat} (hb : b = v / 64 / 64 + 224)
    (hb₁ : b₁ = v / 64 % 64 + 128) (hlow : 2047 < v) (hhigh : v ≤ 65535)
    (hvalid : v < 0xd800 ∨ 0xdfff < v) :
    ∃ low high, leading? b = some (2, b - 0xe0, low, high) ∧ low ≤ b₁ ∧ b₁ ≤ high := by
  unfold leading?
  split_ifs <;> simp <;> omega

/-- The second of four bytes is in the range that the first asks for. -/
theorem leading?_of_four {v b b₁ : Nat} (hb : b = v / 64 / 64 / 64 + 240)
    (hb₁ : b₁ = v / 64 / 64 % 64 + 128) (hlow : 65535 < v) (hhigh : v < 0x110000) :
    ∃ low high, leading? b = some (3, b - 0xf0, low, high) ∧ low ≤ b₁ ∧ b₁ ≤ high := by
  unfold leading?
  split_ifs <;> simp <;> omega

/-- The bytes of a character are read as that character. -/
theorem decodeFrom_utf8EncodeChar (c : Char) (rest : Bytes) :
    decodeFrom 0 (String.utf8EncodeChar c ++ rest) = c :: decodeFrom 0 rest := by
  have hdigits := map_toNat_utf8EncodeChar c
  have hvalid : c.toNat < 0xd800 ∨ 0xdfff < c.toNat ∧ c.toNat < 0x110000 := c.valid
  have hread {n : Nat} (h : n = c.toNat) : Char.ofNat n = c := h ▸ Char.ofNat_toNat c
  unfold digits at hdigits
  split_ifs at hdigits with h₁ h₂ h₃
  · obtain ⟨b, _, hc, hb, hmore⟩ := List.map_eq_cons_iff.mp hdigits
    obtain rfl := List.map_eq_nil_iff.mp hmore
    rw [hc]
    refine decodeFrom_cons ?_
    rw [first, if_pos (by omega), hread hb]
    rfl
  · obtain ⟨b, _, hc, hb, hmore⟩ := List.map_eq_cons_iff.mp hdigits
    obtain ⟨b₁, _, rfl, hb₁, hmore⟩ := List.map_eq_cons_iff.mp hmore
    obtain rfl := List.map_eq_nil_iff.mp hmore
    rw [hc]
    refine decodeFrom_cons ?_
    have hlead : leading? b.toNat = some (1, b.toNat - 0xc0, 0x80, 0xbf) := by
      rw [leading?, if_neg (by omega), if_pos (by omega)]
    rw [first, if_neg (by omega), hlead]
    simp only [List.cons_append, List.nil_append, following]
    rw [if_pos (by omega), hread (by omega)]
    rfl
  · obtain ⟨b, _, hc, hb, hmore⟩ := List.map_eq_cons_iff.mp hdigits
    obtain ⟨b₁, _, rfl, hb₁, hmore⟩ := List.map_eq_cons_iff.mp hmore
    obtain ⟨b₂, _, rfl, hb₂, hmore⟩ := List.map_eq_cons_iff.mp hmore
    obtain rfl := List.map_eq_nil_iff.mp hmore
    rw [hc]
    refine decodeFrom_cons ?_
    obtain ⟨low, high, hlead, hlow, hhigh⟩ :=
      leading?_of_three hb hb₁ (Nat.not_le.mp h₂) h₃ (hvalid.imp_right And.left)
    rw [first, if_neg (by omega), hlead]
    simp only [List.cons_append, List.nil_append, following]
    rw [if_pos ⟨hlow, hhigh⟩, if_pos (by omega), hread (by omega)]
    rfl
  · obtain ⟨b, _, hc, hb, hmore⟩ := List.map_eq_cons_iff.mp hdigits
    obtain ⟨b₁, _, rfl, hb₁, hmore⟩ := List.map_eq_cons_iff.mp hmore
    obtain ⟨b₂, _, rfl, hb₂, hmore⟩ := List.map_eq_cons_iff.mp hmore
    obtain ⟨b₃, _, rfl, hb₃, hmore⟩ := List.map_eq_cons_iff.mp hmore
    obtain rfl := List.map_eq_nil_iff.mp hmore
    rw [hc]
    refine decodeFrom_cons ?_
    have hscalar : c.toNat < 0x110000 := hvalid.elim (by omega) And.right
    obtain ⟨low, high, hlead, hlow, hhigh⟩ :=
      leading?_of_four hb hb₁ (Nat.not_le.mp h₃) hscalar
    rw [first, if_neg (by omega), hlead]
    simp only [List.cons_append, List.nil_append, following]
    rw [if_pos ⟨hlow, hhigh⟩, if_pos (by omega), if_pos (by omega), hread (by omega)]
    rfl

/-- The bytes of a text stand for that text. -/
theorem decode_bytes (s : String) : decode (bytes s) = s := by
  have hchars (cs : List Char) : decodeFrom 0 (cs.flatMap String.utf8EncodeChar) = cs := by
    induction cs with
    | nil => rfl
    | cons c cs ih => rw [List.flatMap_cons, decodeFrom_utf8EncodeChar, ih]
  have hbytes : bytes s = s.toList.flatMap String.utf8EncodeChar := by
    rw [bytes, String.toUTF8, ← String.utf8Encode_toList, List.utf8Encode, List.data_toByteArray]
  rw [decode, hbytes, hchars, String.ofList_toList]

end Utf8
end BlockTransfer
