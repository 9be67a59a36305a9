import Mathlib.Data.String.Basic
/-!
# Texts in byte order

Texts are compared character by character. Comparing their UTF-8 bytes comes to
the same: a greater character has greater bytes, whatever follows it
(`Utf8.digits_append_lt`), because characters of more bytes begin with a greater
one, and characters of equally many bytes are written in base 64.

Key definition: `Utf8.bytes`.
Key theorem: `Utf8.lt_iff_bytes_lt`.
-/

namespace BlockTransfer
namespace Utf8

/-- The bytes of a text. -/
def bytes (s : String) : List UInt8 := s.toUTF8.data.toList

/-- The bytes of the character with that number, as numbers. -/
def digits (v : Nat) : List Nat :=
  if v ≤ 127 then [v]
  else if v ≤ 2047 then [v / 64 + 192, v % 64 + 128]
  else if v ≤ 65535 then [v / 64 / 64 + 224, v / 64 % 64 + 128, v % 64 + 128]
  else [v / 64 / 64 / 64 + 240, v / 64 / 64 % 64 + 128, v / 64 % 64 + 128, v % 64 + 128]

theorem digits_ne_nil (v : Nat) : digits v ≠ [] := by
  unfold digits
  split_ifs <;> exact List.cons_ne_nil _ _

/-- A greater character has greater bytes, whatever follows. -/
theorem digits_append_lt {v w : Nat} (h : v < w) (s t : List Nat) :
    digits v ++ s < digits w ++ t := by
  unfold digits
  split_ifs <;> simp only [List.cons_append, List.nil_append, List.cons_lt_cons_iff] <;> omega

/-- The bytes of a character as numbers are what its encoding says. -/
theorem map_toNat_utf8EncodeChar (c : Char) :
    (String.utf8EncodeChar c).map UInt8.toNat = digits c.toNat := by
  have hc : c.toNat < 0x110000 := by
    rcases c.valid with h | h
    · exact Nat.lt_trans h (by decide)
    · exact h.2
  unfold String.utf8EncodeChar digits
  rw [show c.val.toNat = c.toNat from rfl]
  dsimp only
  split_ifs <;> simp only [List.map_cons, List.map_nil, UInt8.toNat_ofNat', List.cons.injEq,
    and_true] <;> omega

theorem map_toNat_bytes (s : String) :
    (bytes s).map UInt8.toNat = s.toList.flatMap fun c => digits c.toNat := by
  rw [bytes, String.toUTF8, ← String.utf8Encode_toList, List.utf8Encode, List.data_toByteArray,
    List.map_flatMap]
  exact List.flatMap_congr fun c _ => map_toNat_utf8EncodeChar c

/-- Lists of bytes are compared as the numbers that they are. -/
theorem map_toNat_lt_iff {l l' : List UInt8} :
    l.map UInt8.toNat < l'.map UInt8.toNat ↔ l < l' := by
  induction l generalizing l' with
  | nil => cases l' <;> simp
  | cons a l ih =>
    cases l' with
    | nil => simp
    | cons b l' =>
      rw [List.map_cons, List.map_cons, List.cons_lt_cons_iff, List.cons_lt_cons_iff, ih,
        UInt8.lt_iff_toNat_lt, UInt8.toNat_inj]

theorem flatMap_digits_lt {l l' : List Char} (h : l < l') :
    (l.flatMap fun c => digits c.toNat) < l'.flatMap fun c => digits c.toNat := by
  induction l generalizing l' with
  | nil =>
    cases l' with
    | nil => exact absurd h (List.lt_irrefl [])
    | cons d l' =>
      rw [List.flatMap_nil, List.flatMap_cons]
      cases hd : digits d.toNat with
      | nil => exact absurd hd (digits_ne_nil _)
      | cons x xs => exact List.nil_lt_cons x _
  | cons c l ih =>
    cases l' with
    | nil => exact absurd h (List.not_lt_nil _)
    | cons d l' =>
      rw [List.flatMap_cons, List.flatMap_cons]
      rcases List.cons_lt_cons_iff.mp h with hlt | ⟨rfl, htail⟩
      · exact digits_append_lt hlt _ _
      · exact List.append_left_lt (ih htail)

/-- The order of texts is the order of their bytes. -/
theorem lt_iff_bytes_lt {s t : String} : s < t ↔ bytes s < bytes t := by
  have hlt {s t : String} (h : s < t) : bytes s < bytes t := by
    rw [← map_toNat_lt_iff, map_toNat_bytes, map_toNat_bytes]
    exact flatMap_digits_lt (String.lt_iff_toList_lt.mp h)
  refine ⟨hlt, fun h => ?_⟩
  rcases lt_trichotomy s t with h' | rfl | h'
  · exact h'
  · exact absurd h (List.lt_irrefl _)
  · exact absurd (List.lt_trans h (hlt h')) (List.lt_irrefl _)

end Utf8
end BlockTransfer
