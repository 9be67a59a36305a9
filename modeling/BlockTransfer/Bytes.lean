/-
# Byte strings

A file's content and a buffer's content are both a list of bytes. A transfer
reads a slice of one and writes it over the same place of the other, so the
operations here are the ones a positional transfer needs: the slice at an
offset, overwriting from an offset (with zeros in a gap past the end), and
cutting or padding to a length. `firstDifference` is what a comparison
reports.

Key definitions: `Bytes.slice`, `Bytes.overwrite`, `Bytes.resize`,
`Bytes.firstDifference`.
-/

namespace BlockTransfer

/-- The content of a file or of a buffer. -/
abbrev Bytes := List UInt8

namespace Bytes

/-- `n` zero bytes. -/
def zeros (n : Nat) : Bytes := List.replicate n 0

/-- The `n` bytes from `offset` on, fewer where the content ends earlier. -/
def slice (data : Bytes) (offset n : Nat) : Bytes := (data.drop offset).take n

/-- The content after `patch` is written at `offset`: a gap between the old
end and `offset` is filled with zeros, and writing nothing changes nothing. -/
def overwrite (data : Bytes) (offset : Nat) (patch : Bytes) : Bytes :=
  if patch.isEmpty then data
  else data.take offset ++ zeros (offset - data.length) ++ patch ++
    data.drop (offset + patch.length)

/-- The content cut to `n` bytes, or padded with zeros up to them. -/
def resize (data : Bytes) (n : Nat) : Bytes := data.take n ++ zeros (n - data.length)

/-- The least index at which two contents hold different bytes, if there is
one before the shorter of them ends. -/
def firstDifference : Bytes → Bytes → Option Nat
  | a :: as, b :: bs => if a = b then (firstDifference as bs).map (· + 1) else some 0
  | _, _ => none

@[simp] theorem length_zeros (n : Nat) : (zeros n).length = n := by simp [zeros]

@[simp] theorem length_slice (data : Bytes) (offset n : Nat) :
    (slice data offset n).length = min n (data.length - offset) := by simp [slice]

@[simp] theorem length_resize (data : Bytes) (n : Nat) : (resize data n).length = n := by
  simp only [resize, List.length_append, List.length_take, length_zeros]
  omega

@[simp] theorem overwrite_nil (data : Bytes) (offset : Nat) : overwrite data offset [] = data := rfl

theorem length_overwrite (data : Bytes) (offset : Nat) {patch : Bytes} (h : patch ≠ []) :
    (overwrite data offset patch).length = max data.length (offset + patch.length) := by
  have : 0 < patch.length := List.length_pos_iff.mpr h
  simp only [overwrite, List.isEmpty_iff, h, ↓reduceIte, List.length_append, List.length_take,
    length_zeros, List.length_drop]
  omega

/-- What was written is there. -/
theorem slice_overwrite (data : Bytes) (offset : Nat) (patch : Bytes) :
    slice (overwrite data offset patch) offset patch.length = patch := by
  by_cases h : patch = []
  · simp [h, slice]
  · have hlen : (data.take offset ++ zeros (offset - data.length)).length = offset := by
      simp only [List.length_append, List.length_take, length_zeros]
      omega
    simp only [slice, overwrite, List.isEmpty_iff, h, ↓reduceIte]
    rw [List.append_assoc, List.drop_left' hlen, List.take_left]

end Bytes
end BlockTransfer
