import BlockTransfer.Bytes
import BlockTransfer.Plan
import Mathlib.Data.List.Basic
/-!
# Copying ranges of bytes

A block moved between a file and a buffer copies a range of one content over
the same range of the other. What that does is told byte by byte
(`Bytes.getElem?_copyRange`); from it follow the laws by which blocks can be
moved in any order and in any pieces.

Key definitions: `Bytes.copyRange`.
Key theorems: `Bytes.getElem?_copyRange`, `Bytes.copyRange_self`,
`Bytes.copyRange_comm`, `Bytes.copyRange_split`.
-/

namespace BlockTransfer
namespace Bytes

theorem getElem?_slice (data : Bytes) (offset n i : Nat) :
    (slice data offset n)[i]? = if i < n then data[offset + i]? else none := by
  simp only [slice, List.getElem?_take, List.getElem?_drop]

theorem getElem?_zeros (n i : Nat) : (zeros n)[i]? = if i < n then some 0 else none := by
  simp [zeros, List.getElem?_replicate]

/-- A byte after a write: a gap reads as zero. -/
theorem getElem?_overwrite (data : Bytes) (offset i : Nat) {patch : Bytes} (h : patch ≠ []) :
    (overwrite data offset patch)[i]? =
      if i < offset then (if i < data.length then data[i]? else some 0)
      else if i < offset + patch.length then patch[i - offset]? else data[i]? := by
  have hhead : (data.take offset ++ zeros (offset - data.length)).length = offset := by
    simp only [List.length_append, List.length_take, length_zeros]
    omega
  have hpos : 0 < patch.length := List.length_pos_iff.mpr h
  simp only [overwrite, List.isEmpty_iff, h, ↓reduceIte]
  rw [List.append_assoc, List.getElem?_append, hhead]
  split
  · rw [List.getElem?_append, List.length_take]
    split
    · rw [List.getElem?_take_of_lt (by omega), if_pos (by omega)]
    · rw [getElem?_zeros, if_pos (by omega), if_neg (by omega)]
  · rw [List.getElem?_append]
    split
    · rw [if_pos (by omega)]
    · rw [if_neg (by omega), List.getElem?_drop]
      congr 1
      omega

/-- The content after the bytes of a range are copied over from `source`, as far
as it has them. -/
def copyRange (source : Bytes) (r : ByteRange) (data : Bytes) : Bytes :=
  overwrite data r.start (slice source r.start r.length)

/-- Where a copied range ends. -/
def reach (source : Bytes) (r : ByteRange) : Nat := min r.stop source.length

theorem length_slice_range (source : Bytes) (r : ByteRange) :
    (slice source r.start r.length).length = reach source r - r.start := by
  simp only [length_slice, reach, ByteRange.length]
  omega

theorem copyRange_eq_self {source data : Bytes} {r : ByteRange} (h : reach source r ≤ r.start) :
    copyRange source r data = data := by
  have : slice source r.start r.length = [] := by
    rw [← List.length_eq_zero_iff, length_slice_range]
    omega
  rw [copyRange, this, overwrite_nil]

theorem copyRange_empty (source data : Bytes) (a : Nat) : copyRange source ⟨a, a⟩ data = data :=
  copyRange_eq_self (Nat.min_le_left _ _)

theorem length_copyRange (source data : Bytes) (r : ByteRange) :
    (copyRange source r data).length =
      if reach source r ≤ r.start then data.length else max data.length (reach source r) := by
  split
  · rw [copyRange_eq_self ‹_›]
  · have hne : slice source r.start r.length ≠ [] := by
      rw [← List.length_pos_iff, length_slice_range]
      omega
    rw [copyRange, length_overwrite _ _ hne, length_slice_range]
    congr 1
    omega

/-- A range inside keeps the length. -/
theorem length_copyRange_of_le {source data : Bytes} {r : ByteRange} (h : r.stop ≤ data.length) :
    (copyRange source r data).length = data.length := by
  have : reach source r ≤ r.stop := Nat.min_le_left _ _
  rw [length_copyRange]
  split <;> omega

/-- Copying makes no content shorter. -/
theorem length_le_copyRange (source data : Bytes) (r : ByteRange) :
    data.length ≤ (copyRange source r data).length := by
  rw [length_copyRange]
  split <;> omega

/-- A range that the source has reaches its end. -/
theorem stop_le_length_copyRange {source : Bytes} {r : ByteRange} (hr : r.start < r.stop)
    (hs : r.stop ≤ source.length) (data : Bytes) :
    r.stop ≤ (copyRange source r data).length := by
  have hreach : reach source r = r.stop := Nat.min_eq_left hs
  rw [length_copyRange, hreach, if_neg (Nat.not_le.mpr hr)]
  exact Nat.le_max_right _ _

/-- A copied byte is the source's, a byte outside is as it was, and a gap reads
as zero. -/
theorem getElem?_copyRange (source data : Bytes) (r : ByteRange) (i : Nat) :
    (copyRange source r data)[i]? =
      if reach source r ≤ r.start then data[i]?
      else if i < r.start then (if i < data.length then data[i]? else some 0)
      else if i < reach source r then source[i]? else data[i]? := by
  split
  · rw [copyRange_eq_self ‹_›]
  · have hne : slice source r.start r.length ≠ [] := by
      rw [← List.length_pos_iff, length_slice_range]
      omega
    have hstop : r.start + (slice source r.start r.length).length = reach source r := by
      rw [length_slice_range]
      omega
    rw [copyRange, getElem?_overwrite _ _ _ hne, hstop]
    split
    · rfl
    · split
      · have : reach source r ≤ r.stop := Nat.min_le_left _ _
        rw [getElem?_slice, if_pos (by simp only [ByteRange.length]; omega)]
        congr 1
        omega
      · rfl

/-- What comes after a range is left alone. -/
theorem getElem?_copyRange_of_le {source data : Bytes} {r : ByteRange} {i : Nat}
    (h : r.stop ≤ i) : (copyRange source r data)[i]? = data[i]? := by
  have hreach : reach source r ≤ r.stop := Nat.min_le_left _ _
  rw [getElem?_copyRange]
  split
  · rfl
  · rw [if_neg (by omega), if_neg (by omega)]

/-- Copying zeros leaves a zero byte zero. -/
theorem getElem?_copyRange_zeros {data : Bytes} {i : Nat} (h : data[i]? = some 0) (n : Nat)
    (r : ByteRange) : (copyRange (zeros n) r data)[i]? = some 0 := by
  have hreach : reach (zeros n) r ≤ n := by
    unfold reach
    rw [length_zeros]
    exact Nat.min_le_right _ _
  rw [getElem?_copyRange, getElem?_zeros, h]
  split
  · rfl
  · split
    · split <;> rfl
    · split
      · rw [if_pos (by omega)]
      · rfl

/-- Copying a range again changes nothing. -/
theorem copyRange_self (source data : Bytes) (r : ByteRange) :
    copyRange source r (copyRange source r data) = copyRange source r data := by
  apply List.ext_getElem?
  intro i
  grind [getElem?_copyRange, length_copyRange]

/-- Ranges of one source can be copied in either order. -/
theorem copyRange_comm (source data : Bytes) (q r : ByteRange) :
    copyRange source q (copyRange source r data) =
      copyRange source r (copyRange source q data) := by
  apply List.ext_getElem?
  intro i
  grind [getElem?_copyRange, length_copyRange]

/-- Two ranges that follow one another are copied as one. -/
theorem copyRange_split (source data : Bytes) {a b c : Nat} (hab : a ≤ b) (hbc : b ≤ c) :
    copyRange source ⟨b, c⟩ (copyRange source ⟨a, b⟩ data) = copyRange source ⟨a, c⟩ data := by
  apply List.ext_getElem?
  intro i
  grind [getElem?_copyRange, length_copyRange, reach]

/-! ### The whole content -/

theorem getElem?_copyRange_initial {source : Bytes} (data : Bytes) {n : Nat}
    (hs : n ≤ source.length) (i : Nat) :
    (copyRange source ⟨0, n⟩ data)[i]? = if i < n then source[i]? else data[i]? := by
  have hr : reach source ⟨0, n⟩ = n := Nat.min_eq_left hs
  rw [getElem?_copyRange, hr]
  show (if n ≤ 0 then _ else if i < 0 then _ else _) = _
  split
  · rw [if_neg (by omega)]
  · rw [if_neg (Nat.not_lt_zero i)]

/-- Copying as many bytes as there are replaces the content. -/
theorem copyRange_whole {source data : Bytes} {n : Nat} (hs : n ≤ source.length)
    (hd : data.length ≤ n) : copyRange source ⟨0, n⟩ data = source.take n := by
  apply List.ext_getElem?
  intro i
  rw [getElem?_copyRange_initial data hs, List.getElem?_take]
  split
  · rfl
  · exact List.getElem?_eq_none (by omega)

/-- A content that copying leaves alone starts with the source's bytes. -/
theorem take_eq_of_copyRange_eq {source data : Bytes} {n : Nat} (hs : n ≤ source.length)
    (h : copyRange source ⟨0, n⟩ data = data) : data.take n = source.take n := by
  apply List.ext_getElem?
  intro i
  rw [List.getElem?_take, List.getElem?_take]
  split
  · rw [← h, getElem?_copyRange_initial data hs, if_pos ‹_›]
  · rfl

theorem slice_take {data : Bytes} {offset n m : Nat} (h : offset + n ≤ m) :
    slice (data.take m) offset n = slice data offset n := by
  apply List.ext_getElem?
  intro i
  rw [getElem?_slice, getElem?_slice]
  split
  · rw [List.getElem?_take_of_lt (by omega)]
  · rfl

theorem firstDifference_self : ∀ data : Bytes, firstDifference data data = none
  | [] => rfl
  | _ :: data => by simp [firstDifference, firstDifference_self data]

end Bytes
end BlockTransfer
