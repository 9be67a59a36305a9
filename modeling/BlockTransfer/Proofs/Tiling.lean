import BlockTransfer.Buffer
import BlockTransfer.Plan
import Mathlib.Algebra.GroupWithZero.Nat
import Mathlib.Data.List.Basic
/-!
# Blocks and jobs tile what they cut

The blocks of a range, and the jobs of a buffer, are non-empty ranges that
follow one another from its start to its end (`ByteRange.Tiles`), so every byte
is moved by exactly one of them. For the jobs this needs that no boundary wraps
around: a block start is at most the length plus one block, and both are below
half of the address space.

Key definitions: `ByteRange.Tiles`.
Key theorems: `ByteRange.tiles_blocks`, `Plan.tiles_jobs`.
-/

namespace BlockTransfer
namespace ByteRange

/-- The ranges are not empty, the first starts at `a`, each starts where the
one before it stops, and the last stops at `b`. -/
def Tiles : Nat → Nat → List ByteRange → Prop
  | a, b, [] => a = b
  | a, b, r :: rs => r.start = a ∧ a < r.stop ∧ Tiles r.stop b rs

theorem Tiles.le : ∀ {a b : Nat} {rs : List ByteRange}, Tiles a b rs → a ≤ b
  | _, _, [], h => Nat.le_of_eq h
  | _, _, _ :: _, ⟨_, hlt, h⟩ => Nat.le_trans (Nat.le_of_lt hlt) h.le

/-- Every range of a tiling lies inside and is not empty. -/
theorem Tiles.mem : ∀ {a b : Nat} {rs : List ByteRange}, Tiles a b rs →
    ∀ r ∈ rs, a ≤ r.start ∧ r.start < r.stop ∧ r.stop ≤ b
  | _, _, [], _, r, hr => by simp at hr
  | a, b, q :: qs, ⟨hq, hlt, h⟩, r, hr => by
    rcases List.mem_cons.mp hr with rfl | hr
    · exact ⟨Nat.le_of_eq hq.symm, hq.symm ▸ hlt, h.le⟩
    · have := h.mem r hr
      omega

theorem Tiles.ne_nil {a b : Nat} {rs : List ByteRange} (h : Tiles a b rs) (hab : a < b) :
    rs ≠ [] := by
  rintro rfl
  exact Nat.ne_of_lt hab h

/-- The last range of a tiling ends where the tiling does. -/
theorem Tiles.exists_last : ∀ {a b : Nat} {rs : List ByteRange}, Tiles a b rs → a < b →
    ∃ r ∈ rs, r.start < r.stop ∧ r.stop = b
  | _, _, [], h, hab => absurd h (Nat.ne_of_lt hab)
  | _, b, q :: qs, ⟨hq, hlt, h⟩, _ => by
    by_cases hstop : q.stop = b
    · exact ⟨q, List.mem_cons_self, hq.symm ▸ hlt, hstop⟩
    · obtain ⟨r, hr, hlast⟩ := h.exists_last (Nat.lt_of_le_of_ne h.le hstop)
      exact ⟨r, List.mem_cons_of_mem _ hr, hlast⟩

/-- The starts of a tiling's ranges rise, so no range occurs twice. -/
theorem Tiles.nodup : ∀ {a b : Nat} {rs : List ByteRange}, Tiles a b rs → rs.Nodup
  | _, _, [], _ => List.nodup_nil
  | a, b, q :: qs, ⟨hq, hlt, h⟩ => by
    refine List.nodup_cons.mpr ⟨fun hmem => ?_, h.nodup⟩
    have := (h.mem q hmem).1
    omega

/-- The last range of a tiling ends where the tiling does; the others end before
it starts. -/
theorem Tiles.of_concat : ∀ {a b : Nat} {rs : List ByteRange} {r : ByteRange},
    Tiles a b (rs ++ [r]) → Tiles a r.start rs ∧ r.start < r.stop ∧ r.stop = b
  | _, _, [], _, ⟨hr, hlt, h⟩ => ⟨hr.symm, hr.symm ▸ hlt, h⟩
  | _, _, _ :: _, _, ⟨hq, hlt, h⟩ => by
    obtain ⟨hinit, hlast⟩ := Tiles.of_concat h
    exact ⟨⟨hq, hlt, hinit⟩, hlast⟩

/-! ### The blocks of a range -/

theorem le_blockCount_mul (len : Nat) {blockSize : Nat} (h : 0 < blockSize) :
    len ≤ blockCount len blockSize * blockSize := by
  have hdiv := Nat.div_add_mod (len + blockSize - 1) blockSize
  have hmod := Nat.mod_lt (len + blockSize - 1) h
  rw [Nat.mul_comm] at hdiv
  unfold blockCount
  omega

theorem blockCount_mul_lt (len : Nat) {blockSize : Nat} (h : 0 < blockSize) :
    blockCount len blockSize * blockSize < len + blockSize := by
  have hle := Nat.div_mul_le_self (len + blockSize - 1) blockSize
  unfold blockCount
  omega

/-- A block before the last starts inside. -/
theorem mul_lt_of_lt_blockCount {len blockSize i : Nat} (h : 0 < blockSize)
    (hi : i < blockCount len blockSize) : i * blockSize < len := by
  have hle := Nat.mul_le_mul_right blockSize hi
  have hlt := blockCount_mul_lt len h
  rw [Nat.succ_mul] at hle
  omega

/-- The blocks of what can be allocated do not reach beyond the words. -/
theorem blockCount_mul_lt_word {len blockSize : Nat} (hb : 0 < blockSize)
    (hw : blockSize < Word.count) (hlen : len < Word.signedLimit) :
    blockCount len blockSize * blockSize < Word.count := by
  have hlt := blockCount_mul_lt len hb
  simp only [Word.count, Word.signedLimit] at hw hlen ⊢
  by_cases hle : len ≤ blockSize
  · -- one block at most, however large
    have hone : blockCount len blockSize ≤ 1 := by
      unfold blockCount
      exact Nat.le_of_lt_succ ((Nat.div_lt_iff_lt_mul hb).mpr (by omega))
    have := Nat.mul_le_mul_right blockSize hone
    omega
  · omega

/-- The blocks from the `i`-th on, `n` of them, tile what is left from there. -/
theorem tiles_blocks_from (r : ByteRange) {blockSize : Nat} (h : 0 < blockSize)
    (hr : r.start ≤ r.stop) : ∀ n i, i + n = blockCount r.length blockSize →
    Tiles (min (r.start + i * blockSize) r.stop) r.stop ((List.range' i n).map fun i =>
      ⟨r.start + i * blockSize, min (r.start + (i + 1) * blockSize) r.stop⟩) := by
  intro n
  induction n with
  | zero =>
    intro i hi
    have hle := le_blockCount_mul r.length h
    rw [← hi, Nat.add_zero] at hle
    simp only [length] at hle
    simp only [List.range'_zero, List.map_nil, Tiles]
    omega
  | succ n ih =>
    intro i hi
    have hlt : i * blockSize < r.length := mul_lt_of_lt_blockCount h (by omega)
    simp only [length] at hlt
    have hsucc : (i + 1) * blockSize = i * blockSize + blockSize := Nat.succ_mul i blockSize
    rw [List.range'_succ, List.map_cons]
    refine ⟨?_, ?_, ih (i + 1) (by omega)⟩
    · show r.start + i * blockSize = _
      omega
    · show _ < min (r.start + (i + 1) * blockSize) r.stop
      omega

/-- The blocks of a range tile it. -/
theorem tiles_blocks (r : ByteRange) {blockSize : Nat} (h : 0 < blockSize)
    (hr : r.start ≤ r.stop) : Tiles r.start r.stop (r.blocks blockSize) := by
  have ht := tiles_blocks_from r h hr (blockCount r.length blockSize) 0 (Nat.zero_add _)
  rw [Nat.zero_mul, Nat.add_zero, Nat.min_eq_left hr] at ht
  rw [blocks, List.range_eq_range']
  exact ht

end ByteRange

/-! ### The jobs of a buffer -/

namespace Plan

open ByteRange

theorem evenShares_pos {blocks runs : Nat} (h : 0 < runs) (hle : runs ≤ blocks) :
    ∀ c ∈ evenShares blocks runs, 0 < c := by
  intro c hc
  have hdiv : 0 < blocks / runs := Nat.div_pos hle h
  rcases List.mem_append.mp hc with hc | hc
  · rw [(List.mem_replicate.mp hc).2]
    exact Nat.succ_pos _
  · rw [(List.mem_replicate.mp hc).2]
    exact hdiv

theorem evenShares_sum {blocks runs : Nat} (h : 0 < runs) :
    (evenShares blocks runs).sum = blocks := by
  have hmod : blocks % runs ≤ runs := Nat.le_of_lt (Nat.mod_lt _ h)
  have hsplit : (blocks % runs) * (blocks / runs) + (runs - blocks % runs) * (blocks / runs) =
      runs * (blocks / runs) := by rw [← Nat.add_mul, Nat.add_sub_cancel' hmod]
  have hdiv := Nat.div_add_mod blocks runs
  simp only [evenShares, List.sum_append_nat, List.sum_replicate_nat, Nat.mul_succ]
  omega

/-- The jobs' block counts are positive. -/
theorem shares_pos {blocks workers : Nat} {singleSubmit : Bool} (h : 0 < workers) :
    ∀ c ∈ shares blocks workers singleSubmit, 0 < c := by
  intro c hc
  unfold shares at hc
  split at hc
  · rw [(List.mem_replicate.mp hc).2]
    exact Nat.one_pos
  · rcases Nat.eq_zero_or_pos blocks with rfl | hb
    · simp [evenShares] at hc
    · exact evenShares_pos (by omega) (Nat.min_le_right _ _) c hc

/-- The jobs share out all blocks. -/
theorem shares_sum {blocks workers : Nat} {singleSubmit : Bool} (h : 0 < workers) :
    (shares blocks workers singleSubmit).sum = blocks := by
  unfold shares
  split
  · simp
  · rcases Nat.eq_zero_or_pos blocks with rfl | hb
    · simp [evenShares]
    · exact evenShares_sum (by omega)

/-- Runs of blocks from the `first` one on tile what is left from there, if the
end of the last is no greater than a word. -/
theorem tiles_runsFrom {len blockSize : Nat} (h : 0 < blockSize)
    (hwrap : blockCount len blockSize * blockSize < Word.count) :
    ∀ (counts : List Nat) (first : Nat), (∀ c ∈ counts, 0 < c) →
      first + counts.sum = blockCount len blockSize →
      Tiles (min (first * blockSize) len) len (runsFrom len blockSize first counts)
  | [], first, _, hsum => by
    have hle := le_blockCount_mul len h
    rw [List.sum_nil, Nat.add_zero] at hsum
    rw [← hsum] at hle
    simp only [runsFrom, Tiles]
    omega
  | count :: counts, first, hpos, hsum => by
    have hcount : 0 < count := hpos count List.mem_cons_self
    rw [List.sum_cons] at hsum
    have hlt : first * blockSize < len := mul_lt_of_lt_blockCount h (by omega)
    have hnext : first * blockSize + blockSize ≤ (first + count) * blockSize := by
      rw [← Nat.succ_mul]
      exact Nat.mul_le_mul_right _ (by omega)
    have hlast : (first + count) * blockSize ≤ blockCount len blockSize * blockSize :=
      Nat.mul_le_mul_right _ (by omega)
    have hb : boundary blockSize first = first * blockSize := Nat.mod_eq_of_lt (by omega)
    have hb' : boundary blockSize (first + count) = (first + count) * blockSize :=
      Nat.mod_eq_of_lt (by omega)
    have ih := tiles_runsFrom h hwrap counts (first + count)
      (fun c hc => hpos c (List.mem_cons_of_mem _ hc)) (by omega)
    rw [runsFrom, hb, hb']
    refine ⟨?_, ?_, ih⟩
    · show first * blockSize = _
      omega
    · show _ < min ((first + count) * blockSize) len
      omega

/-- The jobs tile the buffer, for block sizes that are words and lengths that
can be allocated. -/
theorem tiles_jobs {len blockSize workers : Nat} (singleSubmit : Bool) (hb : 0 < blockSize)
    (hw : blockSize < Word.count) (hlen : len ≤ Memory.maxAllocation) (h : 0 < workers) :
    Tiles 0 len (jobs len blockSize workers singleSubmit) := by
  have hwrap := blockCount_mul_lt_word hb hw (Nat.lt_of_le_pred (by decide) hlen)
  have ht := tiles_runsFrom hb hwrap (shares (blockCount len blockSize) workers singleSubmit) 0
    (shares_pos h) (by rw [shares_sum h, Nat.zero_add])
  rw [Nat.zero_mul, Nat.zero_min] at ht
  exact ht

end Plan
end BlockTransfer
