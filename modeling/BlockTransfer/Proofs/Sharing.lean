import BlockTransfer.Proofs.Tiling
/-!
# Jobs share out the blocks

The jobs of a buffer are runs of whole blocks. Put together, the blocks of all jobs are
the blocks of the buffer in their order (`Plan.flatMap_blocks_runs`), so a job starts at
a multiple of the block size, and ends at one unless it is the last. The runs are as many
as the plan's block counts, and as long (`Plan.map_blockCount_runs`).

Jobs are planned in words. In a buffer that can be allocated a block's index times the
block size is a word, also for the index after the last
(`ByteRange.blockCount_mul_lt_word`), so the plan is the one that is made in numbers without
a limit (`Plan.runsFrom_eq_runs`).

Key definitions: `Plan.runs`, `Plan.Partition`.
Key theorems: `Plan.flatMap_blocks_runs`, `Plan.map_blockCount_runs`,
`Plan.runsFrom_eq_runs`, `Plan.partition_jobs`.
-/

namespace BlockTransfer

/-! ### Counting blocks -/

namespace ByteRange

variable {len blockSize : Nat}

/-- The number of blocks is told by how far they reach. -/
theorem blockCount_eq {count : Nat} (hb : 0 < blockSize) (hle : len ≤ count * blockSize)
    (hlt : count * blockSize < len + blockSize) : blockCount len blockSize = count := by
  refine Nat.div_eq_of_lt_le ?_ ?_
  · omega
  · rw [Nat.succ_mul]
    omega

theorem blockCount_eq_zero_iff (hb : 0 < blockSize) : blockCount len blockSize = 0 ↔ len = 0 := by
  have hle := le_blockCount_mul len hb
  constructor
  · intro h
    rw [h, Nat.zero_mul] at hle
    exact Nat.le_zero.mp hle
  · rintro rfl
    exact blockCount_eq hb (Nat.zero_le _) (by omega)

/-- The `i`-th block of `len` bytes. -/
def block (len blockSize i : Nat) : ByteRange := ⟨i * blockSize, min ((i + 1) * blockSize) len⟩

theorem blocks_whole (len blockSize : Nat) : (⟨0, len⟩ : ByteRange).blocks blockSize =
    (List.range' 0 (blockCount len blockSize)).map (block len blockSize) := by
  rw [blocks, ← List.range_eq_range']
  refine List.map_congr_left fun i _ => ?_
  simp only [block, Nat.zero_add]

end ByteRange

namespace Plan

open ByteRange (Tiles block blockCount)

variable {len blockSize : Nat}

/-! ### Runs in numbers without a limit -/

/-- The byte ranges of runs of blocks that follow one another, in numbers without a
limit. -/
def runs (len blockSize : Nat) : Nat → List Nat → List ByteRange
  | _, [] => []
  | first, count :: counts =>
    ⟨first * blockSize, min ((first + count) * blockSize) len⟩ ::
      runs len blockSize (first + count) counts

/-- Words are enough if the end of the last block is one. -/
theorem runsFrom_eq_runs (len : Nat) : ∀ (counts : List Nat) (first : Nat),
    (first + counts.sum) * blockSize < Word.count →
    runsFrom len blockSize first counts = runs len blockSize first counts
  | [], _, _ => rfl
  | count :: counts, first, hfit => by
    rw [List.sum_cons, ← Nat.add_assoc] at hfit
    have hnext : (first + count) * blockSize ≤ (first + count + counts.sum) * blockSize :=
      Nat.mul_le_mul_right _ (Nat.le_add_right _ _)
    have hfirst : first * blockSize ≤ (first + count) * blockSize :=
      Nat.mul_le_mul_right _ (Nat.le_add_right _ _)
    have hb : boundary blockSize first = first * blockSize := Nat.mod_eq_of_lt (by omega)
    have hb' : boundary blockSize (first + count) = (first + count) * blockSize :=
      Nat.mod_eq_of_lt (by omega)
    rw [runsFrom, runs, hb, hb', runsFrom_eq_runs len counts (first + count) hfit]

/-! ### The blocks of the runs -/

section Runs

variable (hb : 0 < blockSize)

include hb

/-- A run has as many blocks as it was made for. -/
theorem blockCount_run {first count : Nat} (hcount : 0 < count)
    (hlast : first + count ≤ blockCount len blockSize) :
    blockCount (ByteRange.length ⟨first * blockSize, min ((first + count) * blockSize) len⟩)
      blockSize = count := by
  have hstart : first * blockSize < len := ByteRange.mul_lt_of_lt_blockCount hb (by omega)
  have hreach := ByteRange.blockCount_mul_lt len hb
  have hend : (first + count) * blockSize ≤ blockCount len blockSize * blockSize :=
    Nat.mul_le_mul_right _ hlast
  have hsplit : (first + count) * blockSize = first * blockSize + count * blockSize :=
    Nat.add_mul _ _ _
  have hone : blockSize ≤ count * blockSize := Nat.le_mul_of_pos_left _ hcount
  refine ByteRange.blockCount_eq hb ?_ ?_ <;> simp only [ByteRange.length] <;> omega

/-- The blocks of a run are blocks of the whole. -/
theorem blocks_run {first count : Nat} (hcount : 0 < count)
    (hlast : first + count ≤ blockCount len blockSize) :
    ByteRange.blocks blockSize ⟨first * blockSize, min ((first + count) * blockSize) len⟩ =
      (List.range' first count).map (block len blockSize) := by
  rw [ByteRange.blocks, blockCount_run hb hcount hlast, List.range'_eq_map_range, List.map_map]
  refine List.map_congr_left fun i hi => ?_
  have hi : i + 1 ≤ count := List.mem_range.mp hi
  have hle : (first + i + 1) * blockSize ≤ (first + count) * blockSize :=
    Nat.mul_le_mul_right _ (by omega)
  have hstart : first * blockSize + i * blockSize = (first + i) * blockSize :=
    (Nat.add_mul _ _ _).symm
  have hstop : first * blockSize + (i + 1) * blockSize = (first + i + 1) * blockSize := by
    rw [← Nat.add_mul, Nat.add_assoc]
  simp only [Function.comp_apply, block, hstart, hstop, ByteRange.mk.injEq, true_and]
  omega

/-- The blocks of all runs are the blocks that they were made for, in their order. -/
theorem flatMap_blocks_runs : ∀ (counts : List Nat) (first : Nat), (∀ c ∈ counts, 0 < c) →
    first + counts.sum ≤ blockCount len blockSize →
    (runs len blockSize first counts).flatMap (ByteRange.blocks blockSize) =
      (List.range' first counts.sum).map (block len blockSize)
  | [], _, _, _ => rfl
  | count :: counts, first, hpos, hlast => by
    obtain ⟨hcount, hpos⟩ := List.forall_mem_cons.mp hpos
    rw [List.sum_cons] at hlast ⊢
    rw [runs, List.flatMap_cons, blocks_run hb hcount (by omega),
      flatMap_blocks_runs counts (first + count) hpos (by omega), ← List.map_append,
      List.range'_append_1]

/-- The runs have the block counts that they were made for. -/
theorem map_blockCount_runs : ∀ (counts : List Nat) (first : Nat), (∀ c ∈ counts, 0 < c) →
    first + counts.sum ≤ blockCount len blockSize →
    (runs len blockSize first counts).map (fun r => blockCount r.length blockSize) = counts
  | [], _, _, _ => rfl
  | count :: counts, first, hpos, hlast => by
    obtain ⟨hcount, hpos⟩ := List.forall_mem_cons.mp hpos
    rw [List.sum_cons] at hlast
    rw [runs, List.map_cons, blockCount_run hb hcount (by omega),
      map_blockCount_runs counts (first + count) hpos (by omega)]

end Runs

theorem length_runs (len blockSize : Nat) : ∀ (counts : List Nat) (first : Nat),
    (runs len blockSize first counts).length = counts.length
  | [], _ => rfl
  | count :: counts, first => by
    rw [runs, List.length_cons, List.length_cons, length_runs len blockSize counts]

/-- A run starts and ends at a block's start, or it is cut off at the end. -/
theorem dvd_of_mem_runs {r : ByteRange} : ∀ {counts : List Nat} {first : Nat},
    r ∈ runs len blockSize first counts →
    blockSize ∣ r.start ∧ (blockSize ∣ r.stop ∨ r.stop = len)
  | [], _, h => by cases h
  | count :: counts, first, h => by
    rcases List.mem_cons.mp h with rfl | h
    · refine ⟨Nat.dvd_mul_left _ _, ?_⟩
      rcases Nat.le_total ((first + count) * blockSize) len with hle | hle
      · exact .inl ((Nat.min_eq_left hle).symm ▸ Nat.dvd_mul_left _ _)
      · exact .inr (Nat.min_eq_right hle)
    · exact dvd_of_mem_runs h

/-- Runs of one block each are the blocks. -/
theorem runs_replicate_one (len blockSize : Nat) : ∀ (n first : Nat),
    runs len blockSize first (List.replicate n 1) =
      (List.range' first n).map (block len blockSize)
  | 0, _ => rfl
  | n + 1, first => by
    rw [List.replicate_succ, runs, runs_replicate_one len blockSize n, List.range'_succ,
      List.map_cons]
    rfl

/-! ### How the blocks are shared -/

theorem length_evenShares {blocks runs : Nat} (h : runs = 0 → blocks = 0) :
    (evenShares blocks runs).length = runs := by
  have hmod : blocks % runs ≤ runs := by
    rcases Nat.eq_zero_or_pos runs with hr | hr
    · rw [h hr, Nat.zero_mod]
      exact Nat.zero_le _
    · exact Nat.le_of_lt (Nat.mod_lt _ hr)
  rw [evenShares, List.length_append, List.length_replicate, List.length_replicate]
  omega

theorem length_shares (blocks : Nat) {workers : Nat} (h : 0 < workers) (singleSubmit : Bool) :
    (shares blocks workers singleSubmit).length =
      if singleSubmit then blocks else min workers blocks := by
  cases singleSubmit with
  | true => exact List.length_replicate
  | false => exact length_evenShares fun hmin => by omega

/-- Any two shares differ by at most one, the larger ones come first. -/
theorem pairwise_evenShares (blocks runs : Nat) :
    (evenShares blocks runs).Pairwise fun a b => b ≤ a ∧ a ≤ b + 1 := by
  refine List.pairwise_append.mpr ⟨?_, ?_, fun a ha b hb => ?_⟩
  · exact List.pairwise_replicate.mpr (.inr ⟨Nat.le_refl _, Nat.le_succ _⟩)
  · exact List.pairwise_replicate.mpr (.inr ⟨Nat.le_refl _, Nat.le_succ _⟩)
  · rw [List.eq_of_mem_replicate ha, List.eq_of_mem_replicate hb]
    exact ⟨Nat.le_succ _, Nat.le_refl _⟩

/-! ### The jobs of a buffer -/

/-- How jobs cut up `len` bytes. -/
structure Partition (len blockSize workers : Nat) (singleSubmit : Bool)
    (jobs : List ByteRange) : Prop where
  /-- No job is empty, the first starts at zero, each starts where the one before it
  stops, and the last stops at the end. -/
  tiles : Tiles 0 len jobs
  nil_iff : jobs = [] ↔ len = 0
  /-- All boundaries but the end of the last job are multiples of the block size. -/
  aligned : ∀ r ∈ jobs, blockSize ∣ r.start ∧ (blockSize ∣ r.stop ∨ r.stop = len)
  /-- The jobs put together are the blocks of the whole. -/
  whole : jobs.flatMap (ByteRange.blocks blockSize) = ByteRange.blocks blockSize ⟨0, len⟩
  count : jobs.length =
    if singleSubmit then blockCount len blockSize else min workers (blockCount len blockSize)
  /-- If every block is submitted on its own, the jobs are the blocks. -/
  single : singleSubmit = true → jobs = ByteRange.blocks blockSize ⟨0, len⟩
  /-- Otherwise the block counts of any two jobs differ by at most one, and the larger
  ones come first. -/
  even : singleSubmit = false → jobs.Pairwise fun q r =>
    blockCount r.length blockSize ≤ blockCount q.length blockSize ∧
      blockCount q.length blockSize ≤ blockCount r.length blockSize + 1
  /-- A block's index times the block size is a word, also for the index after the last. -/
  inWords : ∀ k ≤ blockCount len blockSize, k * blockSize < Word.count
  /-- Numbers without a limit give the same jobs. -/
  exact : jobs = runs len blockSize 0 (shares (blockCount len blockSize) workers singleSubmit)

theorem partition_jobs {len blockSize workers : Nat} (singleSubmit : Bool)
    (hlen : len < Word.signedLimit) (hb : 0 < blockSize) (hword : blockSize < Word.count)
    (h : 0 < workers) :
    Partition len blockSize workers singleSubmit (jobs len blockSize workers singleSubmit) := by
  have hfits (k : Nat) (hk : k ≤ blockCount len blockSize) : k * blockSize < Word.count :=
    Nat.lt_of_le_of_lt (Nat.mul_le_mul_right _ hk) (ByteRange.blockCount_mul_lt_word hb hword hlen)
  have hpos : ∀ c ∈ shares (blockCount len blockSize) workers singleSubmit, 0 < c :=
    shares_pos h
  have hsum : (shares (blockCount len blockSize) workers singleSubmit).sum =
      blockCount len blockSize := shares_sum h
  have hlast : 0 + (shares (blockCount len blockSize) workers singleSubmit).sum ≤
      blockCount len blockSize := Nat.le_of_eq (by rw [hsum, Nat.zero_add])
  have hexact : jobs len blockSize workers singleSubmit =
      runs len blockSize 0 (shares (blockCount len blockSize) workers singleSubmit) :=
    runsFrom_eq_runs len _ _ (hfits _ hlast)
  have hcount : (jobs len blockSize workers singleSubmit).length = if singleSubmit
      then blockCount len blockSize else min workers (blockCount len blockSize) := by
    rw [hexact, length_runs, length_shares _ h]
  refine ⟨tiles_jobs singleSubmit hb hword (Nat.le_pred_of_lt hlen) h, ?_, ?_, ?_, hcount, ?_, ?_,
    hfits, hexact⟩
  · have hzero : blockCount len blockSize = 0 ↔ len = 0 := ByteRange.blockCount_eq_zero_iff hb
    rw [← List.length_eq_zero_iff, hcount, ← hzero]
    split <;> omega
  · rw [hexact]
    exact fun r hr => dvd_of_mem_runs hr
  · rw [hexact, flatMap_blocks_runs hb _ 0 hpos hlast, hsum, ByteRange.blocks_whole]
  · rintro rfl
    rw [hexact, ByteRange.blocks_whole]
    exact runs_replicate_one len blockSize _ 0
  · rintro rfl
    have hcounts := map_blockCount_runs hb _ 0 hpos hlast
    have heven : (shares (blockCount len blockSize) workers false).Pairwise
        fun a b => b ≤ a ∧ a ≤ b + 1 := pairwise_evenShares _ _
    rw [hexact]
    exact List.pairwise_map.mp (hcounts.symm ▸ heven)

/-- The second of two blocks is cut off after its first byte. The whole of it would end just
below the number of words. -/
theorem partition_jobs_two_halves :
    jobs 0x7fffffffffffffff 0x7ffffffffffffffe 3 false =
        [⟨0, 0x7ffffffffffffffe⟩, ⟨0x7ffffffffffffffe, 0x7fffffffffffffff⟩] ∧
      Partition 0x7fffffffffffffff 0x7ffffffffffffffe 3 false
        (jobs 0x7fffffffffffffff 0x7ffffffffffffffe 3 false) :=
  ⟨by decide, partition_jobs false (by decide) (by decide) (by decide) (by decide)⟩

end Plan
end BlockTransfer
