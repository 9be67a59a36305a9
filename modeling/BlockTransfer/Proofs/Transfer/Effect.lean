import BlockTransfer.Proofs.Operation.Running
/-!
# What moving a range does, byte by byte

A range of a buffer is moved to or from the same offsets of a regular file, block
by block. A write always succeeds. A read succeeds if the file reaches the end of
the range; otherwise the blocks that the file holds whole are delivered and the
first one that it does not hold whole is reported. All that changes is told byte
by byte (`Bytes.Copied`), and a success looks the same for every block size.

Key definitions: `Bytes.Copied`, `ByteRange.wholeBlocks`, `Transfer.Effect`.
Key theorems: `Transfer.moveBlocks_write`, `Transfer.moveBlocks_read`,
`Transfer.moveBlocks_cutShort`, `Transfer.run_exact`.
-/

namespace BlockTransfer

/-! ### Copied bytes -/

namespace Bytes

/-- `after` is `before` with the bytes from `start` up to `stop` taken from
`source`; zeros fill a gap between the end of `before` and `start`. -/
structure Copied (source before : Bytes) (start stop : Nat) (after : Bytes) : Prop where
  length : after.length = max before.length stop
  inside : ∀ i, start ≤ i → i < stop → after[i]? = source[i]?
  gap : ∀ i, before.length ≤ i → i < start → after[i]? = some 0
  outside : ∀ i, i < before.length → i < start ∨ stop ≤ i → after[i]? = before[i]?

variable {source before : Bytes} {r : ByteRange}

/-- A range that the source has. -/
theorem copied_copyRange (hr : r.start < r.stop) (hs : r.stop ≤ source.length) :
    Copied source before r.start r.stop (copyRange source r before) := by
  have hreach : reach source r = r.stop := Nat.min_eq_left hs
  have hbyte := getElem?_copyRange source before r
  rw [hreach] at hbyte
  simp only [if_neg (Nat.not_le.mpr hr)] at hbyte
  constructor
  · rw [length_copyRange, hreach, if_neg (Nat.not_le.mpr hr)]
  · intro i hstart hstop
    rw [hbyte, if_neg (Nat.not_lt.mpr hstart), if_pos hstop]
  · intro i hlen hstart
    rw [hbyte, if_pos hstart, if_neg (Nat.not_lt.mpr hlen)]
  · intro i hlen hout
    rcases Nat.lt_or_ge i r.start with hstart | hstart
    · rw [hbyte, if_pos hstart, if_pos hlen]
    · rw [hbyte, if_neg (Nat.not_lt.mpr hstart), if_neg (by omega)]

/-- An empty range inside changes nothing. -/
theorem copied_empty {a : Nat} (ha : a ≤ before.length) : Copied source before a a before :=
  ⟨(Nat.max_eq_left ha).symm, fun _ h h' => absurd h (Nat.not_le.mpr h'),
    fun _ h h' => absurd (Nat.le_trans ha h) (Nat.not_le.mpr h'), fun _ _ _ => rfl⟩

end Bytes

/-! ### Blocks -/

namespace ByteRange

variable {r block : ByteRange} {blockSize : Nat}

/-- A block is full, or it is what is left of the range. -/
theorem length_of_mem_blocks (hb : 0 < blockSize) (h : block ∈ r.blocks blockSize) :
    block.length = min blockSize (r.stop - block.start) := by
  obtain ⟨i, hi, rfl⟩ := List.mem_map.mp h
  have hlt : i * blockSize < r.length := mul_lt_of_lt_blockCount hb (List.mem_range.mp hi)
  have hsucc : (i + 1) * blockSize = i * blockSize + blockSize := Nat.succ_mul i blockSize
  simp only [length] at hlt ⊢
  omega

theorem blocks_of_le (h : r.stop ≤ r.start) (hb : 0 < blockSize) : r.blocks blockSize = [] := by
  have hlen : r.length = 0 := Nat.sub_eq_zero_of_le h
  have hcount : blockCount r.length blockSize = 0 := by
    rw [hlen, blockCount, Nat.zero_add]
    exact Nat.div_eq_of_lt (Nat.sub_lt hb Nat.one_pos)
  rw [blocks, hcount, List.range_zero, List.map_nil]

/-- Where the last block from `start` on ends that `size` bytes hold whole; at
`start` if they do not reach it. -/
def wholeBlocks (blockSize size start : Nat) : Nat :=
  start + blockSize * ((size - start) / blockSize)

theorem wholeBlocks_le {size start : Nat} (h : start ≤ size) (blockSize : Nat) :
    wholeBlocks blockSize size start ≤ size := by
  have := Nat.mul_div_le (size - start) blockSize
  unfold wholeBlocks
  omega

theorem wholeBlocks_of_lt {size start : Nat} (hb : 0 < blockSize) (h : size < start + blockSize) :
    wholeBlocks blockSize size start = start := by
  rw [wholeBlocks, Nat.div_eq_of_lt (by omega), Nat.mul_zero, Nat.add_zero]

theorem wholeBlocks_step {size start : Nat} (hb : 0 < blockSize) (h : start + blockSize ≤ size) :
    wholeBlocks blockSize size (start + blockSize) = wholeBlocks blockSize size start := by
  have hsplit : size - start = size - (start + blockSize) + blockSize := by omega
  rw [wholeBlocks, wholeBlocks, hsplit, Nat.add_div_right _ hb, Nat.mul_succ]
  omega

end ByteRange

namespace Transfer

open Bytes (Copied copyRange)
open ByteRange (Tiles wholeBlocks)

variable {e : Endpoints} {s : Storage} {data : Bytes} {blockSize : Nat}

/-! ### One block -/

theorem moveBlock_write (hfile : s.files.entryAt? e.handle.at_ = some (.file data)) (stop : Nat)
    (block : ByteRange) : moveBlock .write e stop block s =
      (.ok (), s.putFile e.handle.at_ (copyRange (s.memory.bytes e.buffer) block data)) := by
  rw [← FileSystem.content_eq hfile]
  rfl

/-- What a block's read finds in the file. -/
theorem readAt_block (hfile : s.files.entryAt? e.handle.at_ = some (.file data))
    (block : ByteRange) : s.files.readAt e.handle block.start block.length =
      .ok (Bytes.slice data block.start block.length) := by
  rw [Operation.readAt_eq_slice (by rw [hfile]; nofun), FileSystem.content_eq hfile]

theorem moveBlock_read (hfile : s.files.entryAt? e.handle.at_ = some (.file data)) (stop : Nat)
    {block : ByteRange} (hb : block.start ≤ block.stop) (hlen : block.stop ≤ data.length) :
    moveBlock .read e stop block s =
      (.ok (), s.putBytes e.buffer (copyRange data block (s.memory.bytes e.buffer))) := by
  have hslice : ¬(Bytes.slice data block.start block.length).length < block.length := by
    rw [Bytes.length_slice]
    simp only [ByteRange.length]
    omega
  simp only [moveBlock, readBlock, readAt_block hfile, if_neg hslice]
  rfl

/-- A block that the file does not hold whole is left where it is. -/
theorem moveBlock_cutShort (hfile : s.files.entryAt? e.handle.at_ = some (.file data)) (stop : Nat)
    {block : ByteRange} (hb : block.start < block.stop) (hlen : data.length < block.stop) :
    moveBlock .read e stop block s = (.error (.shortRead e.path stop block.start), s) := by
  have hslice : (Bytes.slice data block.start block.length).length < block.length := by
    rw [Bytes.length_slice]
    simp only [ByteRange.length]
    omega
  simp only [moveBlock, readBlock, readAt_block hfile, if_pos hslice]

/-! ### Blocks that follow one another -/

/-- Written one after the other they leave in the file what the whole would. -/
theorem moveBlocks_write (stop : Nat) : ∀ {a b : Nat} {blocks : List ByteRange} {s : Storage}
    {data : Bytes}, s.files.entryAt? e.handle.at_ = some (.file data) → Tiles a b blocks → a < b →
    moveBlocks .write e stop blocks s =
      (.ok (), s.putFile e.handle.at_ (copyRange (s.memory.bytes e.buffer) ⟨a, b⟩ data))
  | a, _, [], _, _, _, ht, hab => absurd ht (Nat.ne_of_lt hab)
  | a, b, q :: qs, s, data, hfile, ⟨hq, hlt, ht⟩, _ => by
    have hmove := moveBlock_write hfile stop q
    rw [show q = ⟨a, q.stop⟩ by rw [← hq]] at hmove ⊢
    rw [moveBlocks, hmove]
    cases qs with
    | nil =>
      cases ht
      rfl
    | cons q' qs =>
      have hne : e.handle.at_ ≠ [] := fun h => by
        rw [h] at hfile
        cases hfile
      have hrest := moveBlocks_write stop (b := b) (s := s.putFile e.handle.at_
        (copyRange (s.memory.bytes e.buffer) ⟨a, q.stop⟩ data))
        (FileSystem.entryAt?_insert_self _ hne) ht (Nat.lt_of_lt_of_le ht.2.1 ht.2.2.le)
      simp only [hrest, Storage.memory_putFile, Storage.putFile_putFile,
        Bytes.copyRange_split _ _ (Nat.le_of_lt hlt) ht.le]

/-- Read from a file that holds all of them they leave in the buffer what the
whole would. -/
theorem moveBlocks_read (stop : Nat) : ∀ {a b : Nat} {blocks : List ByteRange} {s : Storage},
    s.files.entryAt? e.handle.at_ = some (.file data) →
    e.buffer.region < s.memory.regions.length → Tiles a b blocks → b ≤ data.length →
    moveBlocks .read e stop blocks s =
      (.ok (), s.putBytes e.buffer (copyRange data ⟨a, b⟩ (s.memory.bytes e.buffer)))
  | a, _, [], s, _, _, ht, _ => by
    cases ht
    rw [Bytes.copyRange_empty, Storage.putBytes, Memory.store_bytes]
    rfl
  | a, b, q :: qs, s, hfile, hregion, ⟨hq, hlt, ht⟩, hb => by
    have hmove := moveBlock_read hfile stop (hq.symm ▸ Nat.le_of_lt hlt) (Nat.le_trans ht.le hb)
    rw [show q = ⟨a, q.stop⟩ by rw [← hq]] at hmove ⊢
    have hrest := moveBlocks_read stop (s := s.putBytes e.buffer
      (copyRange data ⟨a, q.stop⟩ (s.memory.bytes e.buffer))) hfile
      (by rwa [Storage.memory_putBytes, Memory.length_regions_store]) ht hb
    rw [moveBlocks, hmove]
    simp only [hrest, Storage.memory_putBytes, Memory.bytes_store _ _ _ hregion,
      Storage.putBytes_putBytes, Bytes.copyRange_split _ _ (Nat.le_of_lt hlt) ht.le]

/-- Read from a file that ends before the last of them does: those that it holds
whole are delivered, and the first that it does not is reported. -/
theorem moveBlocks_cutShort (stop : Nat) (hblock : 0 < blockSize) :
    ∀ {a b : Nat} {blocks : List ByteRange} {s : Storage},
    s.files.entryAt? e.handle.at_ = some (.file data) →
    e.buffer.region < s.memory.regions.length → Tiles a b blocks →
    (∀ r ∈ blocks, r.length = min blockSize (b - r.start)) → a < b → data.length < b →
    moveBlocks .read e stop blocks s =
      (.error (.shortRead e.path stop (wholeBlocks blockSize data.length a)),
        s.putBytes e.buffer (copyRange data ⟨a, wholeBlocks blockSize data.length a⟩
          (s.memory.bytes e.buffer)))
  | a, _, [], _, _, _, ht, _, hab, _ => absurd ht (Nat.ne_of_lt hab)
  | a, b, q :: qs, s, hfile, hregion, ⟨hq, hlt, ht⟩, hfull, hab, hb => by
    obtain ⟨hlength, hfull⟩ := List.forall_mem_cons.mp hfull
    simp only [ByteRange.length, hq] at hlength
    by_cases hstop : q.stop ≤ data.length
    · -- the block is inside the file, so it is not the last one and it is full
      have hnext : q.stop = a + blockSize := by omega
      have hmove := moveBlock_read hfile stop (hq.symm ▸ Nat.le_of_lt hlt) hstop
      have hrest := moveBlocks_cutShort stop hblock (s := s.putBytes e.buffer
        (copyRange data q (s.memory.bytes e.buffer))) hfile
        (by rwa [Storage.memory_putBytes, Memory.length_regions_store]) ht hfull (by omega) hb
      have hwhole : wholeBlocks blockSize data.length q.stop =
          wholeBlocks blockSize data.length a := by
        rw [hnext, ByteRange.wholeBlocks_step hblock (hnext ▸ hstop)]
      have hle : q.stop ≤ wholeBlocks blockSize data.length q.stop := Nat.le_add_right _ _
      rw [moveBlocks, hmove]
      simp only [hrest, Storage.memory_putBytes, Memory.bytes_store _ _ _ hregion,
        Storage.putBytes_putBytes]
      rw [show q = ⟨a, q.stop⟩ by rw [← hq], Bytes.copyRange_split _ _ (Nat.le_of_lt hlt) hle,
        hwhole]
    · have hmove := moveBlock_cutShort hfile stop (hq.symm ▸ hlt) (Nat.not_le.mp hstop)
      rw [moveBlocks, hmove, ByteRange.wholeBlocks_of_lt hblock (by omega), Bytes.copyRange_empty,
        Storage.putBytes, Memory.store_bytes, hq]

/-! ### A range -/

/-- The four ways in which moving a range ends. -/
inductive Effect (e : Endpoints) (r : ByteRange) (blockSize : Nat) (data : Bytes) (s : Storage) :
    Direction → Except TransferError Unit × Storage → Prop
  /-- There is nothing to move. -/
  | nothing {d} (empty : r.stop ≤ r.start) : Effect e r blockSize data s d (.ok (), s)
  /-- The range is in the file; nothing but the file has changed. -/
  | written {after} (nonempty : r.start < r.stop)
      (copied : Copied (s.memory.bytes e.buffer) data r.start r.stop after) :
      Effect e r blockSize data s .write (.ok (), s.putFile e.handle.at_ after)
  /-- The range is in the buffer; nothing but the buffer has changed. -/
  | filled {after} (nonempty : r.start < r.stop) (reaches : r.stop ≤ data.length)
      (copied : Copied data (s.memory.bytes e.buffer) r.start r.stop after)
      (length : after.length = (s.memory.bytes e.buffer).length) :
      Effect e r blockSize data s .read (.ok (), s.putBytes e.buffer after)
  /-- The blocks that the file holds whole are in the buffer; nothing but the
  buffer has changed. The error tells where they end. -/
  | cutShort {after} (nonempty : r.start < r.stop) (ends : data.length < r.stop)
      (copied : Copied data (s.memory.bytes e.buffer) r.start
        (wholeBlocks blockSize data.length r.start) after)
      (length : after.length = (s.memory.bytes e.buffer).length) :
      Effect e r blockSize data s .read
        (.error (.shortRead e.path r.stop (wholeBlocks blockSize data.length r.start)),
          s.putBytes e.buffer after)

/-- What moving a range of a buffer to or from a regular file that holds `data`
does. -/
structure Exact (d : Direction) (e : Endpoints) (r : ByteRange) (blockSize : Nat) (data : Bytes)
    (s : Storage) : Prop where
  effect : Effect e r blockSize data s d (run d e r blockSize s)
  /-- The blocks lead from the start of the range to its end. -/
  tiles : r.start ≤ r.stop → Tiles r.start r.stop (r.blocks blockSize)
  /-- Every block lies in the buffer, and fits into as much memory as one block or
  the range takes, whichever is less. -/
  inside : ∀ block ∈ r.blocks blockSize,
    block.stop ≤ e.buffer.len ∧ block.length ≤ min blockSize r.length
  /-- A success looks the same for every block size. -/
  anyBlockSize : ∀ blockSize', 0 < blockSize' → (run d e r blockSize s).1 = .ok () →
    run d e r blockSize' s = run d e r blockSize s

section Range

variable {r : ByteRange} (hblock : 0 < blockSize)
  (hfile : s.files.entryAt? e.handle.at_ = some (.file data))

include hblock

theorem run_of_le (h : r.stop ≤ r.start) (d : Direction) (s : Storage) :
    run d e r blockSize s = (.ok (), s) := by
  rw [run, ByteRange.blocks_of_le h hblock]
  rfl

include hfile

theorem run_write (h : r.start < r.stop) : run .write e r blockSize s =
    (.ok (), s.putFile e.handle.at_ (copyRange (s.memory.bytes e.buffer) r data)) :=
  moveBlocks_write r.stop hfile (ByteRange.tiles_blocks r hblock (Nat.le_of_lt h)) h

variable (hregion : e.buffer.region < s.memory.regions.length)

include hregion

theorem run_read (h : r.start < r.stop) (hlen : r.stop ≤ data.length) :
    run .read e r blockSize s =
      (.ok (), s.putBytes e.buffer (copyRange data r (s.memory.bytes e.buffer))) :=
  moveBlocks_read r.stop hfile hregion (ByteRange.tiles_blocks r hblock (Nat.le_of_lt h)) hlen

theorem run_cutShort (h : r.start < r.stop) (hlen : data.length < r.stop) :
    run .read e r blockSize s =
      (.error (.shortRead e.path r.stop (wholeBlocks blockSize data.length r.start)),
        s.putBytes e.buffer (copyRange data ⟨r.start, wholeBlocks blockSize data.length r.start⟩
          (s.memory.bytes e.buffer))) :=
  moveBlocks_cutShort r.stop hblock hfile hregion
    (ByteRange.tiles_blocks r hblock (Nat.le_of_lt h))
    (fun _ hq => ByteRange.length_of_mem_blocks hblock hq) h hlen

/-- A success does not depend on the block size. -/
theorem run_congr_blockSize {blockSize' : Nat} (hblock' : 0 < blockSize') {d : Direction}
    (hok : (run d e r blockSize s).1 = .ok ()) :
    run d e r blockSize' s = run d e r blockSize s := by
  rcases Nat.lt_or_ge r.start r.stop with h | h
  · cases d with
    | write => rw [run_write hblock hfile h, run_write hblock' hfile h]
    | read =>
      rcases Nat.lt_or_ge data.length r.stop with hlen | hlen
      · rw [run_cutShort hblock hfile hregion h hlen] at hok
        cases hok
      · rw [run_read hblock hfile hregion h hlen, run_read hblock' hfile hregion h hlen]
  · rw [run_of_le hblock h, run_of_le hblock' h]

variable (hbuffer : (s.memory.bytes e.buffer).length = e.buffer.len) (hstop : r.stop ≤ e.buffer.len)

include hbuffer hstop

theorem run_effect (d : Direction) : Effect e r blockSize data s d (run d e r blockSize s) := by
  rcases Nat.lt_or_ge r.start r.stop with h | h
  · cases d with
    | write =>
      rw [run_write hblock hfile h]
      exact .written h (Bytes.copied_copyRange h (hbuffer ▸ hstop))
    | read =>
      have hin : r.stop ≤ (s.memory.bytes e.buffer).length := hbuffer ▸ hstop
      rcases Nat.lt_or_ge data.length r.stop with hlen | hlen
      · rw [run_cutShort hblock hfile hregion h hlen]
        have hle : wholeBlocks blockSize data.length r.start ≤ r.stop := by
          rcases Nat.le_total r.start data.length with hstart | hstart
          · exact Nat.le_trans (ByteRange.wholeBlocks_le hstart _) (Nat.le_of_lt hlen)
          · rw [ByteRange.wholeBlocks_of_lt hblock (by omega)]
            exact Nat.le_of_lt h
        refine .cutShort h hlen ?_ (Bytes.length_copyRange_of_le (Nat.le_trans hle hin))
        rcases Nat.lt_or_ge r.start (wholeBlocks blockSize data.length r.start) with hm | hm
        · -- a block was delivered, so the file reaches beyond the start of the range
          have hstart : r.start ≤ data.length := by
            by_contra hstart
            rw [ByteRange.wholeBlocks_of_lt hblock (by omega)] at hm
            exact Nat.lt_irrefl _ hm
          exact Bytes.copied_copyRange
            (r := ⟨r.start, wholeBlocks blockSize data.length r.start⟩) hm
            (ByteRange.wholeBlocks_le hstart blockSize)
        · have heq : wholeBlocks blockSize data.length r.start = r.start :=
            Nat.le_antisymm hm (Nat.le_add_right _ _)
          rw [heq, Bytes.copyRange_empty]
          exact Bytes.copied_empty (Nat.le_trans (Nat.le_of_lt h) hin)
      · rw [run_read hblock hfile hregion h hlen]
        exact .filled h hlen (Bytes.copied_copyRange h hlen) (Bytes.length_copyRange_of_le hin)
  · rw [run_of_le hblock h]
    exact .nothing h

theorem run_exact (d : Direction) : Exact d e r blockSize data s where
  effect := run_effect hblock hfile hregion hbuffer hstop d
  tiles := ByteRange.tiles_blocks r hblock
  inside block hmem := by
    have hlength := ByteRange.length_of_mem_blocks hblock hmem
    have hr : r.start ≤ r.stop := by
      by_contra hle
      rw [ByteRange.blocks_of_le (Nat.le_of_not_le hle) hblock] at hmem
      cases hmem
    obtain ⟨hstart, -, hle⟩ := (ByteRange.tiles_blocks r hblock hr).mem _ hmem
    refine ⟨Nat.le_trans hle hstop, ?_⟩
    simp only [ByteRange.length] at hlength ⊢
    omega
  anyBlockSize _ hblock' := run_congr_blockSize hblock hfile hregion hblock'

end Range

/-! ### A file that ends inside a block

Blocks of two bytes from the second byte on: the file's last byte is in a block
that the file does not hold whole, so it is not delivered. -/

namespace EndsInside

def endpoints : Endpoints := ⟨⟨["f"]⟩, "f", ⟨0, .u8, 8, none⟩⟩

def storage : Storage where
  files := { entries := [(["f"], .file [1, 2, 3, 4, 5, 6])] }
  memory := { regions := [Bytes.zeros 8] }

end EndsInside

open EndsInside in
theorem run_exact_ends_inside :
    Exact .read endpoints ⟨1, 8⟩ 2 [1, 2, 3, 4, 5, 6] storage ∧
    run .read endpoints ⟨1, 8⟩ 2 storage =
      (.error (.shortRead "f" 8 5), storage.putBytes endpoints.buffer [0, 2, 3, 4, 5, 0, 0, 0]) :=
  ⟨run_exact (by decide) (by decide) (by decide) (by decide) (by decide) .read, rfl⟩

end Transfer
end BlockTransfer
