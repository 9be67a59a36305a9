import BlockTransfer.Proofs.Operation.Carrying
/-!
# Running an operation whose file is open

An operation is `Located` once its file is found or made, and `Ready` once the
file is also as long as the buffer needs. Nothing can then go wrong but that
the file to read is a directory: `Operation.verdict` tells beforehand how the
run will end, and what it does to the storage is to carry its range. That is so
for one block, for a range block by block, and for the whole run with the
comparison at the end, which finds no difference.

Both states last: ranges that are carried elsewhere and files that are set
elsewhere leave a ready operation ready.

Key definitions: `Operation.Located`, `Operation.Ready`, `Operation.verdict`.
Key theorems: `Operation.moveBlock_eq`, `Operation.transfer_eq`,
`Operation.validateIfAsked_eq_ok`, `Operation.runInline_eq`, `Operation.Ready.carry`.
-/

namespace BlockTransfer
namespace Operation

/-- The operation's path leads to its file, and its buffer is there. -/
structure Located (o : Operation) (s : Storage) : Prop where
  blockSize : 0 < o.blockSize
  holds : s.memory.Holds o.buffer
  leads : s.files.openRead o.endpoints.path = .ok o.handle
  file : o.direction = .write → ∃ data, s.files.Keeps o.handle.at_ data

/-- The operation's file is as long as its buffer needs. -/
structure Ready (o : Operation) (s : Storage) : Prop extends Located o s where
  target : o.direction = .write → (s.files.content o.handle).length = o.buffer.len
  source : o.direction = .read → s.files.entryAt? o.handle.at_ ≠ some .directory →
    o.buffer.len ≤ (s.files.content o.handle).length

/-- How the run of a ready operation ends: a directory cannot be read, unless
there is nothing to read. -/
def verdict (o : Operation) (s : Storage) : Except TransferError Unit :=
  if o.direction = .read ∧ s.files.entryAt? o.handle.at_ = some .directory ∧ 0 < o.buffer.len then
    .error (.ofOs o.endpoints.path (.ofKind .isADirectory))
  else .ok ()

variable {o o' : Operation} {s s' : Storage} {r : ByteRange}

theorem Located.grounded (h : o.Located s) : o.Grounded s := ⟨h.holds.region, h.file⟩

theorem Ready.grounded (h : o.Ready s) : o.Grounded s := h.toLocated.grounded

theorem verdict_of_write (h : o.direction = .write) (s : Storage) : o.verdict s = .ok () := by
  rw [verdict, h, if_neg (by simp)]

theorem verdict_of_directory (h : o.direction = .read)
    (hs : s.files.entryAt? o.handle.at_ = some .directory) (hlen : 0 < o.buffer.len) :
    o.verdict s = .error (.ofOs o.endpoints.path (.ofKind .isADirectory)) := by
  rw [verdict, if_pos ⟨h, hs, hlen⟩]

theorem verdict_of_file (hs : s.files.entryAt? o.handle.at_ ≠ some .directory) :
    o.verdict s = .ok () := by
  rw [verdict, if_neg fun h => hs h.2.1]

theorem verdict_of_empty (hlen : o.buffer.len = 0) (s : Storage) : o.verdict s = .ok () := by
  rw [verdict, if_neg fun h => Nat.ne_of_gt h.2.2 hlen]

/-- An operation that cannot succeed reads a directory, and there is something
to read. -/
theorem directory_of_verdict {e : TransferError} (h : o.verdict s = .error e) :
    o.direction = .read ∧ s.files.entryAt? o.handle.at_ = some .directory ∧ 0 < o.buffer.len := by
  unfold verdict at h
  split at h
  · assumption
  · cases h

/-! ### What is ready stays so -/

/-- Directories stay directories, and nothing else becomes one. -/
theorem directory_congr (h : s.files.SameSorts s'.files) (p : CanonicalPath) :
    s.files.entryAt? p = some .directory ↔ s'.files.entryAt? p = some .directory := by
  have key : ∀ {e : Option Entry}, e.map Entry.sort = some .directory ↔ e = some .directory := by
    intro e
    rcases e with _ | _ | _ | _ <;> simp [Entry.sort]
  rw [← key, h.sort p, key]

theorem verdict_congr (h : s.files.SameSorts s'.files) : o.verdict s = o.verdict s' := by
  simp only [verdict, directory_congr h]

/-- Carrying a range keeps the sorts of all entries. -/
theorem carry_sameSorts (h : o.Grounded s) (r : ByteRange) :
    (o.carry r s).files.SameSorts s.files := by
  cases hd : o.direction with
  | read =>
    rw [files_carry_read hd]
    exact .refl _
  | write =>
    obtain ⟨data, hk⟩ := h.file hd
    rw [carry_write hd]
    exact FileSystem.sameSorts_insert _ ⟨data, hk.entry⟩

theorem carry_sameLayout (h : o.Ready s) (hr : r.stop ≤ o.buffer.len) :
    (o.carry r s).SameLayout s := by
  cases hd : o.direction with
  | write =>
    obtain ⟨data, hk⟩ := h.file hd
    have hlen : r.stop ≤ (s.files.content o.handle).length := h.target hd ▸ hr
    rw [carry_write hd]
    refine Storage.putFile_sameLayout hk.entry ?_
    rw [Bytes.length_copyRange_of_le hlen, FileSystem.content_eq hk.entry]
  | read =>
    by_cases hs : s.files.entryAt? o.handle.at_ = some .directory
    · rw [carry_directory hd hs]
      exact .refl s
    · rw [carry_read hd hs]
      exact Storage.putBytes_sameLayout (Bytes.length_copyRange_of_le (h.holds.length.symm ▸ hr))

/-- Carrying a range keeps the lengths of all buffers. -/
theorem holds_carry (h : o.Located s) (hr : r.stop ≤ o.buffer.len) (b : Buffer) :
    (o.carry r s).memory.Holds b ↔ s.memory.Holds b := by
  cases hd : o.direction with
  | write => rw [memory_carry_write hd]
  | read =>
    by_cases hs : s.files.entryAt? o.handle.at_ = some .directory
    · rw [carry_directory hd hs]
    · rw [carry_read hd hs]
      refine s.memory.holds_store_iff _ _ ?_
      exact Bytes.length_copyRange_of_le (h.holds.length.symm ▸ hr)

theorem Located.carry (h : o.Located s) (ho' : o'.Located s) (r : ByteRange)
    (hr : r.stop ≤ o'.buffer.len) : o.Located (o'.carry r s) := by
  refine ⟨h.blockSize, (holds_carry ho' hr _).mpr h.holds, ?_, (h.grounded.carry o' r).file⟩
  rw [FileSystem.openRead_congr (carry_sameSorts ho'.grounded r)]
  exact h.leads

/-- A content keeps its length while ranges inside are carried there. -/
theorem length_content_carry (h : o.Grounded s) (h' : FileSystem.Handle)
    (hr : o.direction = .write → h'.at_ = o.handle.at_ → r.stop ≤ (s.files.content h').length) :
    ((o.carry r s).files.content h').length = (s.files.content h').length := by
  by_cases hp : o.direction = .write ∧ h'.at_ = o.handle.at_
  · obtain ⟨hd, hp⟩ := hp
    have hh : h' = o.handle := congrArg FileSystem.Handle.mk hp
    subst hh
    obtain ⟨data, hk⟩ := h.file hd
    rw [carry_write hd, Storage.files_putFile,
      FileSystem.content_eq (FileSystem.entryAt?_insert_self _ hk.ne_nil),
      Bytes.length_copyRange_of_le (hr hd rfl)]
  · rw [FileSystem.content_congr (entryAt?_carry_of_ne (fun hd he => hp ⟨hd, he⟩) r)]

/-- A ready operation stays ready while ranges are carried, if they end inside
its file where they are carried there. -/
theorem Ready.carry_of_le (h : o.Ready s) (ho' : o'.Located s) (hr : r.stop ≤ o'.buffer.len)
    (hin : o'.direction = .write → o.handle.at_ = o'.handle.at_ →
      r.stop ≤ (s.files.content o.handle).length) : o.Ready (o'.carry r s) := by
  have hlen := length_content_carry ho'.grounded o.handle hin
  refine { toLocated := h.toLocated.carry ho' r hr, target := ?_, source := ?_ }
  · intro hd
    rw [hlen, h.target hd]
  · intro hd hs
    rw [hlen]
    exact h.source hd fun hs' =>
      hs ((directory_congr (carry_sameSorts ho'.grounded r) _).mpr hs')

theorem Ready.carry (h : o.Ready s) (ho' : o'.Ready s) (hr : r.stop ≤ o'.buffer.len) :
    o.Ready (o'.carry r s) := by
  refine h.carry_of_le ho'.toLocated hr fun hd hp => ?_
  rw [show o.handle = o'.handle from congrArg FileSystem.Handle.mk hp, ho'.target hd]
  exact hr

/-- A file set where a file or nothing was leaves what is located located. -/
theorem Located.putFile {p : CanonicalPath} (h : o.Located s) (hp : p ≠ [])
    (hb : ∀ e, s.files.entryAt? p = some e → e.sort = .file []) (data : Bytes) :
    o.Located (s.putFile p data) := by
  refine ⟨h.blockSize, h.holds, ?_, fun hd => ?_⟩
  · exact FileSystem.openRead_of_extends (FileSystem.extends_insert data hb) h.leads
  · obtain ⟨old, hk⟩ := h.file hd
    by_cases hpq : o.handle.at_ = p
    · subst hpq
      exact ⟨data, FileSystem.keeps_insert data hp⟩
    · exact ⟨old, hk.insert_of_ne hpq _⟩

/-- A file set elsewhere leaves what is ready ready. -/
theorem Ready.putFile {p : CanonicalPath} (h : o.Ready s) (hne : o.handle.at_ ≠ p) (hp : p ≠ [])
    (hb : ∀ e, s.files.entryAt? p = some e → e.sort = .file []) (data : Bytes) :
    o.Ready (s.putFile p data) := by
  have he : (s.putFile p data).files.entryAt? o.handle.at_ = s.files.entryAt? o.handle.at_ :=
    FileSystem.entryAt?_insert_of_ne _ hne
  refine { toLocated := h.toLocated.putFile hp hb data, target := ?_, source := ?_ }
  · rw [FileSystem.content_congr he]
    exact h.target
  · rw [FileSystem.content_congr he, he]
    exact h.source

/-! ### Moving blocks -/

/-- A block is written whatever the file's length is. -/
theorem moveBlock_write (h : o.direction = .write) (stop : Nat) (block : ByteRange) (s : Storage) :
    o.moveBlock stop block s = (.ok (), o.carry block s) := by
  rw [carry_write h, moveBlock, h]
  rfl

theorem moveBlock_directory (h : o.direction = .read)
    (hs : s.files.entryAt? o.handle.at_ = some .directory) (stop : Nat) (block : ByteRange) :
    o.moveBlock stop block s = (.error (.ofOs o.endpoints.path (.ofKind .isADirectory)), s) := by
  have hr : s.files.readAt o.endpoints.handle block.start block.length = .error .isADirectory := by
    have hs' : s.files.entryAt? o.endpoints.handle.at_ = some .directory := hs
    rw [FileSystem.readAt, hs']
  rw [moveBlock, h]
  simp only [Transfer.moveBlock, Transfer.readBlock, hr]

theorem readAt_eq_slice {fs : FileSystem} {h : FileSystem.Handle}
    (hs : fs.entryAt? h.at_ ≠ some .directory) (offset n : Nat) :
    fs.readAt h offset n = .ok (Bytes.slice (fs.content h) offset n) := by
  unfold FileSystem.readAt
  split
  · exact absurd ‹_› hs
  · rfl

theorem moveBlock_read (h : o.direction = .read) (stop : Nat) {block : ByteRange}
    (hs : s.files.entryAt? o.handle.at_ ≠ some .directory)
    (hb : block.start ≤ block.stop) (hlen : block.stop ≤ (s.files.content o.handle).length) :
    o.moveBlock stop block s = (.ok (), o.carry block s) := by
  have hslice : (Bytes.slice (s.files.content o.endpoints.handle) block.start block.length).length =
      block.length := by
    rw [Bytes.length_slice]
    simp only [ByteRange.length]
    have : block.stop ≤ (s.files.content o.endpoints.handle).length := hlen
    omega
  rw [carry_read h hs, moveBlock, h]
  simp only [Transfer.moveBlock, Transfer.readBlock, readAt_eq_slice (h := o.endpoints.handle) hs,
    hslice, Nat.lt_irrefl, ↓reduceIte]
  rfl

/-- A block is carried, or nothing happens. -/
theorem moveBlock_storage (o : Operation) (stop : Nat) (block : ByteRange) (s : Storage) :
    (o.moveBlock stop block s).2 = s ∨ (o.moveBlock stop block s).2 = o.carry block s := by
  cases hd : o.direction with
  | write => exact .inr (by rw [moveBlock_write hd])
  | read =>
    by_cases hs : s.files.entryAt? o.handle.at_ = some .directory
    · exact .inl (by rw [moveBlock_directory hd hs])
    · rw [moveBlock, hd, carry_read hd hs]
      simp only [Transfer.moveBlock, Transfer.readBlock,
        readAt_eq_slice (h := o.endpoints.handle) hs]
      split
      · exact .inl rfl
      · exact .inr rfl

/-- One block of a ready operation. -/
theorem moveBlock_eq (h : o.Ready s) (stop : Nat) {block : ByteRange}
    (hb : block.start < block.stop) (hlen : block.stop ≤ o.buffer.len) :
    o.moveBlock stop block s = (o.verdict s, o.carry block s) := by
  cases hd : o.direction with
  | write => rw [moveBlock_write hd, verdict_of_write hd]
  | read =>
    by_cases hs : s.files.entryAt? o.handle.at_ = some .directory
    · rw [moveBlock_directory hd hs, verdict_of_directory hd hs (by omega), carry_directory hd hs]
    · rw [moveBlock_read hd stop hs (Nat.le_of_lt hb) (Nat.le_trans hlen (h.source hd hs)),
        verdict_of_file hs]

/-- Blocks that follow one another, moved up to the first that cannot be. -/
theorem moveBlocks_eq (stop : Nat) : ∀ {a b : Nat} {blocks : List ByteRange} {s : Storage},
    o.Ready s → ByteRange.Tiles a b blocks → b ≤ o.buffer.len →
    Transfer.moveBlocks o.direction o.endpoints stop blocks s =
      (if a < b then o.verdict s else .ok (), o.carry ⟨a, b⟩ s)
  | a, _, [], s, h, ht, _ => by
    cases ht
    rw [carry_empty h.grounded, if_neg (Nat.lt_irrefl a)]
    rfl
  | a, b, q :: qs, s, h, ⟨hq, hlt, ht⟩, hb => by
    have hle : q.stop ≤ o.buffer.len := Nat.le_trans ht.le hb
    have hab : a < b := Nat.lt_of_lt_of_le (hq ▸ hlt) ht.le
    have hmove := moveBlock_eq h stop (hq.symm ▸ hlt) hle
    have hsplit : o.carry ⟨q.stop, b⟩ (o.carry q s) = o.carry ⟨a, b⟩ s := by
      rw [show q = ⟨a, q.stop⟩ by rw [← hq], carry_split h.grounded (Nat.le_of_lt hlt) ht.le]
    unfold moveBlock at hmove
    rw [Transfer.moveBlocks, hmove, if_pos hab]
    cases hv : o.verdict s with
    | ok _ =>
      have hv' : o.verdict (o.carry q s) = .ok () := by
        rw [verdict_congr (carry_sameSorts h.grounded q), hv]
      simp only
      rw [moveBlocks_eq stop (h.carry h hle) ht hb, hv', hsplit, ite_self]
    | error e =>
      obtain ⟨hd, hs, -⟩ := directory_of_verdict hv
      rw [carry_directory hd hs, carry_directory hd hs]

/-- A range of a ready operation. An empty one is never refused. -/
theorem transfer_eq (h : o.Ready s) (hr : r.start ≤ r.stop) (hlen : r.stop ≤ o.buffer.len) :
    o.transfer r s = (if r.start < r.stop then o.verdict s else .ok (), o.carry r s) := by
  have htiles := ByteRange.tiles_blocks r h.blockSize hr
  rw [transfer, Transfer.run, moveBlocks_eq r.stop h htiles hlen]

/-! ### The comparison at the end -/

/-- What has been carried whole agrees with the file. -/
theorem take_content_eq (h : o.Ready s) (hs : s.files.entryAt? o.handle.at_ ≠ some .directory)
    (hi : o.InPlace ⟨0, o.buffer.len⟩ s) :
    (s.files.content o.handle).take o.buffer.len =
      (s.memory.bytes o.buffer).take o.buffer.len := by
  have hbytes : o.buffer.len ≤ (s.memory.bytes o.buffer).length := Nat.le_of_eq h.holds.length.symm
  unfold InPlace at hi
  cases hd : o.direction with
  | write =>
    obtain ⟨data, hk⟩ := h.file hd
    have hfiles := congrArg (fun s : Storage => s.files.content o.handle) hi
    simp only [carry_write hd, Storage.files_putFile,
      FileSystem.content_eq (FileSystem.entryAt?_insert_self _ hk.ne_nil)] at hfiles
    exact Bytes.take_eq_of_copyRange_eq hbytes hfiles
  | read =>
    have hmemory := congrArg (fun s : Storage => s.memory.bytes o.buffer) hi
    simp only [carry_read hd hs, Storage.memory_putBytes,
      Memory.bytes_store _ _ _ h.holds.region] at hmemory
    exact (Bytes.take_eq_of_copyRange_eq (h.source hd hs) hmemory).symm

theorem length_eq_content {fs : FileSystem} {h : FileSystem.Handle}
    (hs : fs.entryAt? h.at_ ≠ some .directory) : fs.length h = (fs.content h).length := by
  unfold FileSystem.length FileSystem.content
  cases he : fs.entryAt? h.at_ with
  | none => rfl
  | some e =>
    cases e with
    | file data => rfl
    | directory => exact absurd he hs
    | link target => rfl

theorem Ready.le_length (h : o.Ready s) (hs : s.files.entryAt? o.handle.at_ ≠ some .directory) :
    o.buffer.len ≤ (s.files.content o.handle).length := by
  cases hd : o.direction with
  | write => exact Nat.le_of_eq (h.target hd).symm
  | read => exact h.source hd hs

/-- Chunks of two contents that agree so far show no difference. -/
theorem checkChunks_eq_ok {fs : FileSystem} {h : FileSystem.Handle} (path : String)
    {expected : Bytes} {n : Nat} (hs : fs.entryAt? h.at_ ≠ some .directory)
    (hn : n ≤ (fs.content h).length) (heq : (fs.content h).take n = expected.take n) :
    ∀ chunks : List ByteRange, (∀ r ∈ chunks, r.start ≤ r.stop ∧ r.stop ≤ n) →
      Verify.checkChunks fs h path expected chunks = .ok ()
  | [], _ => rfl
  | r :: rs, hrs => by
    have hr := hrs r List.mem_cons_self
    have hsum : r.start + r.length ≤ n := by
      simp only [ByteRange.length]
      omega
    have hslice : Bytes.slice (fs.content h) r.start r.length =
        Bytes.slice expected r.start r.length := by
      rw [← Bytes.slice_take hsum, heq, Bytes.slice_take hsum]
    have hlen : ¬(Bytes.slice (fs.content h) r.start r.length).length < r.length := by
      rw [Bytes.length_slice]
      omega
    rw [Verify.checkChunks, readAt_eq_slice hs]
    simp only [hlen, ↓reduceIte]
    rw [hslice, Bytes.firstDifference_self]
    exact checkChunks_eq_ok path hs hn heq rs fun q hq => hrs q (List.mem_cons_of_mem _ hq)

/-- What has been carried whole passes the comparison. -/
theorem validateIfAsked_eq_ok (h : o.Ready s) (hv : o.verdict s = .ok ())
    (hi : o.InPlace ⟨0, o.buffer.len⟩ s) : o.validateIfAsked s = .ok () := by
  unfold validateIfAsked
  split
  · have htiles : ByteRange.Tiles 0 o.buffer.len
        (ByteRange.blocks Verify.chunkSize ⟨0, o.buffer.len⟩) :=
      ByteRange.tiles_blocks ⟨0, o.buffer.len⟩ (by decide) (Nat.zero_le _)
    rw [Verify.check, h.leads]
    simp only [h.holds.length]
    by_cases hs : s.files.entryAt? o.handle.at_ = some .directory
    · -- only an empty buffer can have been read from a directory
      have hlen : o.buffer.len = 0 := by
        by_contra hne
        cases hd : o.direction with
        | write =>
          obtain ⟨data, hk⟩ := h.file hd
          rw [hk.entry] at hs
          cases hs
        | read =>
          rw [verdict_of_directory hd hs (Nat.pos_of_ne_zero hne)] at hv
          cases hv
      rw [hlen, if_neg (Nat.not_lt_zero _)]
      rfl
    · rw [length_eq_content hs, if_neg (Nat.not_lt.mpr (h.le_length hs))]
      refine checkChunks_eq_ok _ hs (h.le_length hs) (take_content_eq h hs hi) _ fun r hr => ?_
      obtain ⟨-, hlt, hle⟩ := htiles.mem r hr
      exact ⟨Nat.le_of_lt hlt, hle⟩
  · rfl

/-- The whole run of a ready operation on the calling thread. -/
theorem runInline_eq (h : o.Ready s) :
    o.runInline s = (o.verdict s, o.carry ⟨0, o.buffer.len⟩ s) := by
  have hend : (if 0 < o.buffer.len then o.verdict s else .ok ()) = o.verdict s := by
    split
    · rfl
    · rw [verdict_of_empty (by omega)]
  rw [runInline, transfer_eq h (Nat.zero_le _) (Nat.le_refl _), hend]
  cases hv : o.verdict s with
  | error e => rfl
  | ok _ =>
    have hsame := carry_sameSorts h.grounded ⟨0, o.buffer.len⟩
    simp only [validateIfAsked_eq_ok (h.carry h (Nat.le_refl _))
      (by rw [verdict_congr hsame, hv]) (inPlace_carry h.grounded _)]

end Operation
end BlockTransfer
