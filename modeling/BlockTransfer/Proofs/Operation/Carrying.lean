import BlockTransfer.Operation
import BlockTransfer.Proofs.Buffer.Regions
import BlockTransfer.Proofs.Copying
import BlockTransfer.Proofs.FileSystem.Walking
import BlockTransfer.Proofs.Tiling
/-!
# What moving a range of an operation does to files and memory

`Operation.carry` is the effect of moving a range when nothing is in its way:
the bytes of the range are copied from the operation's source to its target.
It obeys a few laws, and all that is said about schedules rests on them: a
range can be carried again, ranges of one operation can be carried in either
order and in pieces, and ranges of two operations that are `Apart` can be
exchanged. A range is `InPlace` if carrying it changes nothing any more.

Key definitions: `Operation.carry`, `Operation.InPlace`, `Operation.Apart`,
`Storage.SameLayout`.
Key theorems: `Operation.carry_self`, `Operation.carry_comm`,
`Operation.carry_split`, `Operation.carry_comm_of_apart`, `Operation.carry_absorbs`.
-/

namespace BlockTransfer

/-! ### Storages of one layout -/

namespace Storage

/-- The storage with a file set. -/
def putFile (s : Storage) (p : CanonicalPath) (data : Bytes) : Storage :=
  { s with files := s.files.insert p (.file data) }

/-- The storage with a buffer's bytes set. -/
def putBytes (s : Storage) (b : Buffer) (data : Bytes) : Storage :=
  { s with memory := s.memory.store b data }

@[simp] theorem memory_putFile (s : Storage) (p : CanonicalPath) (data : Bytes) :
    (s.putFile p data).memory = s.memory := rfl

@[simp] theorem files_putBytes (s : Storage) (b : Buffer) (data : Bytes) :
    (s.putBytes b data).files = s.files := rfl

theorem files_putFile (s : Storage) (p : CanonicalPath) (data : Bytes) :
    (s.putFile p data).files = s.files.insert p (.file data) := rfl

theorem memory_putBytes (s : Storage) (b : Buffer) (data : Bytes) :
    (s.putBytes b data).memory = s.memory.store b data := rfl

theorem putFile_putFile (s : Storage) (p : CanonicalPath) (x y : Bytes) :
    (s.putFile p x).putFile p y = s.putFile p y := by
  simp only [putFile, FileSystem.insert_insert]

theorem putFile_comm {s : Storage} {p q : CanonicalPath} {old : Bytes} (x y : Bytes)
    (hpq : p ≠ q) (hp : s.files.Keeps p old) :
    (s.putFile q y).putFile p x = (s.putFile p x).putFile q y := by
  simp only [putFile, FileSystem.insert_comm _ _ hpq hp.isSome_lookup]

theorem putBytes_putBytes (s : Storage) (b : Buffer) (x y : Bytes) :
    (s.putBytes b x).putBytes b y = s.putBytes b y := by
  simp only [putBytes, Memory.store_store]

/-- Two storages differ at most in the bytes of files and buffers. -/
structure SameLayout (s s' : Storage) : Prop where
  sorts : s.files.SameSorts s'.files
  length : ∀ h, s.files.length h = s'.files.length h
  holds : ∀ b, s.memory.Holds b ↔ s'.memory.Holds b

namespace SameLayout

variable {s s' s'' : Storage}

theorem refl (s : Storage) : s.SameLayout s := ⟨.refl _, fun _ => rfl, fun _ => .rfl⟩

theorem symm (h : s.SameLayout s') : s'.SameLayout s :=
  ⟨h.sorts.symm, fun x => (h.length x).symm, fun b => (h.holds b).symm⟩

theorem trans (h : s.SameLayout s') (h' : s'.SameLayout s'') : s.SameLayout s'' :=
  ⟨h.sorts.trans h'.sorts, fun x => (h.length x).trans (h'.length x),
    fun b => (h.holds b).trans (h'.holds b)⟩

end SameLayout

/-- A file set to as many bytes as it had. -/
theorem putFile_sameLayout {s : Storage} {p : CanonicalPath} {data old : Bytes}
    (h : s.files.entryAt? p = some (.file old)) (hlen : data.length = old.length) :
    (s.putFile p data).SameLayout s := by
  refine ⟨FileSystem.sameSorts_insert data ⟨old, h⟩, fun x => ?_, fun _ => .rfl⟩
  by_cases hx : x.at_ = p ∧ p ≠ []
  · have he : (s.putFile p data).files.entryAt? x.at_ = some (.file data) := by
      rw [files_putFile, FileSystem.entryAt?_insert, if_pos hx]
    rw [FileSystem.length_eq he, FileSystem.length_eq (hx.1 ▸ h), hlen]
  · exact FileSystem.length_congr (by rw [files_putFile, FileSystem.entryAt?_insert, if_neg hx])

/-- A file set to as many bytes in both. -/
theorem SameLayout.putFile {s s' : Storage} (h : s.SameLayout s') (p : CanonicalPath)
    {x y : Bytes} (hlen : x.length = y.length) :
    (s.putFile p x).SameLayout (s'.putFile p y) := by
  refine ⟨h.sorts.insert p rfl, fun k => ?_, h.holds⟩
  by_cases hk : k.at_ = p ∧ p ≠ []
  · have he : (s.putFile p x).files.entryAt? k.at_ = some (.file x) := by
      rw [files_putFile, FileSystem.entryAt?_insert, if_pos hk]
    have he' : (s'.putFile p y).files.entryAt? k.at_ = some (.file y) := by
      rw [files_putFile, FileSystem.entryAt?_insert, if_pos hk]
    rw [FileSystem.length_eq he, FileSystem.length_eq he', hlen]
  · have he : (s.putFile p x).files.entryAt? k.at_ = s.files.entryAt? k.at_ := by
      rw [files_putFile, FileSystem.entryAt?_insert, if_neg hk]
    have he' : (s'.putFile p y).files.entryAt? k.at_ = s'.files.entryAt? k.at_ := by
      rw [files_putFile, FileSystem.entryAt?_insert, if_neg hk]
    rw [FileSystem.length_congr he, FileSystem.length_congr he', h.length]

/-- A buffer set to as many bytes as it had. -/
theorem putBytes_sameLayout {s : Storage} {b : Buffer} {data : Bytes}
    (h : data.length = (s.memory.bytes b).length) : (s.putBytes b data).SameLayout s :=
  ⟨.refl _, fun _ => rfl, fun c => s.memory.holds_store_iff b c h⟩

end Storage

namespace Operation

/-! ### Carrying a range -/

/-- Copies the bytes of a range from the source to the target. A directory has
no bytes. -/
def carry (o : Operation) (r : ByteRange) (s : Storage) : Storage :=
  match o.direction with
  | .write =>
    let data := Bytes.copyRange (s.memory.bytes o.buffer) r (s.files.content o.handle)
    s.putFile o.handle.at_ data
  | .read =>
    if s.files.entryAt? o.handle.at_ = some .directory then s
    else
      let data := Bytes.copyRange (s.files.content o.handle) r (s.memory.bytes o.buffer)
      s.putBytes o.buffer data

/-- The operation's buffer is there, and so is the file that it writes. -/
structure Grounded (o : Operation) (s : Storage) : Prop where
  region : o.buffer.region < s.memory.regions.length
  file : o.direction = .write → ∃ data, s.files.Keeps o.handle.at_ data

/-- The range has been carried: carrying it again changes nothing. -/
def InPlace (o : Operation) (r : ByteRange) (s : Storage) : Prop := o.carry r s = s

/-- No byte that one of two operations changes is used by the other. -/
structure Apart (o o' : Operation) : Prop where
  file : o.handle = o'.handle → o.direction = .read ∧ o'.direction = .read
  into : o.direction = .read → o.buffer.region ≠ o'.buffer.region
  into' : o'.direction = .read → o.buffer.region ≠ o'.buffer.region

instance (o o' : Operation) : Decidable (o.Apart o') :=
  decidable_of_iff ((o.handle = o'.handle → o.direction = .read ∧ o'.direction = .read) ∧
      (o.direction = .read → o.buffer.region ≠ o'.buffer.region) ∧
      (o'.direction = .read → o.buffer.region ≠ o'.buffer.region))
    ⟨fun ⟨h1, h2, h3⟩ => ⟨h1, h2, h3⟩, fun ⟨h1, h2, h3⟩ => ⟨h1, h2, h3⟩⟩

variable {o o' : Operation} {s : Storage} {q r : ByteRange}

theorem Apart.symm (h : o.Apart o') : o'.Apart o :=
  ⟨fun hf => (h.file hf.symm).symm, fun hd => (h.into' hd).symm, fun hd => (h.into hd).symm⟩

/-- The file that one operation writes is not the other's. -/
theorem Apart.at_ne (h : o.Apart o') (hd : o.direction = .write) :
    o.handle.at_ ≠ o'.handle.at_ := by
  intro hp
  have hf : o.handle = o'.handle := congrArg FileSystem.Handle.mk hp
  have := (h.file hf).1
  rw [hd] at this
  cases this

theorem carry_write (h : o.direction = .write) (r : ByteRange) (s : Storage) :
    o.carry r s = s.putFile o.handle.at_
      (Bytes.copyRange (s.memory.bytes o.buffer) r (s.files.content o.handle)) := by
  simp only [carry, h]

/-- A directory stays as it is. -/
theorem carry_directory (h : o.direction = .read)
    (hs : s.files.entryAt? o.handle.at_ = some .directory) (r : ByteRange) : o.carry r s = s := by
  simp only [carry, h, hs, ↓reduceIte]

theorem carry_read (h : o.direction = .read)
    (hs : s.files.entryAt? o.handle.at_ ≠ some .directory) (r : ByteRange) :
    o.carry r s = s.putBytes o.buffer
      (Bytes.copyRange (s.files.content o.handle) r (s.memory.bytes o.buffer)) := by
  simp only [carry, h, hs, ↓reduceIte]

theorem memory_carry_write (h : o.direction = .write) (r : ByteRange) (s : Storage) :
    (o.carry r s).memory = s.memory := by
  rw [carry_write h, Storage.memory_putFile]

theorem files_carry_read (h : o.direction = .read) (r : ByteRange) (s : Storage) :
    (o.carry r s).files = s.files := by
  by_cases hs : s.files.entryAt? o.handle.at_ = some .directory
  · rw [carry_directory h hs]
  · rw [carry_read h hs, Storage.files_putBytes]

@[simp] theorem length_regions_carry (o : Operation) (r : ByteRange) (s : Storage) :
    (o.carry r s).memory.regions.length = s.memory.regions.length := by
  cases h : o.direction with
  | write => rw [memory_carry_write h]
  | read =>
    by_cases hs : s.files.entryAt? o.handle.at_ = some .directory
    · rw [carry_directory h hs]
    · rw [carry_read h hs, Storage.memory_putBytes, Memory.length_regions_store]

/-- Carrying touches the entry of the operation's own file alone. -/
theorem entryAt?_carry_of_ne {p : CanonicalPath} (h : o.direction = .write → p ≠ o.handle.at_)
    (r : ByteRange) : (o.carry r s).files.entryAt? p = s.files.entryAt? p := by
  cases hd : o.direction with
  | write => rw [carry_write hd, Storage.files_putFile, FileSystem.entryAt?_insert_of_ne _ (h hd)]
  | read => rw [files_carry_read hd]

/-- Carrying touches the bytes of the operation's own buffer alone. -/
theorem bytes_carry_of_ne {b : Buffer} (h : o.direction = .read → o.buffer.region ≠ b.region)
    (r : ByteRange) : (o.carry r s).memory.bytes b = s.memory.bytes b := by
  cases hd : o.direction with
  | write => rw [memory_carry_write hd]
  | read =>
    by_cases hs : s.files.entryAt? o.handle.at_ = some .directory
    · rw [carry_directory hd hs]
    · rw [carry_read hd hs, Storage.memory_putBytes, Memory.bytes_store_of_ne _ _ (h hd)]

/-- A byte of a buffer that comes after a range stays as it is. -/
theorem getElem?_bytes_carry_of_le {i : Nat} {x : UInt8} (hd : o.direction = .read)
    (h : r.stop ≤ i) (hx : (s.memory.bytes o.buffer)[i]? = some x) :
    ((o.carry r s).memory.bytes o.buffer)[i]? = some x := by
  by_cases hs : s.files.entryAt? o.handle.at_ = some .directory
  · rw [carry_directory hd hs]
    exact hx
  · rw [carry_read hd hs, Storage.memory_putBytes,
      Memory.bytes_store _ _ _ (Memory.region_lt_of_getElem? hx),
      Bytes.getElem?_copyRange_of_le h]
    exact hx

/-- What is kept at a path is kept there after a range is carried, though maybe
as other bytes. -/
theorem keeps_carry {p : CanonicalPath} {data : Bytes} (h : s.files.Keeps p data) (o : Operation)
    (r : ByteRange) : ∃ data', (o.carry r s).files.Keeps p data' := by
  cases hd : o.direction with
  | read => exact ⟨data, by rw [files_carry_read hd]; exact h⟩
  | write =>
    rw [carry_write hd]
    by_cases hp : p = o.handle.at_
    · subst hp
      exact ⟨_, FileSystem.keeps_insert _ h.ne_nil⟩
    · exact ⟨data, h.insert_of_ne hp _⟩

theorem Grounded.carry (h : o.Grounded s) (o' : Operation) (r : ByteRange) :
    o.Grounded (o'.carry r s) := by
  refine ⟨by simpa using h.region, fun hd => ?_⟩
  obtain ⟨data, hk⟩ := h.file hd
  exact keeps_carry hk o' r

/-! ### The laws of carrying -/

/-- Two ranges of one writing operation, carried one after the other. -/
theorem carry_carry_write (hd : o.direction = .write) (h : o.Grounded s) (q r : ByteRange) :
    o.carry q (o.carry r s) = s.putFile o.handle.at_
      (Bytes.copyRange (s.memory.bytes o.buffer) q
        (Bytes.copyRange (s.memory.bytes o.buffer) r (s.files.content o.handle))) := by
  obtain ⟨data, hk⟩ := h.file hd
  rw [carry_write hd, carry_write hd, Storage.putFile_putFile, Storage.memory_putFile,
    Storage.files_putFile, FileSystem.content_eq (FileSystem.entryAt?_insert_self _ hk.ne_nil)]

/-- Two ranges of one reading operation, carried one after the other. -/
theorem carry_carry_read (hd : o.direction = .read) (h : o.Grounded s)
    (hs : s.files.entryAt? o.handle.at_ ≠ some .directory) (q r : ByteRange) :
    o.carry q (o.carry r s) = s.putBytes o.buffer
      (Bytes.copyRange (s.files.content o.handle) q
        (Bytes.copyRange (s.files.content o.handle) r (s.memory.bytes o.buffer))) := by
  rw [carry_read hd hs r, carry_read hd (by simpa using hs), Storage.putBytes_putBytes,
    Storage.files_putBytes, Storage.memory_putBytes, Memory.bytes_store _ _ _ h.region]

theorem carry_self (h : o.Grounded s) (r : ByteRange) : o.carry r (o.carry r s) = o.carry r s := by
  cases hd : o.direction with
  | write => rw [carry_carry_write hd h, Bytes.copyRange_self, carry_write hd]
  | read =>
    by_cases hs : s.files.entryAt? o.handle.at_ = some .directory
    · rw [carry_directory hd hs, carry_directory hd hs]
    · rw [carry_carry_read hd h hs, Bytes.copyRange_self, carry_read hd hs]

theorem carry_comm (h : o.Grounded s) (q r : ByteRange) :
    o.carry q (o.carry r s) = o.carry r (o.carry q s) := by
  cases hd : o.direction with
  | write => rw [carry_carry_write hd h, carry_carry_write hd h, Bytes.copyRange_comm]
  | read =>
    by_cases hs : s.files.entryAt? o.handle.at_ = some .directory
    · rw [carry_directory hd hs, carry_directory hd hs, carry_directory hd hs]
    · rw [carry_carry_read hd h hs, carry_carry_read hd h hs, Bytes.copyRange_comm]

theorem carry_split (h : o.Grounded s) {a b c : Nat} (hab : a ≤ b) (hbc : b ≤ c) :
    o.carry ⟨b, c⟩ (o.carry ⟨a, b⟩ s) = o.carry ⟨a, c⟩ s := by
  cases hd : o.direction with
  | write => rw [carry_carry_write hd h, Bytes.copyRange_split _ _ hab hbc, carry_write hd]
  | read =>
    by_cases hs : s.files.entryAt? o.handle.at_ = some .directory
    · rw [carry_directory hd hs, carry_directory hd hs, carry_directory hd hs]
    · rw [carry_carry_read hd h hs, Bytes.copyRange_split _ _ hab hbc, carry_read hd hs]

theorem carry_empty (h : o.Grounded s) (a : Nat) : o.carry ⟨a, a⟩ s = s := by
  cases hd : o.direction with
  | write =>
    obtain ⟨data, hk⟩ := h.file hd
    rw [carry_write hd, Bytes.copyRange_empty, FileSystem.content_eq hk.entry, Storage.putFile,
      hk.insert]
  | read =>
    by_cases hs : s.files.entryAt? o.handle.at_ = some .directory
    · exact carry_directory hd hs _
    · rw [carry_read hd hs, Bytes.copyRange_empty, Storage.putBytes, Memory.store_bytes]

/-- A file set elsewhere and a range can be exchanged. -/
theorem carry_putFile_of_ne {p : CanonicalPath} (h : o.Grounded s) (hp : o.handle.at_ ≠ p)
    (data : Bytes) (r : ByteRange) :
    o.carry r (s.putFile p data) = (o.carry r s).putFile p data := by
  have he : (s.putFile p data).files.entryAt? o.handle.at_ = s.files.entryAt? o.handle.at_ :=
    FileSystem.entryAt?_insert_of_ne _ hp
  have hc : (s.putFile p data).files.content o.handle = s.files.content o.handle :=
    FileSystem.content_congr he
  cases hd : o.direction with
  | write =>
    obtain ⟨old, hk⟩ := h.file hd
    rw [carry_write hd, carry_write hd, hc, Storage.memory_putFile, Storage.putFile_comm _ _ hp hk]
  | read =>
    by_cases hs : s.files.entryAt? o.handle.at_ = some .directory
    · rw [carry_directory hd hs, carry_directory hd (he.trans hs)]
    · rw [carry_read hd hs, carry_read hd (he ▸ hs), hc]
      rfl

/-- Bytes stored in a buffer that the operation does not use and a range can be
exchanged. -/
theorem carry_putBytes_of_ne {b : Buffer} (hb : o.buffer.region ≠ b.region) (data : Bytes)
    (r : ByteRange) (s : Storage) :
    o.carry r (s.putBytes b data) = (o.carry r s).putBytes b data := by
  have hbytes : (s.putBytes b data).memory.bytes o.buffer = s.memory.bytes o.buffer :=
    Memory.bytes_store_of_ne _ _ (Ne.symm hb)
  cases hd : o.direction with
  | write =>
    rw [carry_write hd, carry_write hd, hbytes]
    rfl
  | read =>
    by_cases hs : s.files.entryAt? o.handle.at_ = some .directory
    · rw [carry_directory hd hs, carry_directory hd (by simpa using hs)]
    · rw [carry_read hd hs, carry_read hd (by simpa using hs), hbytes, Storage.files_putBytes]
      simp only [Storage.putBytes, Memory.store_comm _ _ _ hb]

theorem carry_comm_of_apart (ha : o.Apart o') (h : o.Grounded s) (q r : ByteRange) :
    o.carry q (o'.carry r s) = o'.carry r (o.carry q s) := by
  have hentry : (o.carry q s).files.entryAt? o'.handle.at_ = s.files.entryAt? o'.handle.at_ :=
    entryAt?_carry_of_ne (fun hd => (ha.at_ne hd).symm) q
  have hbytes : (o.carry q s).memory.bytes o'.buffer = s.memory.bytes o'.buffer :=
    bytes_carry_of_ne ha.into q
  have hcontent := FileSystem.content_congr hentry
  cases hd' : o'.direction with
  | write =>
    rw [carry_write hd', carry_write hd', carry_putFile_of_ne h (ha.symm.at_ne hd').symm,
      hcontent, hbytes]
  | read =>
    by_cases hs : s.files.entryAt? o'.handle.at_ = some .directory
    · rw [carry_directory hd' hs, carry_directory hd' (hentry.trans hs)]
    · rw [carry_read hd' hs, carry_read hd' (hentry ▸ hs), carry_putBytes_of_ne (ha.into' hd'),
        hcontent, hbytes]

/-! ### Ranges in place -/

theorem inPlace_carry (h : o.Grounded s) (r : ByteRange) : o.InPlace r (o.carry r s) :=
  carry_self h r

/-- A range in place stays so while ranges of the operation are carried. -/
theorem InPlace.carry (hr : o.InPlace r s) (h : o.Grounded s) (q : ByteRange) :
    o.InPlace r (o.carry q s) := by
  unfold InPlace at hr ⊢
  rw [carry_comm h, hr]

/-- A range in place stays so while ranges of operations apart are carried. -/
theorem InPlace.carry_of_apart (hr : o.InPlace r s) (ha : o.Apart o') (h : o.Grounded s)
    (q : ByteRange) : o.InPlace r (o'.carry q s) := by
  unfold InPlace at hr ⊢
  rw [carry_comm_of_apart ha h, hr]

/-- A range in place stays so while other files are set. -/
theorem InPlace.putFile {p : CanonicalPath} (hr : o.InPlace r s) (h : o.Grounded s)
    (hp : o.handle.at_ ≠ p) (data : Bytes) : o.InPlace r (s.putFile p data) := by
  unfold InPlace at hr ⊢
  rw [carry_putFile_of_ne h hp, hr]

/-- If all pieces are in place, so is the whole. -/
theorem inPlace_of_tiles (h : o.Grounded s) : ∀ {a b : Nat} {rs : List ByteRange},
    ByteRange.Tiles a b rs → (∀ r ∈ rs, o.InPlace r s) → o.InPlace ⟨a, b⟩ s
  | a, _, [], ht, _ => by
    cases ht
    exact carry_empty h a
  | a, b, r :: rs, ⟨hr, hlt, ht⟩, hall => by
    have hhead : o.InPlace ⟨a, r.stop⟩ s := by
      have := hall r List.mem_cons_self
      rwa [show r = ⟨a, r.stop⟩ by rw [← hr]] at this
    have htail := inPlace_of_tiles h ht fun r hr => hall r (List.mem_cons_of_mem _ hr)
    unfold InPlace at hhead htail ⊢
    rw [← carry_split h (Nat.le_of_lt hlt) ht.le, hhead, htail]

/-- Carrying the whole swallows what was carried of it. -/
theorem carry_absorbs (h : o.Grounded s) {n : Nat} (hr : r.start ≤ r.stop) (hn : r.stop ≤ n) :
    o.carry ⟨0, n⟩ (o.carry r s) = o.carry ⟨0, n⟩ s := by
  have hsplit : ∀ {t : Storage}, o.Grounded t →
      o.carry ⟨0, n⟩ t = o.carry ⟨r.stop, n⟩ (o.carry r (o.carry ⟨0, r.start⟩ t)) := by
    intro t ht
    rw [show r = ⟨r.start, r.stop⟩ from rfl, carry_split ht (Nat.zero_le _) hr,
      carry_split ht (Nat.zero_le _) hn]
  rw [hsplit (h.carry o r), hsplit h, carry_comm h ⟨0, r.start⟩ r,
    carry_self (h.carry o _)]

end Operation
end BlockTransfer
