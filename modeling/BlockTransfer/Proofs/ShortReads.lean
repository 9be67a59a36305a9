import BlockTransfer.Proofs.Comparing
/-!
# What a short read tells

A file is found too short in three places: when it is opened for a read, when a range of
it is moved into a buffer, and when it is compared with expected bytes. All three raise the
same error, whose wording tells how many bytes the file has.

The first and the last look at the length of the file, and tell it. The second does not: it
meets the end of the file while it moves blocks, and tells where the block begins that the
file does not hold whole. That is less than what was expected, and it is the length of the
file only if the file ends where a block begins (`Reading.shortRead_tells`). It is less than
the length if the file ends inside a block, and more if it ends before the range begins.

Key definitions: `Reading`, `Reading.told`, `Reading.Tells`.
Key theorem: `Reading.shortRead_tells`.
-/

namespace BlockTransfer

open ByteRange (wholeBlocks)

/-- A place where a file can be found too short. -/
inductive Reading where
  /-- The file of an order is opened. -/
  | opening (order : Order) (blockSize : Nat)
  /-- A range of an opened file is moved into a buffer. -/
  | moving (endpoints : Transfer.Endpoints) (range : ByteRange) (blockSize : Nat)
  /-- A file is compared with expected bytes. -/
  | comparing (path : String) (expected : Bytes)

namespace ByteRange

variable {blockSize size start stop : Nat}

/-- The last whole block ends where the file does if blocks begin there. -/
theorem wholeBlocks_eq_size_iff (hb : 0 < blockSize) :
    wholeBlocks blockSize size start = size ↔ start ≤ size ∧ blockSize ∣ size - start := by
  unfold wholeBlocks
  constructor
  · intro h
    refine ⟨by omega, (size - start) / blockSize, by omega⟩
  · rintro ⟨hstart, n, hn⟩
    rw [hn, Nat.mul_div_cancel_left n hb]
    omega

/-- A range that a file does not reach the end of is not moved to its end. -/
theorem wholeBlocks_lt_stop (hstart : start < stop) (hsize : size < stop) :
    wholeBlocks blockSize size start < stop := by
  have := Nat.mul_div_le (size - start) blockSize
  unfold wholeBlocks
  omega

end ByteRange

namespace Reading

/-- What comes of it, but for the operation that an opening is for. -/
def run (s : Storage) : Reading → Except TransferError Unit
  | opening c blockSize => (Operation.openFile c blockSize s).map fun _ => ()
  | moving e r blockSize => (Transfer.run .read e r blockSize s).1
  | comparing path expected => Verify.check s.files path expected

/-- The path that an error names. -/
def path : Reading → String
  | opening c _ => c.path
  | moving e _ _ => e.path
  | comparing path _ => path

/-- Where the bytes that are wanted begin. -/
def start : Reading → Nat
  | moving _ r _ => r.start
  | _ => 0

/-- Where the bytes that are wanted end. -/
def stop : Reading → Nat
  | opening c _ => c.buffer.len
  | moving _ r _ => r.stop
  | comparing _ expected => expected.length

/-- What is told of a file of some length that is too short. -/
def told (size : Nat) : Reading → Nat
  | moving _ r blockSize => wholeBlocks blockSize size r.start
  | _ => size

/-- The file that is read is a regular one that holds `data`; blocks are not empty, and the
buffer they are moved into is there. -/
def Of (s : Storage) (data : Bytes) : Reading → Prop
  | opening c _ => c.direction = .read ∧ s.files.read? c.path = some data
  | moving e _ blockSize => s.files.entryAt? e.handle.at_ = some (.file data) ∧
      e.buffer.region < s.memory.regions.length ∧ 0 < blockSize
  | comparing path _ => s.files.read? path = some data

/-- What is wanted has a place in the buffer. -/
def Inside : Reading → Prop
  | moving e r _ => r.stop ≤ e.buffer.len
  | _ => True

/-- A file of that length ends where its last block does, if it is moved by blocks. -/
def EndsAtBlock (size : Nat) : Reading → Prop
  | moving _ r blockSize => r.start ≤ size ∧ blockSize ∣ size - r.start
  | _ => True

variable {x : Reading} {s : Storage} {data : Bytes}

/-- A file is too short for what is wanted of it. -/
def Short (size : Nat) (x : Reading) : Prop := x.start < x.stop ∧ size < x.stop

/-- Opening a file turns to its length only. -/
theorem run_opening {c : Order} {blockSize : Nat} (h : (opening c blockSize).Of s data) :
    (opening c blockSize).run s =
      if data.length < c.buffer.len then .error (.shortRead c.path c.buffer.len data.length)
      else .ok () := by
  obtain ⟨hread, hfile⟩ := h
  obtain ⟨handle, hopen, hentry⟩ := Verify.openRead_of_read? hfile
  have hlength : s.files.length handle = data.length := by
    simp only [FileSystem.length, hentry]
  simp only [run, Operation.openFile, Operation.locate, hread, hopen, Operation.fit,
    Operation.handle, Operation.buffer, hlength]
  split <;> rfl

theorem run_of_short (h : x.Of s data) (hshort : x.Short data.length) :
    x.run s = .error (.shortRead x.path x.stop (x.told data.length)) := by
  cases x with
  | opening => exact (run_opening h).trans (if_pos hshort.2)
  | moving =>
    obtain ⟨hentry, hregion, hblock⟩ := h
    rw [run, Transfer.run_cutShort hblock hentry hregion hshort.1 hshort.2]
    rfl
  | comparing => exact (Verify.check_eq h _).trans (if_pos hshort.2)

theorem run_of_not_short (h : x.Of s data) (hshort : ¬x.Short data.length) (p : String)
    (expected actual : Nat) : x.run s ≠ .error (.shortRead p expected actual) := by
  cases x with
  | opening c =>
    have hle : ¬data.length < c.buffer.len := fun hlt => hshort ⟨Nat.zero_lt_of_lt hlt, hlt⟩
    rw [run_opening h, if_neg hle]
    nofun
  | moving e r blockSize =>
    obtain ⟨hentry, hregion, hblock⟩ := h
    rcases Nat.lt_or_ge r.start r.stop with hstart | hstart
    · have hle : r.stop ≤ data.length := Nat.le_of_not_lt fun hlt => hshort ⟨hstart, hlt⟩
      rw [run, Transfer.run_read hblock hentry hregion hstart hle]
      nofun
    · rw [run, Transfer.run_of_le hblock hstart]
      nofun
  | comparing p' expected' =>
    have hle : ¬data.length < expected'.length := fun hlt => hshort ⟨Nat.zero_lt_of_lt hlt, hlt⟩
    rw [run, Verify.check_eq h, if_neg hle]
    cases Bytes.firstDifference data expected' <;> nofun

/-- What a short read tells of a regular file that holds `data`. -/
structure Tells (x : Reading) (s : Storage) (data : Bytes) : Prop where
  /-- Whoever raises the error, it names the file and the end of what is wanted, and the
  file is too short for that. -/
  error : ∀ p expected actual, x.run s = .error (.shortRead p expected actual) →
    p = x.path ∧ expected = x.stop ∧ data.length < expected ∧
      actual = x.told data.length ∧ actual < expected
  /-- The error is raised for every file that is too short. (A range that the buffer has no
  place for is not one to be moved.) -/
  raised : x.Inside → x.Short data.length →
    x.run s = .error (.shortRead x.path x.stop (x.told data.length))
  /-- The length of the file is told, unless blocks are moved and the file does not end
  where one of them begins. -/
  length_iff : x.told data.length = data.length ↔ x.EndsAtBlock data.length
  /-- No more than the length is told of a file that reaches the range. -/
  reached : x.start ≤ data.length → x.told data.length ≤ data.length
  /-- Of a file that does not, the start of the range is told. -/
  missed : data.length < x.start → x.told data.length = x.start

/-- A file that is opened or compared is told of with its length, and one that is moved with
the start of the first block that it does not hold whole. -/
theorem shortRead_tells (h : x.Of s data) : x.Tells s data where
  error p expected actual herror := by
    have hshort : x.Short data.length := by
      by_contra hshort
      exact run_of_not_short h hshort p expected actual herror
    rw [run_of_short h hshort] at herror
    cases herror
    refine ⟨rfl, rfl, hshort.2, rfl, ?_⟩
    cases x with
    | moving => exact ByteRange.wholeBlocks_lt_stop hshort.1 hshort.2
    | opening | comparing => exact hshort.2
  raised _ := run_of_short h
  length_iff := by
    cases x with
    | moving => exact ByteRange.wholeBlocks_eq_size_iff h.2.2
    | opening | comparing => exact iff_of_true rfl trivial
  reached hstart := by
    cases x with
    | moving => exact ByteRange.wholeBlocks_le hstart _
    | opening | comparing => exact Nat.le_refl _
  missed hstart := by
    cases x with
    | moving => exact ByteRange.wholeBlocks_of_lt h.2.2 (Nat.lt_add_right _ hstart)
    | opening | comparing => exact absurd hstart (Nat.not_lt_zero _)

/-! ### A file that ends inside its first block

Three bytes are read in blocks of two: the second block begins at 2. Read in one block, or
from beyond their end, the error tells the start of the range. -/

namespace ThreeBytes

def endpoints : Transfer.Endpoints := ⟨⟨["f"]⟩, "f", ⟨0, .u8, 16, none⟩⟩

def storage : Storage where
  files := { entries := [(["f"], .file [97, 98, 99])] }
  memory := { regions := [Bytes.zeros 16] }

/-- The whole buffer is read in blocks of some size. -/
def whole (blockSize : Nat) : Reading := .moving endpoints ⟨0, 16⟩ blockSize

theorem of_whole {blockSize : Nat} (hb : 0 < blockSize) :
    (whole blockSize).Of storage [97, 98, 99] :=
  ⟨by decide, by decide, hb⟩

end ThreeBytes

open ThreeBytes

theorem shortRead_tells_three_bytes : (whole 2).Of storage [97, 98, 99] ∧
    (whole 2).Tells storage [97, 98, 99] ∧
    (whole 2).run storage = .error (.shortRead "f" 16 2) :=
  have h := shortRead_tells (of_whole (by decide))
  ⟨of_whole (by decide), h, h.raised (Nat.le_refl 16) ⟨by decide, by decide⟩⟩

/-- The error that moving a range raises says that a file of three bytes has none, or that it
has five; opened or compared it has three. -/
theorem shortRead_not_length :
    storage.files.entryAt? endpoints.handle.at_ = some (.file [97, 98, 99]) ∧
      (whole 4096).run storage = .error (.shortRead "f" 16 0) ∧
      (TransferError.shortRead "f" 16 0).message =
        "short read from f: expected 16 bytes, file has 0" ∧
      (moving endpoints ⟨5, 16⟩ 4096).run storage = .error (.shortRead "f" 16 5) ∧
      (opening ⟨.read, endpoints.buffer, "f", false⟩ 4096).run storage =
        .error (.shortRead "f" 16 3) ∧
      (comparing "f" (Bytes.zeros 16)).run storage = .error (.shortRead "f" 16 3) := by
  refine ⟨by decide, by decide, by decide, by decide, by decide, by decide⟩

end Reading
end BlockTransfer
