import BlockTransfer.Proofs.Transfer.Effect
/-!
# What comparing a file finds

A regular file is compared with expected bytes chunk by chunk. What comes out is the same
for all ways to cut chunks: a difference inside a chunk is a difference of the whole,
moved by where the chunk starts (`Bytes.firstDifference_append`). A file that is too short
is reported with its length, whatever its bytes are. Otherwise the least index at which
the file has another byte is reported, or the file passes (`Verify.check_decides`). The
files are only looked at; a comparison gives none back.

A loop cuts the chunks by the room of a scratch buffer, which is no longer than what is
expected. It ends with the chunks that are compared here (`Verify.rounds_blocks`), and
without any if nothing is expected.

Key definitions: `Bytes.DifferAt`, `Verify.Rounds`, `Verify.Decides`.
Key theorems: `Bytes.firstDifference_append`, `Verify.checkChunks_eq`,
`Verify.check_decides`.
-/

namespace BlockTransfer

/-! ### The first difference -/

namespace Bytes

variable {a b : Bytes}

/-- Two contents have different bytes at an index, and the same ones before. -/
structure DifferAt (a b : Bytes) (i : Nat) : Prop where
  byte : ∃ x y, a[i]? = some x ∧ b[i]? = some y ∧ x ≠ y
  before : ∀ j < i, a[j]? = b[j]?

theorem differAt_cons_zero {x y : UInt8} : DifferAt (x :: a) (y :: b) 0 ↔ x ≠ y := by
  constructor
  · rintro ⟨⟨x', y', hx, hy, hne⟩, -⟩
    cases hx
    cases hy
    exact hne
  · exact fun hne => ⟨⟨x, y, rfl, rfl, hne⟩, nofun⟩

theorem differAt_cons_succ {x y : UInt8} {i : Nat} :
    DifferAt (x :: a) (y :: b) (i + 1) ↔ x = y ∧ DifferAt a b i := by
  constructor
  · rintro ⟨hbyte, hbefore⟩
    have hfirst : some x = some y := hbefore 0 (Nat.succ_pos i)
    exact ⟨Option.some.inj hfirst, hbyte, fun j hj => hbefore (j + 1) (Nat.succ_lt_succ hj)⟩
  · rintro ⟨rfl, hbyte, hbefore⟩
    refine ⟨hbyte, fun j hj => ?_⟩
    cases j with
    | zero => rfl
    | succ j => exact hbefore j (Nat.lt_of_succ_lt_succ hj)

theorem firstDifference_eq_some_iff {i : Nat} :
    firstDifference a b = some i ↔ DifferAt a b i := by
  induction a generalizing b i with
  | nil =>
    refine iff_of_false (by simp [firstDifference]) fun h => ?_
    obtain ⟨x, y, hx, -, -⟩ := h.byte
    cases hx
  | cons x a ih =>
    cases b with
    | nil =>
      refine iff_of_false (by simp [firstDifference]) fun h => ?_
      obtain ⟨x, y, -, hy, -⟩ := h.byte
      cases hy
    | cons y b =>
      rw [firstDifference]
      split
      case isTrue heq =>
        cases i with
        | zero => simp [differAt_cons_zero, heq]
        | succ i => simp [differAt_cons_succ, heq, ih]
      case isFalse hne =>
        cases i with
        | zero => simp [differAt_cons_zero, hne]
        | succ i => simp [differAt_cons_succ, hne]

/-- There is no difference exactly if the longer content starts with the other. -/
theorem firstDifference_eq_none_iff (h : b.length ≤ a.length) :
    firstDifference a b = none ↔ a.take b.length = b := by
  induction a generalizing b with
  | nil =>
    rw [List.eq_nil_of_length_eq_zero (Nat.le_zero.mp h)]
    exact ⟨fun _ => rfl, fun _ => rfl⟩
  | cons x a ih =>
    cases b with
    | nil => exact ⟨fun _ => rfl, fun _ => rfl⟩
    | cons y b =>
      have hrest := ih (Nat.le_of_succ_le_succ h)
      rw [firstDifference, List.length_cons, List.take_succ_cons, List.cons.injEq]
      split
      case isTrue heq => rw [Option.map_eq_none_iff, hrest, and_iff_right heq]
      case isFalse hne => exact iff_of_false (Option.some_ne_none 0) fun h => hne h.1

/-- Contents of one length are compared first, what follows them after that. -/
theorem firstDifference_append (h : a.length = b.length) (c d : Bytes) :
    firstDifference (a ++ c) (b ++ d) =
      (firstDifference a b).or ((firstDifference c d).map (a.length + ·)) := by
  induction a generalizing b with
  | nil =>
    obtain rfl := List.eq_nil_of_length_eq_zero h.symm
    simp [firstDifference]
  | cons x a ih =>
    cases b with
    | nil => cases h
    | cons y b =>
      rw [List.cons_append, List.cons_append, firstDifference, firstDifference]
      split
      · rw [ih (Nat.succ.inj h), Option.map_or, Option.map_map]
        congr 2
        funext i
        simp only [Function.comp_apply, List.length_cons]
        omega
      · rfl

/-- What comes after the end of the other content is not compared. -/
theorem firstDifference_take (a b : Bytes) :
    firstDifference (a.take b.length) b = firstDifference a b := by
  induction a generalizing b with
  | nil => rw [List.take_nil]
  | cons x a ih =>
    cases b with
    | nil => rfl
    | cons y b => rw [List.length_cons, List.take_succ_cons, firstDifference, firstDifference, ih]

/-- A slice is cut in two. -/
theorem slice_split (data : Bytes) {a b c : Nat} (hab : a ≤ b) (hbc : b ≤ c) :
    slice data a (c - a) = slice data a (b - a) ++ slice data b (c - b) := by
  have hsum : c - a = (b - a) + (c - b) := by omega
  have hb : a + (b - a) = b := Nat.add_sub_cancel' hab
  rw [slice, hsum, List.take_add, List.drop_drop, hb]
  rfl

end Bytes

namespace Verify

open Bytes (firstDifference slice DifferAt)
open ByteRange (Tiles)

variable {files : FileSystem} {path : String} {data expected : Bytes}

/-! ### Chunks -/

/-- What is reported of bytes from `start` on. -/
def report (path : String) (start : Nat) : Option Nat → Except TransferError Unit
  | some i => .error (.mismatch path (start + i))
  | none => .ok ()

/-- The chunks show the first difference of what they tile. -/
theorem checkChunks_eq {h : FileSystem.Handle} (hfile : files.entryAt? h.at_ = some (.file data)) :
    ∀ {a b : Nat} {chunks : List ByteRange}, Tiles a b chunks → b ≤ data.length →
    b ≤ expected.length → checkChunks files h path expected chunks =
      report path a (firstDifference (slice data a (b - a)) (slice expected a (b - a)))
  | a, _, [], ht, _, _ => by
    cases ht
    rw [Nat.sub_self]
    rfl
  | a, b, q :: qs, ⟨hq, hlt, ht⟩, hdata, hexpected => by
    have hread : files.readAt h q.start q.length = .ok (slice data a (q.stop - a)) := by
      rw [Operation.readAt_eq_slice (by rw [hfile]; nofun), FileSystem.content_eq hfile,
        ByteRange.length, hq]
    have hle := ht.le
    have hlength : (slice data a (q.stop - a)).length = q.stop - a := by
      rw [Bytes.length_slice]
      omega
    have hlength' : (slice expected a (q.stop - a)).length = q.stop - a := by
      rw [Bytes.length_slice]
      omega
    have hwhole : ¬(slice data a (q.stop - a)).length < q.length := by
      rw [hlength, ByteRange.length, hq]
      exact Nat.lt_irrefl _
    rw [Bytes.slice_split data (Nat.le_of_lt hlt) hle,
      Bytes.slice_split expected (Nat.le_of_lt hlt) hle,
      Bytes.firstDifference_append (hlength.trans hlength'.symm), hlength, checkChunks, hread]
    simp only [if_neg hwhole]
    rw [ByteRange.length, hq]
    cases firstDifference (slice data a (q.stop - a)) (slice expected a (q.stop - a)) with
    | some i => rfl
    | none =>
      have hsum (i : Nat) : q.stop + i = a + (q.stop - a + i) := by omega
      dsimp only
      rw [checkChunks_eq hfile ht hdata hexpected, Option.none_or]
      cases firstDifference (slice data q.stop (b - q.stop))
          (slice expected q.stop (b - q.stop)) with
      | some i => exact congrArg (fun n => Except.error (TransferError.mismatch path n)) (hsum i)
      | none => rfl

/-- A file that has content is opened. -/
theorem openRead_of_read? (h : files.read? path = some data) :
    ∃ handle, files.openRead path = .ok handle ∧
      files.entryAt? handle.at_ = some (.file data) := by
  unfold FileSystem.read? FileSystem.view at h
  cases hopen : files.openRead path with
  | error e => rw [hopen] at h; cases h
  | ok handle =>
    refine ⟨handle, rfl, ?_⟩
    rw [hopen] at h
    cases hentry : files.entryAt? handle.at_ with
    | none => simp only [hentry] at h; cases h
    | some entry =>
      cases entry with
      | file _ => simp only [hentry] at h; cases h; rfl
      | directory => simp only [hentry] at h; cases h
      | link _ => simp only [hentry] at h; cases h

/-- A comparison reports a file that is too short, or else the first difference. -/
theorem check_eq (h : files.read? path = some data) (expected : Bytes) :
    check files path expected =
      if data.length < expected.length then
        .error (.shortRead path expected.length data.length)
      else report path 0 (firstDifference data expected) := by
  obtain ⟨handle, hopen, hfile⟩ := openRead_of_read? h
  have hlength : files.length handle = data.length := by simp only [FileSystem.length, hfile]
  rw [check, hopen]
  simp only [hlength]
  split
  · rfl
  · have ht : Tiles 0 expected.length (ByteRange.blocks chunkSize ⟨0, expected.length⟩) :=
      ByteRange.tiles_blocks ⟨0, expected.length⟩ (by decide) (Nat.zero_le _)
    rw [checkChunks_eq hfile ht (by omega) (Nat.le_refl _)]
    simp only [slice, List.drop_zero, Nat.sub_zero, List.take_length, Bytes.firstDifference_take]

/-! ### The loop -/

/-- The chunks of a loop that has room for `room` bytes at a time: it stops once the
offset has reached the end, and takes as much as fits before that. Without room it would
never stop. -/
inductive Rounds (room stop : Nat) : Nat → List ByteRange → Prop where
  | done {offset} (h : stop ≤ offset) : Rounds room stop offset []
  | next {offset chunks} (h : offset < stop)
      (rest : Rounds room stop (offset + min room (stop - offset)) chunks) :
      Rounds room stop offset (⟨offset, offset + min room (stop - offset)⟩ :: chunks)

theorem rounds_of_tiles {room : Nat} : ∀ {a b : Nat} {chunks : List ByteRange},
    Tiles a b chunks → (∀ r ∈ chunks, r.length = min room (b - r.start)) →
    Rounds room b a chunks
  | _, _, [], ht, _ => .done (Nat.le_of_eq ht.symm)
  | a, b, q :: qs, ⟨hq, hlt, ht⟩, hlength => by
    obtain ⟨hlen, hlength⟩ := List.forall_mem_cons.mp hlength
    rw [ByteRange.length, hq] at hlen
    have hle := ht.le
    have hstop : q.stop = a + min room (b - a) := by omega
    have hrest := rounds_of_tiles ht hlength
    have hround : q = ⟨a, a + min room (b - a)⟩ := by rw [← hstop, ← hq]
    rw [hround]
    exact .next (by omega) (hstop ▸ hrest)

/-- A loop whose room is a block, or all that there is to take if that is less, takes the
blocks. -/
theorem rounds_blocks {blockSize : Nat} (hb : 0 < blockSize) (n : Nat) :
    Rounds (min blockSize n) n 0 (ByteRange.blocks blockSize ⟨0, n⟩) := by
  refine rounds_of_tiles (ByteRange.tiles_blocks ⟨0, n⟩ hb (Nat.zero_le n)) fun r hr => ?_
  have hlength := ByteRange.length_of_mem_blocks hb hr
  simp only at hlength
  omega

/-! ### The verdict -/

/-- What the comparison of a file with expected bytes comes to. -/
structure Decides (path : String) (data expected : Bytes) (result : Except TransferError Unit) :
    Prop where
  ok_iff : result = .ok () ↔
    expected.length ≤ data.length ∧ data.take expected.length = expected
  shortRead_iff : result = .error (.shortRead path expected.length data.length) ↔
    data.length < expected.length
  mismatch_iff : ∀ i, result = .error (.mismatch path i) ↔
    expected.length ≤ data.length ∧ DifferAt data expected i
  /-- There is no other verdict. -/
  verdict : result = .ok () ∨
    result = .error (.shortRead path expected.length data.length) ∨
    ∃ i, result = .error (.mismatch path i)
  /-- The loop ends, with the chunks that are compared. -/
  ends : Rounds (min chunkSize expected.length) expected.length 0
    (ByteRange.blocks chunkSize ⟨0, expected.length⟩)

/-- A comparison decides whether a regular file starts with the expected bytes, for files and
expected bytes of any length. -/
theorem check_decides (h : files.read? path = some data) (expected : Bytes) :
    Decides path data expected (check files path expected) := by
  have hends : Rounds _ _ _ (ByteRange.blocks chunkSize _) :=
    rounds_blocks (by decide) expected.length
  rw [check_eq h]
  split
  case isTrue hlt =>
    refine ⟨⟨nofun, fun h => by omega⟩, ⟨fun _ => hlt, fun _ => rfl⟩,
      fun i => ⟨nofun, fun h => by omega⟩, .inr (.inl rfl), hends⟩
  case isFalse hle =>
    have hle := Nat.le_of_not_lt hle
    have hnone := Bytes.firstDifference_eq_none_iff hle
    have hsome (i : Nat) : firstDifference data expected = some i ↔ DifferAt data expected i :=
      Bytes.firstDifference_eq_some_iff
    cases hd : firstDifference data expected with
    | none =>
      refine ⟨⟨fun _ => ⟨hle, hnone.mp hd⟩, fun _ => rfl⟩, ⟨nofun, fun h => by omega⟩,
        fun i => ⟨nofun, fun h => ?_⟩, .inl rfl, hends⟩
      rw [hd] at hsome
      cases (hsome i).mpr h.2
    | some i =>
      refine ⟨⟨nofun, fun h => ?_⟩, ⟨nofun, fun h => by omega⟩, fun j => ?_,
        .inr (.inr ⟨i, by rw [report, Nat.zero_add]⟩), hends⟩
      · cases hd.symm.trans (hnone.mpr h.2)
      · rw [report, Nat.zero_add, ← hsome j, hd, and_iff_right hle]
        simp

/-! ### A difference in the second chunk

The file has a chunk of zeros and one byte more. -/

namespace SecondChunk

def content (last : UInt8) : Bytes := Bytes.zeros chunkSize ++ [last]

def stored : FileSystem := { entries := [(["f"], .file (content 1))] }

theorem differAt : DifferAt (content 1) (content 2) chunkSize where
  byte := by
    refine ⟨1, 2, ?_, ?_, by decide⟩ <;>
      rw [content, List.getElem?_append_right (Nat.le_of_eq (Bytes.length_zeros _)),
        Bytes.length_zeros, Nat.sub_self] <;> rfl
  before j hj := by
    have hj : j < (Bytes.zeros chunkSize).length := by rwa [Bytes.length_zeros]
    rw [content, content, List.getElem?_append_left hj, List.getElem?_append_left hj]

end SecondChunk

open SecondChunk in
theorem check_decides_second_chunk :
    stored.read? "f" = some (content 1) ∧
      Decides "f" (content 1) (content 2) (check stored "f" (content 2)) ∧
      check stored "f" (content 2) = .error (.mismatch "f" 65536) := by
  have hread : stored.read? "f" = some (content 1) := rfl
  have hdecides := check_decides hread (content 2)
  exact ⟨hread, hdecides, (hdecides.mismatch_iff 65536).mpr
    ⟨by simp [content], differAt⟩⟩

end Verify
end BlockTransfer
