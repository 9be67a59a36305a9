import BlockTransfer.Word
/-!
# Plans: cutting a transfer into ranges

A transfer of `len` bytes is a run of blocks, the last of which may be partial.
Run as it is, the blocks are moved one after the other. Handed to workers, the
bytes `0 … len` are cut into jobs: every block a job of its own, or at most as
many contiguous runs of blocks as there are workers, whose block counts differ
by at most one, larger ones first.

Jobs are planned in words: the start of a block is computed modulo their number,
and cut off at `len` after that.

Key definitions: `ByteRange`, `ByteRange.blocks`, `Plan.shares`, `Plan.jobs`.
-/

namespace BlockTransfer

/-- The bytes from `start` up to `stop`, which is not among them. -/
structure ByteRange where
  start : Nat
  stop : Nat
  deriving DecidableEq, Repr

namespace ByteRange

/-- The number of bytes; a range that ends before it starts has none. -/
def length (r : ByteRange) : Nat := r.stop - r.start

/-- How many blocks cover `len` bytes. -/
def blockCount (len blockSize : Nat) : Nat := (len + blockSize - 1) / blockSize

/-- The blocks of a range in order: full ones, then what is left. -/
def blocks (blockSize : Nat) (r : ByteRange) : List ByteRange :=
  (List.range (blockCount r.length blockSize)).map fun i =>
    ⟨r.start + i * blockSize, min (r.start + (i + 1) * blockSize) r.stop⟩

end ByteRange

namespace Plan

/-- The byte at which a block starts, as a word. -/
def boundary (blockSize block : Nat) : Nat := block * blockSize % Word.count

/-- The block counts of `runs` runs that share `blocks` blocks evenly: the
first runs take one more where the division leaves a rest. -/
def evenShares (blocks runs : Nat) : List Nat :=
  List.replicate (blocks % runs) (blocks / runs + 1) ++
    List.replicate (runs - blocks % runs) (blocks / runs)

/-- The block counts of the jobs. -/
def shares (blocks workers : Nat) (singleSubmit : Bool) : List Nat :=
  if singleSubmit then List.replicate blocks 1 else evenShares blocks (min workers blocks)

/-- The byte ranges of runs of blocks that follow one another. -/
def runsFrom (len blockSize : Nat) : Nat → List Nat → List ByteRange
  | _, [] => []
  | first, count :: counts =>
    ⟨boundary blockSize first, min (boundary blockSize (first + count)) len⟩ ::
      runsFrom len blockSize (first + count) counts

/-- The jobs that move `len` bytes. -/
def jobs (len blockSize workers : Nat) (singleSubmit : Bool) : List ByteRange :=
  runsFrom len blockSize 0 (shares (ByteRange.blockCount len blockSize) workers singleSubmit)

end Plan
end BlockTransfer
