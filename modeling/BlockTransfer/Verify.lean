import BlockTransfer.FileSystem
import BlockTransfer.Plan
/-!
# Verifying a file against expected bytes

After a transfer the file can be read again and compared with the buffer. A
file that is too short is reported before any byte is compared; otherwise the
comparison goes chunk by chunk and reports the offset of the first byte that
differs.

Key definitions: `Verify.check`.
-/

namespace BlockTransfer
namespace Verify

/-- How many bytes are compared at a time. -/
def chunkSize : Nat := 65536

/-- Compares chunks of an opened file with the same chunks of `expected`. -/
def checkChunks (files : FileSystem) (h : FileSystem.Handle) (path : String)
    (expected : Bytes) : List ByteRange → Except TransferError Unit
  | [] => .ok ()
  | r :: rs =>
    match files.readAt h r.start r.length with
    | .error kind => .error (.ofOs path (.ofKind kind))
    | .ok data =>
      if data.length < r.length then
        .error (.ofOs path ⟨.other "UnexpectedEof", "failed to fill whole buffer"⟩)
      else match Bytes.firstDifference data (Bytes.slice expected r.start r.length) with
        | some i => .error (.mismatch path (r.start + i))
        | none => checkChunks files h path expected rs

/-- Whether the file at `path` starts with the expected bytes. -/
def check (files : FileSystem) (path : String) (expected : Bytes) : Except TransferError Unit :=
  match files.openRead path with
  | .error kind => .error (.ofOs path (.ofKind kind))
  | .ok h =>
    if files.length h < expected.length then
      .error (.shortRead path expected.length (files.length h))
    else checkChunks files h path expected (ByteRange.blocks chunkSize ⟨0, expected.length⟩)

end Verify
end BlockTransfer
