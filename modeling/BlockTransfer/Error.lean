import BlockTransfer.ElementType
/-!
# Errors of transfers and devices

Each error is a cause. The wording stands in one `message` per type, and an
error that was raised by another one names that one's text in `source?`.

A device answers with a `DeviceError`: an operation it does not have, a failed
transfer, a misused locked buffer, settings it refuses, or a resource it could
not get.

Key definitions: `OsError`, `TransferError`, `LifecycleError`, `DeviceError`.
-/

namespace BlockTransfer

/-- The kind of a failure that the operating system reports. -/
inductive OsErrorKind where
  | notFound | notADirectory | isADirectory | invalidInput | invalidFilename | filesystemLoop
  /-- A kind that no operation of this library raises by itself. -/
  | other (name : String)
  deriving DecidableEq, Repr

/-- The name of the kind. -/
def OsErrorKind.name : OsErrorKind → String
  | notFound => "NotFound"
  | notADirectory => "NotADirectory"
  | isADirectory => "IsADirectory"
  | invalidInput => "InvalidInput"
  | invalidFilename => "InvalidFilename"
  | filesystemLoop => "FilesystemLoop"
  | other name => name

/-- The kind of that name. -/
def OsErrorKind.ofName (s : String) : OsErrorKind :=
  match [notFound, notADirectory, isADirectory, invalidInput, invalidFilename,
      filesystemLoop].find? (·.name == s) with
  | some k => k
  | none => other s

/-- A failure that the operating system reports: its kind and its own words. -/
structure OsError where
  kind : OsErrorKind
  text : String
  deriving DecidableEq, Repr

/-- The failure of a given kind, in the system's words. -/
def OsError.ofKind (kind : OsErrorKind) : OsError :=
  ⟨kind, match kind with
    | .notFound => "No such file or directory (os error 2)"
    | .notADirectory => "Not a directory (os error 20)"
    | .isADirectory => "Is a directory (os error 21)"
    | .invalidInput => "file name contained an unexpected NUL byte"
    | .invalidFilename => "File name too long (os error 36)"
    | .filesystemLoop => "Too many levels of symbolic links (os error 40)"
    | .other name => name⟩

/-- Why a buffer cannot be made as requested. -/
inductive BufferFault where
  /-- The byte length does not fit in an address. -/
  | overflow (count : Nat) (type : ElementType)
  /-- The byte length is beyond what one allocation may ask for. -/
  | tooLong (len : Nat)
  /-- The memory is not there. -/
  | exhausted (len : Nat)
  /-- The data end inside an element. -/
  | ragged (len : Nat) (type : ElementType)
  /-- A device's own reason. -/
  | reported (text : String)
  deriving DecidableEq, Repr

/-- The wording of the cause. -/
def BufferFault.message : BufferFault → String
  | overflow count type => s!"{count} {type.name} elements overflow the address space"
  | tooLong len =>
    s!"cannot allocate {len} bytes: memory allocation failed because the computed capacity " ++
      "exceeded the collection's maximum"
  | exhausted len =>
    s!"cannot allocate {len} bytes: memory allocation failed because the memory allocator " ++
      "returned an error"
  | ragged len type => s!"{len} bytes is not a whole number of {type.name} elements"
  | reported text => text

/-- A failure to move bytes between buffers and files. -/
inductive TransferError where
  /-- The operating system refused, for any reason but a missing file. -/
  | os (path : String) (error : OsError)
  /-- There is no such file. -/
  | notFound (path : String)
  /-- The file ends before the buffer is filled. -/
  | shortRead (path : String) (expected actual : Nat)
  /-- Fewer bytes reached the file than the buffer holds. -/
  | shortWrite (path : String) (expected actual : Nat)
  /-- The file's content differs from the buffer's, first at `offset`. -/
  | mismatch (path : String) (offset : Nat)
  /-- Two buffers that have to be of one length are not. -/
  | lengthMismatch (expected actual : Nat)
  /-- A buffer could not be made. -/
  | invalidBuffer (fault : BufferFault)
  deriving DecidableEq, Repr

namespace TransferError

/-- A system failure on `path`: a missing file has an error of its own. -/
def ofOs (path : String) (e : OsError) : TransferError :=
  if e.kind = .notFound then notFound path else os path e

/-- The wording of the error. -/
def message : TransferError → String
  | os path e => s!"I/O error on {path}: {e.text}"
  | notFound path => s!"file not found: {path}"
  | shortRead path expected actual =>
    s!"short read from {path}: expected {expected} bytes, file has {actual}"
  | shortWrite path expected actual =>
    s!"short write to {path}: expected {expected} bytes, wrote {actual}"
  | mismatch path offset => s!"validation failed for {path}: first mismatch at byte {offset}"
  | lengthMismatch expected actual =>
    s!"buffer length mismatch: expected {expected} bytes, got {actual}"
  | invalidBuffer fault => s!"invalid buffer: {fault.message}"

/-- The text of the error that caused this one. -/
def source? : TransferError → Option String
  | os _ e => some e.text
  | _ => none

end TransferError

/-- Misuse of locked buffers. -/
inductive LifecycleError where
  /-- The buffer was never allocated as a locked one. -/
  | notLocked
  /-- The buffer belongs to another pool. -/
  | foreign (id owner pool : Nat)
  /-- The buffer was freed already, or never registered here. -/
  | unknown (id : Nat)
  /-- The device still has locked buffers that were never freed. -/
  | outstanding (count : Nat)
  deriving DecidableEq, Repr

/-- The wording of the error. -/
def LifecycleError.message : LifecycleError → String
  | notLocked => "buffer is not a locked buffer"
  | foreign id owner pool => s!"locked buffer {id} belongs to pool {owner}, not pool {pool}"
  | unknown id => s!"locked buffer {id} is not registered with the active device"
  | outstanding count => s!"{count} locked buffer(s) still outstanding on the active device"

/-- The rule that device settings break. -/
inductive SettingsFault where
  /-- The block size is zero or no power of two. -/
  | blockSize (n : Nat)
  | queueDepth
  | threadCount
  /-- A device's own reason. -/
  | reported (text : String)
  deriving DecidableEq, Repr

/-- The wording of the cause. -/
def SettingsFault.message : SettingsFault → String
  | blockSize n => s!"block_size must be a non-zero power of two, got {n}"
  | queueDepth => "queue_depth must be positive"
  | threadCount => "thread_count must be positive"
  | reported text => text

/-- What a device answers when it does not do what it was asked. -/
inductive DeviceError where
  /-- The device does not have this operation. -/
  | unsupported (device operation : String)
  /-- A transfer, a copy or a validation failed. -/
  | transfer (error : TransferError)
  /-- A locked buffer was misused. -/
  | lifecycle (error : LifecycleError)
  /-- The settings are refused. -/
  | invalidSettings (fault : SettingsFault)
  /-- The device could not get a resource that it needs. -/
  | backend (text : String)
  deriving DecidableEq, Repr

namespace DeviceError

/-- The wording of the error; a transfer's or a lifecycle's error speaks for
itself. -/
def message : DeviceError → String
  | unsupported device operation =>
    s!"operation `{operation}` is not supported by the `{device}` device"
  | transfer e => e.message
  | lifecycle e => e.message
  | invalidSettings fault => s!"invalid device settings: {fault.message}"
  | backend text => s!"backend failure: {text}"

/-- The text of the error that caused this one. -/
def source? : DeviceError → Option String
  | transfer e => e.source?
  | _ => none

end DeviceError
end BlockTransfer
