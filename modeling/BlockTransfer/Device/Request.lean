import BlockTransfer.Buffer
/-!
# What a device can be asked

A `Request` is what a device answers itself, and a device answers with a
number, a switch, a buffer, or nothing. A `Call` is what a user of a device
asks for; several calls are spellings of one request, such as a positional read
with the mode fixed.

Key definitions: `Request`, `Call`, `Call.request`, `Answer`.
-/

namespace BlockTransfer

/-- Whether a positional transfer ends before the call returns. -/
inductive Mode where
  | sync
  | async
  deriving DecidableEq, Repr

/-- What a device answers itself. -/
inductive Request where
  | blockSize
  | queueDepth
  | singleSubmit
  | overlapEvents
  | threadCount
  | read (buffer : Buffer) (path : String) (validate : Bool)
  | write (buffer : Buffer) (path : String) (validate : Bool)
  | pread (buffer : Buffer) (path : String) (validate : Bool) (mode : Mode)
  | pwrite (buffer : Buffer) (path : String) (validate : Bool) (mode : Mode)
  | memcpy (dest src : Buffer)
  /-- A locked buffer of `count` elements of the type of `like`. -/
  | newLocked (count : Nat) (like : Buffer)
  | freeLocked (buffer : Buffer)
  /-- Waits for the asynchronous operations; the answer is how many ended. -/
  | wait
  deriving DecidableEq, Repr

/-- The name of the request's operation. -/
def Request.operation : Request → String
  | blockSize => "block_size"
  | queueDepth => "queue_depth"
  | singleSubmit => "single_submit"
  | overlapEvents => "overlap_events"
  | threadCount => "thread_count"
  | read .. => "read"
  | write .. => "write"
  | pread .. => "pread"
  | pwrite .. => "pwrite"
  | memcpy .. => "memcpy"
  | newLocked .. => "new_locked_buffer"
  | freeLocked .. => "free_locked_buffer"
  | wait => "wait"

/-- What a device answers. -/
inductive Answer where
  | number (n : Nat)
  | switch (on : Bool)
  | buffer (b : Buffer)
  | done
  deriving DecidableEq, Repr

/-- What a user of a device asks for. -/
inductive Call where
  | getBlockSize
  | getQueueDepth
  | getSingleSubmit
  | getOverlapEvents
  | getThreadCount
  | read (buffer : Buffer) (path : String) (validate : Bool)
  | write (buffer : Buffer) (path : String) (validate : Bool)
  | aioRead (buffer : Buffer) (path : String) (validate : Bool)
  | aioWrite (buffer : Buffer) (path : String) (validate : Bool)
  | pread (buffer : Buffer) (path : String) (validate : Bool) (mode : Mode)
  | pwrite (buffer : Buffer) (path : String) (validate : Bool) (mode : Mode)
  | syncPread (buffer : Buffer) (path : String)
  | syncPwrite (buffer : Buffer) (path : String)
  | asyncPread (buffer : Buffer) (path : String)
  | asyncPwrite (buffer : Buffer) (path : String)
  | memcpy (dest src : Buffer)
  | wait
  deriving DecidableEq, Repr

namespace Call

/-- The name of the call's operation. -/
def operation : Call → String
  | getBlockSize => "get_block_size"
  | getQueueDepth => "get_queue_depth"
  | getSingleSubmit => "get_single_submit"
  | getOverlapEvents => "get_overlap_events"
  | getThreadCount => "get_thread_count"
  | read .. => "read"
  | write .. => "write"
  | aioRead .. => "aio_read"
  | aioWrite .. => "aio_write"
  | pread .. => "pread"
  | pwrite .. => "pwrite"
  | syncPread .. => "sync_pread"
  | syncPwrite .. => "sync_pwrite"
  | asyncPread .. => "async_pread"
  | asyncPwrite .. => "async_pwrite"
  | memcpy .. => "memcpy"
  | wait => "wait"

/-- The request that the call is a spelling of. -/
def request : Call → Request
  | getBlockSize => .blockSize
  | getQueueDepth => .queueDepth
  | getSingleSubmit => .singleSubmit
  | getOverlapEvents => .overlapEvents
  | getThreadCount => .threadCount
  | read b path validate => .read b path validate
  | write b path validate => .write b path validate
  | aioRead b path validate => .pread b path validate .async
  | aioWrite b path validate => .pwrite b path validate .async
  | pread b path validate mode => .pread b path validate mode
  | pwrite b path validate mode => .pwrite b path validate mode
  | syncPread b path => .pread b path false .sync
  | syncPwrite b path => .pwrite b path false .sync
  | asyncPread b path => .pread b path false .async
  | asyncPwrite b path => .pwrite b path false .async
  | memcpy dest src => .memcpy dest src
  | wait => .wait

end Call
end BlockTransfer
