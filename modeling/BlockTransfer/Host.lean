import BlockTransfer.Value
import BlockTransfer.Word
/-!
# What only the host knows

Workers need memory and threads, a library that is named without a directory is
looked for where the system keeps its libraries, a user has a home directory, and the
keys of a table come in an order that chance decides. A `Host` answers such questions.
Nothing is assumed about the answers; the ones that stand by default are those of a
host that has what it is asked for.

Key definitions: `Arrangement`, `Host`.
-/

namespace BlockTransfer

/-- What a layer of a configuration is made from. -/
inductive LayerSource where
  | defaults
  | file (path : String)
  | environment
  deriving DecidableEq, Repr

/-- The orders in which the entries of layers come. A layer keeps its entries in no
order of its own. -/
structure Arrangement where
  arrange : LayerSource → List (String × Value) → List (String × Value)
  perm : ∀ source entries, (arrange source entries).Perm entries

/-- The order in which the entries are written. -/
def Arrangement.asWritten : Arrangement := ⟨fun _ entries => entries, fun _ _ => .refl _⟩

/-- The answers of a host. -/
structure Host where
  /-- Whether a list of so many workers can be held. A worker's record takes 40 bytes. -/
  holdsWorkers : Nat → Bool := fun n => n * 40 < Word.signedLimit
  /-- Whether a worker's inbox can be made for so many jobs. A place in it takes 32 bytes. -/
  holdsJobs : Nat → Bool := fun n => n * 32 < Word.signedLimit
  /-- Why the thread of the worker at that place is not started, if it is not. -/
  spawnFault? : Nat → Option String := fun _ => none
  /-- The path of the library that is found by a name without a directory. -/
  findLibrary? : String → Option String := fun _ => none
  /-- The home directory that the register of users gives. -/
  home? : Option String := none
  /-- The order in which the entries of a configuration's layers come. -/
  arrangement : Arrangement := .asWritten

end BlockTransfer
