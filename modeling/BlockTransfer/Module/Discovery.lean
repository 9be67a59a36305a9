import BlockTransfer.FileSystem
import BlockTransfer.Module.Name
/-!
# Discovering modules

The device types of the module files in a plugins root, sorted and without
repetition. A root that cannot be listed has none.

Key definitions: `Discovery.sortTypes`, `Discovery.types`.
-/

namespace BlockTransfer
namespace Discovery

/-- Puts a device type into a strictly increasing list of them. -/
def insertType (t : String) : List String → List String
  | [] => [t]
  | u :: us => if t < u then t :: u :: us else if t = u then u :: us else u :: insertType t us

/-- The device types in increasing order, each once. -/
def sortTypes (ts : List String) : List String := ts.foldr insertType []

/-- The device types that file names name, in increasing order. -/
def ofFileNames (files : List String) : List String :=
  sortTypes (files.filterMap ModuleName.decode?)

/-- The device types with a module file in the root. -/
def types (files : FileSystem) (root : String) : List String := ofFileNames (files.listFiles root)

end Discovery
end BlockTransfer
