import BlockTransfer.Path
/-!
# Names of module files

The module of the device type `t` is the file `t_op.so` in the plugins root.
Every file name of that form names one device type, and the empty type has no
file. What the extension is depends on the platform, and nothing else does.

Key definitions: `ModuleName.encode`, `ModuleName.decode?`, `ModuleName.path`.
-/

namespace BlockTransfer
namespace ModuleName

/-- What follows the device type in a module's file name. -/
def suffix : String := "_op"

/-- The extension of a loadable module. -/
def extension : String := "so"

/-- The file name of a device type's module where modules have some extension. -/
def encodeWith (extension deviceType : String) : String :=
  deviceType ++ suffix ++ "." ++ extension

/-- The file name of a device type's module. -/
def encode (deviceType : String) : String := encodeWith extension deviceType

/-- The list without an ending, if it has that ending. -/
def dropEnding? (ending cs : List Char) : Option (List Char) :=
  if ending.isSuffixOf cs then some (cs.take (cs.length - ending.length)) else none

/-- The device type that a file name names where modules have some extension. -/
def decodeWith? (extension file : String) : Option String := do
  let cs ← dropEnding? extension.toList file.toList
  let cs ← dropEnding? ['.'] cs
  let cs ← dropEnding? suffix.toList cs
  if cs.isEmpty then none else some (String.ofList cs)

/-- The device type that a file name names. -/
def decode? (file : String) : Option String := decodeWith? extension file

/-- Where the module of a device type is expected. -/
def path (root deviceType : String) : String := Path.join root (encode deviceType)

end ModuleName
end BlockTransfer
