import BlockTransfer.Cli.Program
/-!
# The executable

The outer layer of the program: it takes what a command needs from the host (the
environment, the configuration files, the modules, the file to read), runs
`Program.run` on that, and gives the host what came of it (the file written, the
output, the exit status). A file that cannot be taken is not there; a directory
is there without its content.
-/

namespace BlockTransfer
namespace Executable

/-- One variable of an environment block. -/
def entryAt? (entry : List Char) : Option (String × String) :=
  match Literal.splitAtFirst (· == '=') entry with
  | (_, []) => none
  | (name, _ :: value) => some (String.ofList name, String.ofList value)

/-- The variables of an environment block, in which a NUL ends each of them. -/
def environment (block : Bytes) : Variables :=
  (Path.pieces (· == '\x00') (Utf8.decode block).toList).filterMap entryAt?

/-- A number of milliseconds in seconds, with three decimals. -/
def seconds (milliseconds : Nat) : String :=
  let decimals := toString (1000 + milliseconds % 1000)
  s!"{milliseconds / 1000}.{decimals.drop 1}"

/-- The file system with a file put at a path, with the directories above. -/
def place (fs : FileSystem) (path : String) (data : Bytes) : FileSystem :=
  let placed := do
    let fs ← fs.makeDirectories (FileSystem.parent path)
    fs.writeFile path data
  placed.toOption.getD fs

/-- The files that a command reads besides its modules. -/
def filesOf (i : Invocation) (env : Variables) : List String :=
  let sources : ConfigSources := { files := {}, environment := env, projectDirectory := i.project }
  sources.paths ++ i.command.file?.toList

/-- Takes the file at a path from the host. -/
def take (fs : FileSystem) (path : String) : IO FileSystem := do
  try
    let data ← IO.FS.readBinFile path
    return place fs path data.data.toList
  catch
    | .inappropriateType .. => return (fs.makeDirectories path).toOption.getD fs
    | _ => return fs

/-- The names in a directory of the host. -/
def namesIn (path : String) : IO (List String) := do
  try
    let directory ← IO.FS.realPath path
    return (← directory.readDir).toList.map (·.fileName)
  catch _ => return []

/-- Takes the modules under a plugins root from the host. -/
def takeModules (fs : FileSystem) (root : String) : IO FileSystem := do
  let files := (← namesIn root).filter fun name => (ModuleName.decode? name).isSome
  files.foldlM (fun fs name => take fs (Path.join root name)) fs

/-- The world of a command: what it may read of the host. -/
def world (i : Invocation) (env : Variables) : IO World := do
  let here := toString (← IO.currentDir)
  let start := ((({} : FileSystem).makeDirectories here).toOption.getD {})
  let start := { start with cwd := FileSystem.names here }
  let files ← (filesOf i env).foldlM take start
  let w : World := { storage := { files }, nextPool := 1 }
  match Program.config i env w with
  | .error _ => return w
  | .ok c => return { w with storage := { files := ← takeModules files c.pluginsRoot } }

/-- Gives the host the content of a file that a command changed. -/
def give (before after : FileSystem) (path : String) : IO Unit :=
  match after.read? path with
  | some data =>
    if before.read? path = some data then return
    else IO.FS.writeBinFile path ⟨data.toArray⟩
  | none => return

/-- Runs the program on the host. -/
def run (args : List String) : IO UInt32 := do
  let block ← try IO.FS.readBinFile "/proc/self/environ" catch _ => pure .empty
  let env := environment block.data.toList
  let invocation := (Arguments.parse args).toOption
  let before ← match invocation with
    | some i => world i env
    | none => pure { nextPool := 1 }
  let started ← IO.monoMsNow
  let (outcome, after) := Program.run args env before
  match invocation.bind (·.command.file?) with
  | some file => give before.storage.files after.storage.files file
  | none => pure ()
  let elapsed := seconds ((← IO.monoMsNow) - started)
  IO.print (Program.fillIn elapsed outcome.output)
  match outcome.error with
  | some message => IO.eprintln message
  | none => pure ()
  return UInt32.ofNat outcome.status

end Executable
end BlockTransfer

def main (args : List String) : IO UInt32 := BlockTransfer.Executable.run args
