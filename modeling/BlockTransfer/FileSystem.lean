import BlockTransfer.Bytes
import BlockTransfer.Error
import BlockTransfer.Path
/-!
# File systems

A file system maps the canonical path of every entry (the names from the root
on, with no link, `.` or `..` in it) to a regular file's content, to a
directory, or to a symbolic link's target. The root is always a directory.

A path as a caller gives it is walked name by name from the root or the
working directory: links are followed, `..` goes to the parent of the directory
reached, and a slash at the end asks for a directory. The failures are those
of the system: a missing name, a file where a directory is needed, a name or a
path that is too long, too many links, a NUL character.

An opened file is a `Handle`, the canonical path that the walk ended at.
Opening for writing creates the file or empties it; through a link whose target
is missing it creates the target.

Key definitions: `FileSystem`, `FileSystem.walk`, `FileSystem.openRead`,
`FileSystem.create`, `FileSystem.readAt`, `FileSystem.writeAt`.
-/

namespace BlockTransfer

/-- What a name in a directory stands for. -/
inductive Entry where
  | file (data : Bytes)
  | directory
  | link (target : String)
  deriving DecidableEq, Repr

/-- The names from the root to an entry, with no link, `.` or `..` among them. -/
abbrev CanonicalPath := List String

/-- The entries below the root, and the directory that relative paths start at. -/
structure FileSystem where
  entries : List (CanonicalPath × Entry) := []
  cwd : CanonicalPath := []
  deriving DecidableEq, Repr

namespace FileSystem

/-- The longest name, in bytes. -/
def maxName : Nat := 255

/-- The longest path, in bytes. -/
def maxPath : Nat := 4095

/-- How many links one walk follows. -/
def maxLinks : Nat := 40

/-- The length that the system reports for a directory. -/
def directoryLength : Nat := 4096

/-- The entry at a canonical path. -/
def entryAt? (fs : FileSystem) (at_ : CanonicalPath) : Option Entry :=
  if at_.isEmpty then some .directory else fs.entries.lookup at_

/-- The file system with one entry set. -/
def insert (fs : FileSystem) (at_ : CanonicalPath) (e : Entry) : FileSystem :=
  { fs with entries :=
      if (fs.entries.lookup at_).isSome then
        fs.entries.map fun x => if x.1 == at_ then (at_, e) else x
      else fs.entries ++ [(at_, e)] }

/-- The file system without the entry at a canonical path. -/
def erase (fs : FileSystem) (at_ : CanonicalPath) : FileSystem :=
  { fs with entries := fs.entries.filter fun x => x.1 != at_ }

/-! ### Walking a path -/

/-- What the walk is for. -/
inductive Purpose where
  /-- The entry has to be there. -/
  | find
  /-- The last name may be missing, and a slash after it asks for a file that
  would have to be a directory. -/
  | create
  /-- The last name itself, even if it is a link. -/
  | unlink
  deriving DecidableEq, Repr

/-- Where a walk ends. -/
inductive Found where
  | directory (at_ : CanonicalPath)
  | file (at_ : CanonicalPath)
  | link (at_ : CanonicalPath)
  /-- The directory is there and the name is not. -/
  | absent (at_ : CanonicalPath)
  deriving DecidableEq, Repr

/-- Where a run of names ends: at an entry, or before a link to follow. -/
inductive Stop where
  | found (f : Found)
  | link (directory : CanonicalPath) (target : String) (rest : List String)
  deriving DecidableEq, Repr

/-- The names to walk: those between the slashes, and an empty one at the end
if the path ends with a slash. -/
def names (path : String) : List String :=
  let kept := (Path.segments path).filter (!·.isEmpty)
  if Path.endsWithSlash path && !kept.isEmpty then kept ++ [""] else kept

/-- Walks names from a directory up to the first link that has to be followed. -/
def steps (fs : FileSystem) (purpose : Purpose) :
    CanonicalPath → List String → Except OsErrorKind Stop
  | cur, [] => .ok (.found (.directory cur))
  | cur, name :: rest =>
    if name.isEmpty || name == "." then steps fs purpose cur rest
    else if name == ".." then steps fs purpose cur.dropLast rest
    else if purpose = .create ∧ rest = [""] then .error .isADirectory
    else if maxName < name.utf8ByteSize then .error .invalidFilename
    else match fs.entryAt? (cur ++ [name]) with
      | some .directory => steps fs purpose (cur ++ [name]) rest
      | some (.file _) =>
        if rest.isEmpty then .ok (.found (.file (cur ++ [name]))) else .error .notADirectory
      | some (.link target) =>
        if rest.isEmpty && purpose == .unlink then .ok (.found (.link (cur ++ [name])))
        else .ok (.link cur target rest)
      | none =>
        if rest.isEmpty then
          if purpose = .create then .ok (.found (.absent (cur ++ [name]))) else .error .notFound
        else .error .notFound

/-- Walks names from a directory and follows at most `links` links. -/
def walk (fs : FileSystem) (purpose : Purpose) :
    Nat → CanonicalPath → List String → Except OsErrorKind Found
  | links, cur, rest =>
    match steps fs purpose cur rest with
    | .error e => .error e
    | .ok (.found f) => .ok f
    | .ok (.link directory target after) =>
      match links with
      | 0 => .error .filesystemLoop
      | n + 1 =>
        walk fs purpose n (if Path.isAbsolute target then [] else directory)
          (names target ++ after)

/-- Walks a path as a caller gives it. -/
def resolve (fs : FileSystem) (purpose : Purpose) (path : String) : Except OsErrorKind Found :=
  if path.toList.contains '\x00' then .error .invalidInput
  else if path.isEmpty then .error .notFound
  else if maxPath < path.utf8ByteSize then .error .invalidFilename
  else walk fs purpose maxLinks (if Path.isAbsolute path then [] else fs.cwd) (names path)

/-! ### Open files -/

/-- An opened file or directory. -/
structure Handle where
  at_ : CanonicalPath
  deriving DecidableEq, Repr

/-- Opens an existing file or directory for reading. -/
def openRead (fs : FileSystem) (path : String) : Except OsErrorKind Handle :=
  match fs.resolve .find path with
  | .error e => .error e
  | .ok (.directory p) | .ok (.file p) | .ok (.link p) => .ok ⟨p⟩
  | .ok (.absent _) => .error .notFound

/-- Opens a file for writing without touching its content; a missing one is
created empty. -/
def openWrite (fs : FileSystem) (path : String) : Except OsErrorKind (Handle × FileSystem) :=
  match fs.resolve .create path with
  | .error e => .error e
  | .ok (.directory _) => .error .isADirectory
  | .ok (.file p) | .ok (.link p) => .ok (⟨p⟩, fs)
  | .ok (.absent p) => .ok (⟨p⟩, fs.insert p (.file []))

/-- Opens a file for writing; it is created, or emptied. -/
def create (fs : FileSystem) (path : String) : Except OsErrorKind (Handle × FileSystem) :=
  (fs.openWrite path).map fun (h, fs) => (h, fs.insert h.at_ (.file []))

/-- The content behind a handle; a directory has none. -/
def content (fs : FileSystem) (h : Handle) : Bytes :=
  match fs.entryAt? h.at_ with
  | some (.file data) => data
  | _ => []

/-- The length that the system reports for an opened file or directory. -/
def length (fs : FileSystem) (h : Handle) : Nat :=
  match fs.entryAt? h.at_ with
  | some (.file data) => data.length
  | some .directory => directoryLength
  | _ => 0

/-- At most `n` bytes at an offset; fewer where the file ends. A directory
cannot be read. -/
def readAt (fs : FileSystem) (h : Handle) (offset n : Nat) : Except OsErrorKind Bytes :=
  match fs.entryAt? h.at_ with
  | some .directory => .error .isADirectory
  | _ => .ok (Bytes.slice (fs.content h) offset n)

/-- Writes bytes at an offset. -/
def writeAt (fs : FileSystem) (h : Handle) (offset : Nat) (data : Bytes) : FileSystem :=
  fs.insert h.at_ (.file (Bytes.overwrite (fs.content h) offset data))

/-- Cuts or pads a file to a length. -/
def setLength (fs : FileSystem) (h : Handle) (n : Nat) : FileSystem :=
  fs.insert h.at_ (.file (Bytes.resize (fs.content h) n))

/-! ### Whole files and directories -/

/-- What a path leads to, as a caller who only looks sees it. -/
inductive View where
  | file (data : Bytes)
  | directory
  | missing
  deriving DecidableEq, Repr

/-- What a path leads to; every failure counts as missing. -/
def view (fs : FileSystem) (path : String) : View :=
  match fs.openRead path with
  | .error _ => .missing
  | .ok h =>
    match fs.entryAt? h.at_ with
    | some .directory => .directory
    | some (.file data) => .file data
    | _ => .missing

/-- The content of the regular file at a path. -/
def read? (fs : FileSystem) (path : String) : Option Bytes :=
  match fs.view path with
  | .file data => some data
  | _ => none

/-- The names in the directory at a path that are not directories themselves;
a link counts as one whatever it leads to. -/
def listFiles (fs : FileSystem) (path : String) : List String :=
  match fs.resolve .find path with
  | .ok (.directory p) =>
    fs.entries.filterMap fun (key, e) =>
      if e ≠ .directory ∧ key.dropLast = p then key.getLast? else none
  | _ => []

/-- Removes the name at a path, be it a file's or a link's. -/
def remove (fs : FileSystem) (path : String) : Except OsErrorKind FileSystem :=
  match fs.resolve .unlink path with
  | .error e => .error e
  | .ok (.directory _) => .error .isADirectory
  | .ok (.absent _) => .error .notFound
  | .ok (.file p) | .ok (.link p) => .ok (fs.erase p)

/-- Replaces the content of the file at a path, which is created if missing. -/
def writeFile (fs : FileSystem) (path : String) (data : Bytes) : Except OsErrorKind FileSystem :=
  (fs.create path).map fun (h, fs) => fs.writeAt h 0 data

/-- Makes the directories on the way to a path and at it. -/
def makeDirectories (fs : FileSystem) (path : String) : Except OsErrorKind FileSystem :=
  let start := if Path.isAbsolute path then "/" else ""
  let grow := fun (acc : Except OsErrorKind (String × FileSystem)) (name : String) => do
    let (sofar, fs) ← acc
    let next := if sofar.isEmpty then name else Path.join sofar name
    match fs.resolve .create next with
    | .error e => .error e
    | .ok (.absent p) => .ok (next, fs.insert p .directory)
    | .ok (.directory _) => .ok (next, fs)
    | .ok _ => .error (.other "AlreadyExists")
  (((names path).filter (!·.isEmpty)).foldl grow (.ok (start, fs))).map Prod.snd

/-- The directory part of a path: what stands before its last name. -/
def parent (path : String) : String :=
  let above := (names path).filter (!·.isEmpty) |>.dropLast
  (if Path.isAbsolute path then "/" else "") ++ "/".intercalate above

/-- Puts a symbolic link at a path that holds nothing yet. -/
def makeLink (fs : FileSystem) (path target : String) : Except OsErrorKind FileSystem :=
  if target.isEmpty then .error .notFound
  else match fs.resolve .unlink path with
  | .ok _ => .error (.other "AlreadyExists")
  | .error .notFound =>
    match fs.resolve .create path with
    | .ok (.absent p) => .ok (fs.insert p (.link target))
    | .ok _ => .error (.other "AlreadyExists")
    | .error e => .error e
  | .error e => .error e

end FileSystem
end BlockTransfer
