import BlockTransfer.FileSystem
import BlockTransfer.Host
import BlockTransfer.Module.Image
/-!
# Opened libraries

A library that is opened is mapped into memory as a copy with a state of its
own. While a copy is open, opening the same path, or another path of the same
file, gives the same copy again, even if the file was replaced or removed in
the meantime. When its last holder closes it, the copy is gone. A name without a
slash is no path: the host is asked for the file that it stands for.

Key definitions: `Libraries`, `Libraries.openPath`, `Libraries.close`.
-/

namespace BlockTransfer

/-- A mapped copy of a library. -/
structure LibraryCopy where
  /-- The number of the copy; no two copies share one. -/
  number : Nat
  /-- The path that it was first opened by. -/
  path : String
  file : CanonicalPath
  image : ModuleImage
  holders : Nat
  /-- The pool number that the copy's next device gets. -/
  nextPool : Nat := 1
  deriving DecidableEq, Repr

/-- The copies that are open. -/
structure Libraries where
  copies : List LibraryCopy := []
  nextNumber : Nat := 0
  deriving DecidableEq, Repr

namespace Libraries

/-- One more holder for a copy. -/
def hold (l : Libraries) (number : Nat) : Libraries :=
  { l with copies := l.copies.map fun c =>
      if c.number = number then { c with holders := c.holders + 1 } else c }

/-- The path of the file that a library's name or path stands for. -/
def locate? (host : Host) (path : String) : Option String :=
  if path.toList.contains '/' then some path else host.findLibrary? path

/-- Opens the file that a library's name or path stands for. -/
def openFile (host : Host) (files : FileSystem) (path : String) :
    Except OsErrorKind FileSystem.Handle :=
  match locate? host path with
  | none => .error .notFound
  | some path => files.openRead path

/-- Opens the library at a path; the failure is the system's text. -/
def openPath (l : Libraries) (host : Host) (files : FileSystem) (path : String) :
    Except String (LibraryCopy × Libraries) :=
  match l.copies.find? (·.path == path) with
  | some c => .ok (c, l.hold c.number)
  | none =>
    if path.toList.contains '\x00' then
      .error "data provided contains an interior nul byte"
    else match openFile host files path with
    | .error kind => .error s!"{path}: cannot open shared object file: {kind.name}"
    | .ok h =>
      match l.copies.find? (·.file == h.at_) with
      | some c => .ok (c, l.hold c.number)
      | none =>
        match ModuleImage.decode? (files.content h) with
        | none => .error s!"{path}: invalid library"
        | some image =>
          let c : LibraryCopy := ⟨l.nextNumber, path, h.at_, image, 1, 1⟩
          .ok (c, ⟨l.copies ++ [c], l.nextNumber + 1⟩)

/-- One holder closes a copy; the last one takes it away. -/
def close (l : Libraries) (number : Nat) : Libraries :=
  { l with copies := l.copies.filterMap fun c =>
      if c.number = number then
        if c.holders ≤ 1 then none else some { c with holders := c.holders - 1 }
      else some c }

/-- The pool number that a copy's next device gets. -/
def nextPool (l : Libraries) (number : Nat) : Nat :=
  ((l.copies.find? (·.number == number)).map LibraryCopy.nextPool).getD 1

/-- The libraries after a copy's pool number is used up. -/
def usePool (l : Libraries) (number : Nat) : Libraries :=
  { l with copies := l.copies.map fun c =>
      if c.number = number then { c with nextPool := c.nextPool + 1 } else c }

end Libraries
end BlockTransfer
