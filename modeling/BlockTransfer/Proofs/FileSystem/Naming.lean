import BlockTransfer.Proofs.FileSystem.Walking
/-!
# Paths that name files

A path names a file if a caller who may create the file ends there: at a regular
file, or at a name that is missing in a directory that is there. Such a path can
be opened, to read if the file is there and to write in any case, and it names
the same file after files are set.

Key definitions: `FileSystem.bytes?`, `FileSystem.Names`.
Key theorems: `FileSystem.Names.insert`, `FileSystem.Names.create`,
`FileSystem.Names.openRead_of_some`, `FileSystem.Names.read?_eq`.
-/

namespace BlockTransfer
namespace FileSystem

/-- The content of the regular file at a canonical path. -/
def bytes? (fs : FileSystem) (p : CanonicalPath) : Option Bytes :=
  match fs.entryAt? p with
  | some (.file data) => some data
  | _ => none

/-- The path leads to the regular file at `p`, or the directory of `p` is there
and the file is not. -/
def Names (fs : FileSystem) (path : String) (p : CanonicalPath) : Prop :=
  fs.resolve .create path = .ok (.file p) ∨ fs.resolve .create path = .ok (.absent p)

instance (fs : FileSystem) (path : String) (p : CanonicalPath) : Decidable (fs.Names path p) :=
  inferInstanceAs (Decidable (_ ∨ _))

variable {fs fs' : FileSystem} {path : String} {p q : CanonicalPath} {data : Bytes}

theorem bytes?_eq_some_iff : fs.bytes? p = some data ↔ fs.entryAt? p = some (.file data) := by
  unfold bytes?
  split
  · rename_i he
    rw [he]
    simp
  · rename_i hne
    constructor
    · intro h
      cases h
    · intro h
      exact absurd h (hne data)

/-- Setting a file sets its bytes and no other's. -/
theorem bytes?_insert (data : Bytes) (hp : p ≠ []) :
    (fs.insert p (.file data)).bytes? = Function.update fs.bytes? p (some data) := by
  funext q
  by_cases hq : q = p
  · rw [hq, Function.update_self, bytes?_eq_some_iff]
    exact entryAt?_insert_self _ hp
  · rw [Function.update_of_ne hq, bytes?, bytes?, entryAt?_insert_of_ne _ hq]

namespace Names

/-- There is a file, or there is nothing. -/
theorem fits (h : fs.Names path p) :
    p ≠ [] ∧ (fs.entryAt? p = none ∨ ∃ data, fs.entryAt? p = some (.file data)) := by
  rcases h with h | h
  · obtain ⟨hp, hfile⟩ := (resolve_fits (by decide) h).1
    exact ⟨hp, .inr hfile⟩
  · obtain ⟨hp, hnone⟩ := (resolve_fits (by decide) h).1
    exact ⟨hp, .inl hnone⟩

theorem ne_nil (h : fs.Names path p) : p ≠ [] := h.fits.1

theorem sort (h : fs.Names path p) (e : Entry) (he : fs.entryAt? p = some e) :
    e.sort = .file [] := by
  rcases h.fits.2 with hnone | ⟨data, hfile⟩
  · rw [hnone] at he
    cases he
  · rw [hfile] at he
    cases he
    rfl

theorem ne_directory (h : fs.Names path p) : fs.entryAt? p ≠ some .directory := by
  intro he
  have hs := h.sort _ he
  cases hs

/-- The path names the same file once there are more files. -/
theorem of_extends (h : fs.Names path p) (hE : fs'.Extends fs) : fs'.Names path p := by
  rcases h with h | h
  · exact .inl (resolve_of_extends hE (by decide) h)
  · have h' := resolve_of_extends hE (by decide) h
    unfold Found.among at h'
    split at h'
    · rename_i heq
      cases heq
      split at h'
      · exact .inl h'
      · exact .inr h'
    · rename_i hne
      exact absurd rfl (hne p)

/-- Setting a file that some path names moves no name. -/
theorem insert {path' : String} (h : fs.Names path p) (hq : fs.Names path' q) (data : Bytes) :
    (fs.insert q (.file data)).Names path p :=
  h.of_extends (extends_insert data hq.sort)

/-- A file that is there can be opened. -/
theorem openRead_of_some (h : fs.Names path p) (hdata : fs.bytes? p = some data) :
    fs.openRead path = .ok ⟨p⟩ := by
  rw [bytes?_eq_some_iff] at hdata
  unfold openRead
  rcases h with h | h
  · rw [resolve_find h]
    rfl
  · have hnone := (resolve_fits (by decide) h).1.2
    rw [hdata] at hnone
    cases hnone

/-- A file that is missing is not found. -/
theorem openRead_of_none (h : fs.Names path p) (hnone : fs.bytes? p = none) :
    fs.openRead path = .error .notFound := by
  unfold openRead
  rcases h with h | h
  · obtain ⟨-, data, hfile⟩ := (resolve_fits (by decide) h).1
    rw [bytes?_eq_some_iff.mpr hfile] at hnone
    cases hnone
  · rw [resolve_find h]
    rfl

/-- The file is created or emptied. -/
theorem create (h : fs.Names path p) : fs.create path = .ok (⟨p⟩, fs.insert p (.file [])) := by
  unfold FileSystem.create openWrite
  rcases h with h | h
  · rw [h]
    rfl
  · rw [h]
    simp only [Except.map, insert_insert]

/-- What is read through the path is the file's content. -/
theorem read?_eq (h : fs.Names path p) : fs.read? path = fs.bytes? p := by
  unfold read? view
  cases hb : fs.bytes? p with
  | none => rw [h.openRead_of_none hb]
  | some data =>
    rw [h.openRead_of_some hb]
    simp only [bytes?_eq_some_iff.mp hb]

end Names

end FileSystem
end BlockTransfer
