import BlockTransfer.Loader
import BlockTransfer.Proofs.Module.Naming
import Mathlib.Tactic.SplitIfs
/-!
# Where libraries are opened

Which libraries a load opens shows on a platform that keeps the paths of all
libraries opened so far beside its world (`Platform.logged`). Nothing else is
different on it (`Loader.load_logged`). A load opens the library at the module
path of its type, or none at all (`Loader.opened_eq`).

The file name of a type adds one component to the root if the type has no slash
in it, and only then (`Loader.parts_modulePath_iff`). The rule that device types
are made of letters, digits and underscores is one of registering and not of
loading.

Key definitions: `Platform.logged`, `Loader.opened`.
Key theorems: `Loader.load_logged`, `Loader.opened_eq`, `Loader.parts_modulePath_iff`.
-/

namespace BlockTransfer

variable {W D : Type}

/-! ### A platform that keeps the paths of opened libraries -/

/-- A factory beside a list of paths, which it leaves alone. -/
def Factory.logged (create : Factory W D) : Factory (W × List String) D := fun settings w =>
  ((create settings w.1).1, (create settings w.1).2, w.2)

def Library.logged (library : Library W D) : Library (W × List String) D where
  number := library.number
  entry := library.entry.map fun e => ⟨e.abi, e.contract, e.create.logged⟩

/-- The platform with the paths of the libraries that were opened beside its
world. -/
def Platform.logged (P : Platform W D) : Platform (W × List String) D where
  name := P.name
  serve r device w :=
    let (answer, device, w') := P.serve r device w.1
    (answer, device, w', w.2)
  discard device w := (P.discard device w.1, w.2)
  openLibrary path w :=
    (P.openLibrary path w.1).map fun (library, w') => (library.logged, w', w.2 ++ [path])
  closeLibrary library w := (P.closeLibrary library w.1, w.2)
  listFiles root w := P.listFiles root w.1

def Registry.logged (r : Registry W D) : Registry (W × List String) D :=
  ⟨r.factories.map fun x => (x.1, x.2.logged)⟩

theorem Registry.get?_logged (r : Registry W D) (t : String) :
    r.logged.get? t = (r.get? t).map Factory.logged := by
  obtain ⟨factories⟩ := r
  simp only [get?, logged]
  induction factories with
  | nil => rfl
  | cons x xs ih =>
    rw [List.map_cons, List.lookup_cons, List.lookup_cons]
    split
    · rfl
    · exact ih

namespace Loader

variable (P : Platform W D) (l : Loader W D) (t : String) (w : W)

def logged : Loader (W × List String) D := ⟨l.root, l.registry.logged, l.settings⟩

/-- The paths that libraries are opened at to load a type. -/
def opened : List String := (l.logged.load P.logged t (w, [])).2.2

/-- The module path of a type, if the type is not registered and there is a library. -/
def finds : List String :=
  if l.registry.contains t then []
  else match P.openLibrary (l.modulePath t) w with
    | .error _ => []
    | .ok _ => [l.modulePath t]

theorem instantiate_logged (create : Factory W D) (settings : DeviceSettings)
    (log : List String) : instantiate create.logged t settings (w, log) =
      ((instantiate create t settings w).1, (instantiate create t settings w).2, log) := by
  unfold instantiate Factory.logged
  rcases create settings w with ⟨(_ | _) | _, w'⟩ <;> rfl

theorem checkEntry_logged (path : String) (library : Library W D) :
    checkEntry t path library.logged = (checkEntry t path library).map Factory.logged := by
  obtain ⟨number, reason | entry⟩ := library
  · rfl
  · simp only [checkEntry, Library.logged, Except.map]
    split_ifs <;> rfl

theorem loadModule_logged (settings : DeviceSettings) (path : String) (log : List String) :
    loadModule P.logged settings t path (w, log) =
      ((loadModule P settings t path w).1, (loadModule P settings t path w).2,
        log ++ match P.openLibrary path w with
          | .error _ => []
          | .ok _ => [path]) := by
  unfold loadModule
  simp only [Platform.logged]
  cases P.openLibrary path w with
  | error reason => simp only [Except.map, List.append_nil]
  | ok opening =>
    obtain ⟨library, w'⟩ := opening
    simp only [Except.map, checkEntry_logged]
    cases checkEntry t path library with
    | error e => rfl
    | ok create =>
      simp only [instantiate_logged]
      rcases instantiate create t settings w' with ⟨_ | _, w''⟩ <;> rfl

theorem load_logged_finds (log : List String) : l.logged.load P.logged t (w, log) =
    ((l.load P t w).1, (l.load P t w).2, log ++ l.finds P t w) := by
  unfold load finds
  rw [show l.logged.registry.get? t = _ from l.registry.get?_logged t, Registry.contains]
  cases l.registry.get? t with
  | none => exact loadModule_logged P t w l.settings (l.modulePath t) log
  | some create =>
    simp only [Option.map_some, Option.isSome_some, if_true, List.append_nil]
    rw [show l.logged.settings = l.settings from rfl, instantiate_logged]
    rcases instantiate create t l.settings w with ⟨_ | _, w'⟩ <;> rfl

theorem opened_eq : l.opened P t w = l.finds P t w := by
  rw [opened, load_logged_finds, List.nil_append]

/-- Keeping the paths changes nothing else. -/
theorem load_logged (log : List String) : l.logged.load P.logged t (w, log) =
    ((l.load P t w).1, (l.load P t w).2, log ++ l.opened P t w) := by
  rw [opened_eq, load_logged_finds]

variable {P l t w}

/-- At most the module path of the type is opened, and none for a registered type. -/
theorem mem_opened_iff {path : String} : path ∈ l.opened P t w ↔
    l.registry.get? t = none ∧ path = l.modulePath t ∧
      ∃ opening, P.openLibrary path w = .ok opening := by
  rw [opened_eq, finds, Registry.contains]
  cases l.registry.get? t with
  | some create => simp
  | none =>
    simp only [Option.isSome_none, Bool.false_eq_true, if_false, true_and]
    cases h : P.openLibrary (l.modulePath t) w with
    | error reason =>
      simp only [List.not_mem_nil, false_iff]
      rintro ⟨rfl, opening, hopen⟩
      rw [h] at hopen
      cases hopen
    | ok opening =>
      rw [List.mem_singleton]
      exact ⟨fun heq => ⟨heq, opening, heq ▸ h⟩, And.left⟩

end Loader

/-! ### Module paths -/

namespace Loader

variable {l : Loader W D} {t : String}

/-- The module path of a type is one component below the root exactly if there is
no slash in the type. -/
theorem parts_modulePath_iff : Path.parts (l.modulePath t) =
    Path.parts l.root ++ [ModuleName.encode t] ↔ '/' ∉ t.toList := by
  rw [← ModuleName.slash_mem_encode_iff]
  constructor
  · intro h
    have hmem : ModuleName.encode t ∈ Path.parts (l.modulePath t) :=
      h ▸ List.mem_append_right _ (List.mem_singleton_self _)
    exact Path.slash_notMem_of_mem_parts hmem (ModuleName.encode_ne t (by decide))
  · intro h
    exact Path.parts_join_single l.root h (ModuleName.encode_ne t (by decide))
      (ModuleName.encode_ne t (by decide))

/-- The root has no part in the module path of an absolute type. -/
theorem modulePath_of_isAbsolute (h : Path.isAbsolute t = true) :
    l.modulePath t = ModuleName.encode t :=
  Path.join_of_isAbsolute l.root (by rwa [ModuleName.isAbsolute_encode])

/-- What a relative type names is put below the root, parents and all. -/
theorem parts_modulePath_of_relative (hroot : l.root ≠ "") (h : Path.isAbsolute t = false) :
    Path.parts (l.modulePath t) = Path.parts l.root ++ Path.below (ModuleName.encode t) :=
  Path.parts_join hroot (by rwa [ModuleName.isAbsolute_encode])

end Loader
end BlockTransfer
