import BlockTransfer.Proofs.Dispatcher.Sources
import BlockTransfer.Proofs.Loader.Opening
/-!
# Where a dispatcher opens libraries

A dispatcher opens libraries for its loads only, each at the module path of a
type that it was asked to load and that is not registered. The library lies
right in the plugins root, under the file name of the type, if there is no slash
in the type. A type with a slash is not refused: what it names is put below the
root, parents and all, and an absolute one goes past the root
(`Dispatcher.openings_at_module_paths`). So a type can lead to a library outside
of the root (`Dispatcher.not_confined_parent`).

Key definitions: `Dispatcher.logged`, `Dispatcher.opened`, `Dispatcher.Openings`.
Key theorems: `Dispatcher.attendAll_logged`, `Dispatcher.openings_at_module_paths`.
-/

namespace BlockTransfer

open Switching (Errand Visit Reply)

variable {W D : Type}

theorem LoadedDevice.discard_logged (P : Platform W D) (loaded : LoadedDevice D) (w : W)
    (log : List String) : loaded.discard P.logged (w, log) = (loaded.discard P w, log) := by
  obtain ⟨device, t, _ | _⟩ := loaded <;> rfl

theorem Activation.release_logged (P : Platform W D) (a : Activation D) (w : W)
    (log : List String) : a.release P.logged (w, log) = (a.release P w, log) :=
  LoadedDevice.discard_logged P _ _ log

namespace Dispatcher

variable (P : Platform W D) (d : Dispatcher W D) (w : W) (log : List String)

def logged : Dispatcher (W × List String) D :=
  ⟨d.loader.logged, d.policy, d.slot, d.retired, d.lastGeneration⟩

/-! ### Keeping the paths changes nothing else -/

theorem drainCurrent_logged : d.logged.drainCurrent P.logged (w, log) =
    ((d.drainCurrent P w).1, (d.drainCurrent P w).2.1.logged, (d.drainCurrent P w).2.2, log) := by
  obtain ⟨loader, policy, _ | a, retired, last⟩ := d <;> rfl

theorem serveActive_logged (operation : String) (r : Request) :
    d.logged.serveActive P.logged operation r (w, log) =
      ((d.serveActive P operation r w).1, (d.serveActive P operation r w).2.1.logged,
        (d.serveActive P operation r w).2.2, log) := by
  obtain ⟨loader, policy, _ | a, retired, last⟩ := d <;> rfl

theorem releaseRetired_logged (generation : Nat) :
    d.logged.releaseRetired P.logged generation (w, log) =
      ((d.releaseRetired P generation w).1.logged, (d.releaseRetired P generation w).2, log) := by
  unfold releaseRetired
  rw [show d.logged.retired = d.retired from rfl]
  cases d.retired.find? (·.generation == generation) with
  | none => rfl
  | some a =>
    simp only [Activation.release_logged]
    rfl

theorem leave_logged (generation : Nat) : d.logged.leave P.logged generation (w, log) =
    ((d.leave P generation w).1.logged, (d.leave P generation w).2, log) := by
  unfold leave
  rw [show d.logged.stepOut generation =
    ((d.stepOut generation).1, (d.stepOut generation).2.logged) from rfl]
  rcases d.stepOut generation with ⟨_ | _, d'⟩
  · rfl
  · exact releaseRetired_logged P d' w log generation

theorem activate_logged (loaded : LoadedDevice D) : d.logged.activate P.logged loaded (w, log) =
    ((d.activate P loaded w).1.logged, (d.activate P loaded w).2, log) := by
  obtain ⟨loader, policy, _ | a, retired, last⟩ := d
  · rfl
  · exact leave_logged P
      ((Dispatcher.mk loader policy (some a) retired (last + 1)).swap (last + 1) loaded).2 w log
      a.generation

theorem visit_logged (v : Visit) : d.logged.attend P.logged (.visit v) (w, log) =
    ((d.attend P (.visit v) w).1, (d.attend P (.visit v) w).2.1.logged,
      (d.attend P (.visit v) w).2.2, log) := by
  cases v with
  | forward call => exact serveActive_logged P d w log call.operation call.request
  | newLocked count like =>
    simp only [attend, newLocked, serveActive_logged]
    rcases d.serveActive P "new_locked_buffer" (.newLocked count like) w with ⟨e | answer, d', w'⟩
    · rfl
    · cases answer with
      | buffer b =>
        obtain ⟨region, type, len, _ | tag⟩ := b <;> rfl
      | _ => rfl
  | freeLocked b =>
    simp only [attend, freeLocked, serveActive_logged]
    rw [show d.logged.slot = d.slot from rfl]
    cases d.slot with
    | none => rfl
    | some a =>
      dsimp only
      cases a.checkOwned b with
      | error e => rfl
      | ok tag =>
        rcases d.serveActive P "free_locked_buffer" (.freeLocked b) w with ⟨_ | _, d', w'⟩ <;> rfl

/-- Only a load opens a library, at the module path of its type. -/
theorem attend_logged (e : Errand) : ∃ paths : List String,
    (∀ path ∈ paths, ∃ t, e = .load t ∧ d.loader.registry.get? t = none ∧
      path = d.loader.modulePath t) ∧
    ∀ log, d.logged.attend P.logged e (w, log) =
      ((d.attend P e w).1, (d.attend P e w).2.1.logged, (d.attend P e w).2.2, log ++ paths) := by
  cases e with
  | visit v => exact ⟨[], nofun, fun log => by rw [visit_logged, List.append_nil]⟩
  | load t =>
    simp only [attend, load, drainCurrent_logged]
    obtain ⟨hloader, -⟩ := drainCurrent_same (P := P) d w
    generalize d.drainCurrent P w = drained at hloader ⊢
    obtain ⟨e | ⟨⟩, d', w'⟩ := drained
    · exact ⟨[], nofun, fun log => by simp only [List.append_nil]⟩
    · replace hloader : d'.loader = d.loader := hloader
      rw [← hloader]
      simp only [show d'.logged.checkOutstanding = d'.checkOutstanding from rfl]
      cases d'.checkOutstanding with
      | error e => exact ⟨[], nofun, fun log => by rw [List.append_nil]⟩
      | ok =>
        refine ⟨d'.loader.opened P t w', fun path hpath => ?_, fun log => ?_⟩
        · obtain ⟨hget, rfl, -⟩ := Loader.mem_opened_iff.mp hpath
          exact ⟨t, rfl, hget, rfl⟩
        · simp only [show d'.logged.loader = d'.loader.logged from rfl, Loader.load_logged]
          rcases d'.loader.load P t w' with ⟨_ | loaded, w''⟩
          · rfl
          · simp only [activate_logged]

/-- In a run libraries are opened for the types that it loads. -/
theorem attendAll_logged (h : d.Calm) (es : List Errand) : ∃ paths : List String,
    (∀ path ∈ paths, ∃ t, Errand.load t ∈ es ∧ d.loader.registry.get? t = none ∧
      path = d.loader.modulePath t) ∧
    ∀ log, attendAll P.logged es d.logged (w, log) =
      ((attendAll P es d w).1, (d.after P es w).1.logged, (d.after P es w).2, log ++ paths) := by
  induction es generalizing d w with
  | nil => exact ⟨[], nofun, fun log => by rw [List.append_nil]; rfl⟩
  | cons e es ih =>
    obtain ⟨first, hfirst, hattend⟩ := attend_logged P d w e
    obtain ⟨rest, hrest, hrun⟩ := ih (d.attend P e w).2.1 (d.attend P e w).2.2 (h.attend e w)
    rw [(h.attend_same e w).1] at hrest
    refine ⟨first ++ rest, fun path hpath => ?_, fun log => ?_⟩
    · rcases List.mem_append.mp hpath with hpath | hpath
      · obtain ⟨t, rfl, hload⟩ := hfirst path hpath
        exact ⟨t, List.mem_cons_self, hload⟩
      · obtain ⟨t, ht, hload⟩ := hrest path hpath
        exact ⟨t, List.mem_cons_of_mem _ ht, hload⟩
    · rw [attendAll_cons, hattend, hrun, List.append_assoc]
      rfl

/-- The paths that libraries are opened at by errands, in order. -/
def opened (es : List Errand) : List String := (d.logged.after P.logged es (w, [])).2.2

/-- What a dispatcher opens. On a platform that keeps the paths everything else is
as without; each library is opened for a load of a type that is not registered,
at the module path of that type; and this path lies right in the root, under the
file name of the type, if and only if there is no slash in the type. A type with
a slash is followed wherever it leads. -/
structure Openings (P : Platform W D) (loader : Loader W D) (policy : LockedBufferPolicy) :
    Prop where
  same : ∀ es w, attendAll P.logged es (logged { loader, policy }) (w, []) =
    ((attendAll P es { loader, policy } w).1, (after P es { loader, policy } w).1.logged,
      (after P es { loader, policy } w).2, opened P { loader, policy } w es)
  load : ∀ t w, loader.logged.load P.logged t (w, []) =
    ((loader.load P t w).1, (loader.load P t w).2, loader.opened P t w)
  run : ∀ es w, ∀ path ∈ opened P { loader, policy } w es, ∃ t, Errand.load t ∈ es ∧
    loader.registry.get? t = none ∧ path = loader.modulePath t
  opened : ∀ t w path, path ∈ loader.opened P t w ↔ loader.registry.get? t = none ∧
    path = loader.modulePath t ∧ ∃ opening, P.openLibrary path w = .ok opening
  confined : ∀ t, Path.parts (loader.modulePath t) =
    Path.parts loader.root ++ [ModuleName.encode t] ↔ '/' ∉ t.toList
  relative : ∀ t, Path.isAbsolute t = false → loader.root ≠ "" →
    Path.parts (loader.modulePath t) =
      Path.parts loader.root ++ Path.below (ModuleName.encode t)
  absolute : ∀ t, Path.isAbsolute t = true → loader.modulePath t = ModuleName.encode t ∧
    Path.parts (loader.modulePath t) = "/" :: Path.below (ModuleName.encode t)

theorem openings_at_module_paths (P : Platform W D) (loader : Loader W D)
    (policy : LockedBufferPolicy) : Openings P loader policy where
  same es w := by
    obtain ⟨paths, -, hrun⟩ := attendAll_logged P _ w (calm_start loader policy) es
    have hopened : opened P { loader, policy } w es = paths := by
      rw [Dispatcher.opened, after, hrun, List.nil_append]
    rw [hopened]
    exact hrun []
  load t w := Loader.load_logged P loader t w []
  run es w path hpath := by
    obtain ⟨paths, hpaths, hrun⟩ := attendAll_logged P _ w (calm_start loader policy) es
    rw [Dispatcher.opened, after, hrun, List.nil_append] at hpath
    exact hpaths path hpath
  opened t w path := Loader.mem_opened_iff
  confined t := Loader.parts_modulePath_iff
  relative t ht hroot := Loader.parts_modulePath_of_relative hroot ht
  absolute t ht := by
    have hpath := Loader.modulePath_of_isAbsolute (l := loader) ht
    refine ⟨hpath, ?_⟩
    rw [hpath]
    exact Path.parts_of_isAbsolute (by rwa [ModuleName.isAbsolute_encode])

/-! ### A type that leaves the root

The plugins root is empty, and a library stands in the directory next to it. -/

section Image

open Custody.TwoCopies (image decode_image)

/-- Where the module path of a type leads to a library with the posix backend, the
library is opened and makes the device. -/
theorem load_image {l : Loader World Device} {t : String} {w : World} {p : CanonicalPath}
    (hget : l.registry.get? t = none) (hsettings : l.settings = {}) (hlibraries : w.libraries = {})
    (hhost : w.host = {})
    (hnul : (l.modulePath t).toList.contains '\x00' = false)
    (hslash : (l.modulePath t).toList.contains '/' = true)
    (hread : w.storage.files.openRead (l.modulePath t) = .ok ⟨p⟩)
    (hcontent : w.storage.files.content ⟨p⟩ = image.encode) :
    (l.load Device.platform t w).1.toOption.map (·.origin.path?) = some (some (l.modulePath t)) ∧
      l.modulePath t ∈ l.opened Device.platform t w := by
  have hopen : w.libraries.openPath w.host w.storage.files (l.modulePath t) =
      .ok (⟨0, l.modulePath t, p, image, 1, 1⟩, ⟨[⟨0, l.modulePath t, p, image, 1, 1⟩], 1⟩) := by
    rw [hlibraries]
    exact Libraries.openPath_new rfl hnul hslash hread rfl (hcontent ▸ decode_image)
  constructor
  · obtain ⟨storage, libraries, nextPool, board, host⟩ := w
    obtain rfl : host = {} := hhost
    simp only [Loader.load, hget, Loader.loadModule, Device.platform, Device.openLibrary, hopen,
      hsettings]
    rfl
  · refine Loader.mem_opened_iff.mpr ⟨hget, rfl, ?_⟩
    simp only [Device.platform, Device.openLibrary, hopen]
    exact ⟨_, rfl⟩

end Image

namespace ParentType

def files : FileSystem :=
  { entries := [(["plugins"], .directory), (["outside"], .directory),
      (["outside", "x_op.so"], .file Custody.TwoCopies.image.encode)] }

def world : World := { storage := { files }, nextPool := 1 }

def loader : Loader World Device :=
  { root := "plugins"
    registry := Device.registry
    settings := {} }

end ParentType

/-- A type that names the parent of the root has a library next to the root opened
and run. -/
theorem not_confined_parent :
    (ParentType.loader.load Device.platform "../outside/x" ParentType.world).1.toOption.map
        (·.origin.path?) = some (some "plugins/../outside/x_op.so") ∧
      "plugins/../outside/x_op.so" ∈
        ParentType.loader.opened Device.platform "../outside/x" ParentType.world ∧
      ParentType.files.resolve .find "plugins/../outside/x_op.so" =
        .ok (.file ["outside", "x_op.so"]) ∧
      Path.parts "plugins/../outside/x_op.so" = ["plugins", "..", "outside", "x_op.so"] ∧
      Path.parts "plugins/../outside/x_op.so" ≠
        Path.parts ParentType.loader.root ++ [ModuleName.encode "../outside/x"] := by
  have hpath : ParentType.loader.modulePath "../outside/x" = "plugins/../outside/x_op.so" := by
    decide +kernel
  have hloaded := load_image (l := ParentType.loader) (t := "../outside/x") (w := ParentType.world)
    (p := ["outside", "x_op.so"]) rfl rfl rfl rfl (by decide +kernel) (by decide +kernel)
    (by decide +kernel) rfl
  rw [hpath] at hloaded
  exact ⟨hloaded.1, hloaded.2, by decide +kernel, by decide +kernel, by decide +kernel⟩

end Dispatcher
end BlockTransfer
