import BlockTransfer.Device
import BlockTransfer.Proofs.Module.Copies
/-!
# What loading a device does to the world

A load that fails leaves the world as it was, but for the number of a library
copy that was opened for it (`Device.load_error`). A load that succeeds either
runs a builtin factory or opens a library and makes the device that it provides
(`Device.Loaded`). Requests leave the libraries alone, and giving a device up
closes its library.

Key definitions: `Factory.Traceless`, `Device.Loaded`, `Origin.source`.
Key theorems: `Device.load_error`, `Device.loaded_load`, `Device.close_counters`.
-/

namespace BlockTransfer

/-- A factory that leaves the world alone when it fails. -/
def Factory.Traceless {W D : Type} (create : Factory W D) : Prop :=
  ∀ settings w fault w', create settings w = (.error fault, w') → w' = w

/-- Every builtin factory is traceless. -/
def Registry.Traceless {W D : Type} (r : Registry W D) : Prop :=
  ∀ t create, r.get? t = some create → create.Traceless

theorem Factory.Traceless.instantiate {W D : Type} {create : Factory W D} (hc : create.Traceless)
    {t : String} {settings : DeviceSettings} {w w' : W} {e : ResolutionError}
    (h : Loader.instantiate create t settings w = (.error e, w')) : w' = w := by
  obtain ⟨fault, hfault⟩ := Loader.instantiate_error h
  exact hc _ _ _ _ hfault

/-- Whose code a device runs: the program's, or that of a library copy. -/
def Origin.source : Origin → Option Nat
  | .builtin => none
  | .module _ library => some library

namespace Device

variable {l : Loader World Device} {t path : String} {w w' : World}

/-! ### Factories -/

theorem traceless_createPosix : createPosix.Traceless := by
  intro settings w fault w' h
  unfold createPosix at h
  split at h <;> cases h
  rfl

/-- The program itself registers the posix backend alone. -/
theorem create_of_registry {create : Factory World Device} (h : registry.get? t = some create) :
    create = createPosix := by
  rw [show registry = ⟨[(PosixDevice.typeName, createPosix)]⟩ from rfl] at h
  rw [Registry.get?, List.lookup_cons] at h
  split at h
  · exact (Option.some.inj h).symm
  · cases h

theorem traceless_ofBackend (library : Nat) (backend : ModuleBackend) :
    (ofBackend library backend).Traceless := by
  intro settings w fault w' h
  cases backend with
  | bare => cases h
  | failing =>
    cases h
    rfl
  | posix =>
    simp only [ofBackend, createPosixIn] at h
    split at h <;> cases h
    rfl

/-! ### Opening -/

/-- What opening a library gives. -/
theorem openLibrary_ok {library : Library World Device}
    (h : openLibrary path w = .ok (library, w')) :
    ∃ c libraries, w.libraries.openPath w.host w.storage.files path = .ok (c, libraries) ∧
      library.number = c.number ∧ w' = { w with libraries } ∧
      ∀ entry, library.entry = .ok entry →
        ∃ backend, entry.create = ofBackend c.number backend := by
  unfold openLibrary at h
  split at h
  · cases h
  · rename_i c libraries hopen
    cases h
    refine ⟨c, libraries, hopen, rfl, rfl, fun entry hentry => ?_⟩
    simp only at hentry
    split at hentry <;> cases hentry
    exact ⟨_, rfl⟩

/-! ### Failing -/

/-- The world after the number of a library copy is used up. -/
def skipLibrary (w : World) : World := { w with libraries := w.libraries.skip }

/-- A load that fails changes nothing, or uses up a number. -/
theorem load_error (hr : l.registry.Traceless) (hs : w.libraries.Sound) {e : ResolutionError}
    (h : l.load platform t w = (.error e, w')) : w' = w ∨ w' = skipLibrary w := by
  unfold Loader.load at h
  split at h
  · rename_i create hget
    split at h <;> cases h
    exact .inl ((hr t create hget).instantiate ‹_›)
  · unfold Loader.loadModule at h
    split at h
    · cases h
      exact .inl rfl
    · rename_i library w₁ hopen
      obtain ⟨c, libraries, hpath, hnumber, rfl, hentry⟩ := openLibrary_ok hopen
      have hclosed : platform.closeLibrary library.number { w with libraries } = w ∨
          platform.closeLibrary library.number { w with libraries } = skipLibrary w := by
        rw [hnumber]
        show { w with libraries := libraries.close c.number } = w ∨
          { w with libraries := libraries.close c.number } = skipLibrary w
        rcases hs.close_opened (Libraries.opened_openPath hpath) with heq | heq <;> rw [heq]
        · exact .inl rfl
        · exact .inr rfl
      split at h
      · cases h
        exact hclosed
      · rename_i create hcheck
        obtain ⟨entry, hlibrary, rfl⟩ := Loader.checkEntry_ok hcheck
        obtain ⟨backend, hbackend⟩ := hentry entry hlibrary
        rw [hbackend] at h
        split at h <;> cases h
        rename_i w₂ hmake
        rwa [(traceless_ofBackend _ backend).instantiate hmake]

/-! ### Succeeding -/

/-- How a device is loaded: by a builtin factory, or from a library, which makes
a bare device or a posix device with a pool number of the library's own. -/
inductive Loaded (l : Loader World Device) (t : String) (w : World) :
    LoadedDevice Device → World → Prop where
  | builtin {create device w'} (get : l.registry.get? t = some create)
      (make : create l.settings w = (.ok device, w')) : Loaded l t w ⟨device, t, .builtin⟩ w'
  | bare {c libraries} (opened : w.libraries.Opened c libraries) :
    Loaded l t w ⟨.bare "bare", t, .module (l.modulePath t) c.number⟩ { w with libraries }
  | posix {c libraries p} (opened : w.libraries.Opened c libraries)
      (make : PosixDevice.create w.host l.settings (libraries.nextPool c.number) = .ok p) :
    Loaded l t w ⟨.posix p, t, .module (l.modulePath t) c.number⟩
      { w with libraries := libraries.usePool c.number }

theorem loaded_load {loaded : LoadedDevice Device}
    (h : l.load platform t w = (.ok loaded, w')) : Loaded l t w loaded w' := by
  unfold Loader.load at h
  split at h
  · rename_i create hget
    split at h <;> cases h
    exact .builtin hget (Loader.instantiate_ok ‹_›)
  · unfold Loader.loadModule at h
    split at h
    · cases h
    · rename_i library w₁ hopen
      obtain ⟨c, libraries, hpath, hnumber, rfl, hentry⟩ := openLibrary_ok hopen
      have hopened := Libraries.opened_openPath hpath
      split at h
      · cases h
      · rename_i create hcheck
        obtain ⟨entry, hlibrary, rfl⟩ := Loader.checkEntry_ok hcheck
        obtain ⟨backend, hbackend⟩ := hentry entry hlibrary
        rw [hbackend] at h
        split at h <;> cases h
        rename_i device hmake
        have hmade := Loader.instantiate_ok hmake
        rw [hnumber]
        cases backend with
        | bare =>
          cases hmade
          exact .bare hopened
        | failing => cases hmade
        | posix =>
          simp only [ofBackend, createPosixIn] at hmade
          split at hmade <;> cases hmade
          exact .posix hopened ‹_›

/-! ### Serving and giving up -/

/-- No request turns to the libraries or takes a pool number. -/
theorem serve_counters (r : Request) (device : Device) (w : World) :
    (serve r device w).2.2.libraries = w.libraries ∧
      (serve r device w).2.2.nextPool = w.nextPool := by
  cases device <;> exact ⟨rfl, rfl⟩

/-- Giving a device up closes its library, and takes no pool number. -/
theorem discard_counters (loaded : LoadedDevice Device) (w : World) :
    (loaded.discard platform w).nextPool = w.nextPool ∧
      (loaded.discard platform w).libraries = match loaded.origin.source with
        | none => w.libraries
        | some library => w.libraries.close library := by
  obtain ⟨device, t, origin⟩ := loaded
  cases device <;> cases origin <;> exact ⟨rfl, rfl⟩

/-- Closing a dispatcher closes the library of its device, if it has one. -/
theorem close_counters {d : Dispatcher World Device}
    {a : Activation Device} (hslot : d.slot = some a) (w : World) :
    (d.close Device.platform w).nextPool = w.nextPool ∧
      (d.close Device.platform w).libraries = match a.loaded.origin.source with
        | none => w.libraries
        | some library => w.libraries.close library := by
  obtain ⟨hlibraries, hnext⟩ := Device.serve_counters .wait a.loaded.device w
  have hdiscard := Device.discard_counters (a.drain Device.platform w).2.1.loaded
    (a.drain Device.platform w).2.2
  rw [show (a.drain Device.platform w).2.2.libraries = w.libraries from hlibraries,
    show (a.drain Device.platform w).2.2.nextPool = w.nextPool from hnext] at hdiscard
  rwa [Dispatcher.close, hslot]

end Device
end BlockTransfer
