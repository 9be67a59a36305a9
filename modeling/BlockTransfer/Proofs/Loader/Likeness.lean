import BlockTransfer.Loader
import Mathlib.Data.Multiset.AddSub
/-!
# Worlds that are alike

A `Likeness` relates worlds whose differences nothing shows. The number that a
library was opened under may be such a difference, so a likeness is given the
libraries that are held open in both worlds, by their numbers here and there.

A likeness hides what it leaves open (`Likeness.Hides`) if no device, no factory
and no library tells worlds that are alike apart, and if what fails (a factory,
an entry that is not accepted) leaves a world that is like the one before. Then
loads end alike in worlds that are alike, and a load that fails leaves such a
world.

Key definitions: `Likeness`, `Likeness.Hides`, `LoadedDevice.Alike`.
Key theorems: `Likeness.Hides.load`, `Likeness.Hides.load_error`.
-/

namespace BlockTransfer

/-- Relates worlds that show the same. Each pair of numbers stands for a library that
is held open in both: its number in the one and in the other. -/
abbrev Likeness (W : Type) := Multiset (Nat × Nat) → W → W → Prop

/-- The same device from the same place; the library behind it may have another number.
The multiset holds the two numbers, if there is a library. -/
inductive LoadedDevice.Alike {D : Type} :
    LoadedDevice D → LoadedDevice D → Multiset (Nat × Nat) → Prop where
  | builtin (device : D) (t : String) : Alike ⟨device, t, .builtin⟩ ⟨device, t, .builtin⟩ 0
  | module (device : D) (t path : String) (m n : Nat) :
    Alike ⟨device, t, .module path m⟩ ⟨device, t, .module path n⟩ {(m, n)}

/-- The two are of one type and run one device. -/
theorem LoadedDevice.Alike.same {D : Type} {d₁ d₂ : LoadedDevice D} {held : Multiset (Nat × Nat)}
    (h : d₁.Alike d₂ held) : d₂.device = d₁.device ∧ d₂.deviceType = d₁.deviceType := by
  cases h <;> exact ⟨rfl, rfl⟩

theorem LoadedDevice.Alike.setDevice {D : Type} {d₁ d₂ : LoadedDevice D}
    {held : Multiset (Nat × Nat)} (h : d₁.Alike d₂ held) (device : D) :
    LoadedDevice.Alike { d₁ with device } { d₂ with device } held := by
  cases h with
  | builtin => exact .builtin device _
  | module => exact .module device _ _ _ _

namespace Likeness

variable {W D : Type} (R : Likeness W) (held : Multiset (Nat × Nat))

/-- A device answers the same, is the same after it, and leaves worlds that are alike. -/
structure Serves (x y : Except DeviceError Answer × D × W) : Prop where
  answer : x.1 = y.1
  device : x.2.1 = y.2.1
  worlds : R held x.2.2 y.2.2

/-- A factory ends the same and leaves worlds that are alike. -/
structure Makes {ε : Type} (x y : Except ε D × W) : Prop where
  result : x.1 = y.1
  worlds : R held x.2 y.2

/-- Entries that the host sees no difference between, and whose factories make the same
device right after they were opened. -/
inductive Entries (settings : DeviceSettings) (w₁ w₂ : W) :
    Except String (LibraryEntry W D) → Except String (LibraryEntry W D) → Prop where
  | missing (reason : String) : Entries settings w₁ w₂ (.error reason) (.error reason)
  | there (abi : Nat) (contract : String) {create₁ create₂ : Factory W D}
      (makes : R.Makes held (create₁ settings w₁) (create₂ settings w₂)) :
    Entries settings w₁ w₂ (.ok ⟨abi, contract, create₁⟩) (.ok ⟨abi, contract, create₂⟩)

/-- A library is opened in both worlds, maybe under different numbers, or in neither. -/
inductive Opens (settings : DeviceSettings) :
    Except String (Library W D × W) → Except String (Library W D × W) → Prop where
  | refused (reason : String) : Opens settings (.error reason) (.error reason)
  | opened {m n : Nat} {entry₁ entry₂ : Except String (LibraryEntry W D)} {w₁ w₂ : W}
      (worlds : R ((m, n) ::ₘ held) w₁ w₂)
      (entries : R.Entries ((m, n) ::ₘ held) settings w₁ w₂ entry₁ entry₂) :
    Opens settings (.ok (⟨m, entry₁⟩, w₁)) (.ok (⟨n, entry₂⟩, w₂))

/-- A load ends the same and leaves worlds that are alike; what was loaded holds its
library open in both. -/
inductive Loads : Except ResolutionError (LoadedDevice D) × W →
    Except ResolutionError (LoadedDevice D) × W → Prop where
  | failed (e : ResolutionError) {w₁ w₂ : W} (worlds : R held w₁ w₂) :
    Loads (.error e, w₁) (.error e, w₂)
  | loaded {d₁ d₂ : LoadedDevice D} {w₁ w₂ : W} {more : Multiset (Nat × Nat)}
      (alike : d₁.Alike d₂ more) (worlds : R (more + held) w₁ w₂) :
    Loads (.ok d₁, w₁) (.ok d₂, w₂)

/-- Nothing that a loader and its devices do shows what the likeness leaves open, and
what fails leaves no more than that. -/
structure Hides (P : Platform W D) (l : Loader W D) : Prop where
  serve {held w₁ w₂} : R held w₁ w₂ → ∀ (r : Request) (device : D),
    R.Serves held (P.serve r device w₁) (P.serve r device w₂)
  discard {held w₁ w₂} : R held w₁ w₂ → ∀ device : D,
    R held (P.discard device w₁) (P.discard device w₂)
  listFiles {held w₁ w₂} : R held w₁ w₂ → P.listFiles l.root w₁ = P.listFiles l.root w₂
  openLibrary {held w₁ w₂} : R held w₁ w₂ → ∀ path : String,
    R.Opens held l.settings (P.openLibrary path w₁) (P.openLibrary path w₂)
  closeLibrary {held m n w₁ w₂} : R ((m, n) ::ₘ held) w₁ w₂ →
    R held (P.closeLibrary m w₁) (P.closeLibrary n w₂)
  create {held w₁ w₂ t create} : l.registry.get? t = some create → R held w₁ w₂ →
    R.Makes held (create l.settings w₁) (create l.settings w₂)
  /-- A builtin factory that fails. -/
  failed {held w w' t create fault} : l.registry.get? t = some create → R held w w →
    create l.settings w = (.error fault, w') → R held w w'
  /-- A library that is opened and closed again. -/
  closed {held w w' path} {library : Library W D} : R held w w →
    P.openLibrary path w = .ok (library, w') → R held w (P.closeLibrary library.number w')
  /-- A library that is closed after its factory failed. -/
  moduleFailed {held w w' w'' path fault} {library : Library W D} {entry} : R held w w →
    P.openLibrary path w = .ok (library, w') → library.entry = .ok entry →
    entry.create l.settings w' = (.error fault, w'') →
    R held w (P.closeLibrary library.number w'')

variable {R held}

theorem Makes.instantiate {create₁ create₂ : Factory W D} {settings : DeviceSettings} {w₁ w₂ : W}
    (h : R.Makes held (create₁ settings w₁) (create₂ settings w₂)) (t : String) :
    R.Makes held (Loader.instantiate create₁ t settings w₁)
      (Loader.instantiate create₂ t settings w₂) := by
  obtain ⟨hresult, hworlds⟩ := h
  unfold Loader.instantiate
  generalize create₁ settings w₁ = out₁ at hresult hworlds ⊢
  generalize create₂ settings w₂ = out₂ at hresult hworlds ⊢
  obtain ⟨result, w₁'⟩ := out₁
  obtain ⟨_, w₂'⟩ := out₂
  obtain rfl := hresult
  cases result with
  | ok device => exact ⟨rfl, hworlds⟩
  | error fault => cases fault <;> exact ⟨rfl, hworlds⟩

namespace Hides

variable {P : Platform W D} {l : Loader W D} {w w' w₁ w₂ : W} {d₁ d₂ : LoadedDevice D}
  {more : Multiset (Nat × Nat)}

/-- A device that is given up closes its library in both worlds. -/
theorem discardLoaded (h : R.Hides P l) (halike : d₁.Alike d₂ more) (hw : R (more + held) w₁ w₂) :
    R held (d₁.discard P w₁) (d₂.discard P w₂) := by
  cases halike with
  | builtin device =>
    rw [Multiset.zero_add] at hw
    exact h.discard hw device
  | module device t path m n =>
    rw [Multiset.singleton_add] at hw
    exact h.closeLibrary (h.discard hw device)

theorem loadModule (h : R.Hides P l) (hw : R held w₁ w₂) (t path : String) :
    R.Loads held (Loader.loadModule P l.settings t path w₁)
      (Loader.loadModule P l.settings t path w₂) := by
  have hopens := h.openLibrary hw path
  unfold Loader.loadModule
  generalize P.openLibrary path w₁ = opened₁ at hopens ⊢
  generalize P.openLibrary path w₂ = opened₂ at hopens ⊢
  cases hopens with
  | refused reason => exact .failed _ hw
  | @opened m n _ _ w₁' w₂' hopened hentries =>
    have hclosed : R held (P.closeLibrary m w₁') (P.closeLibrary n w₂') := h.closeLibrary hopened
    cases hentries with
    | missing reason => exact .failed _ hclosed
    | there abi contract hmakes =>
      simp only [Loader.checkEntry]
      by_cases habi : abi ≠ abiVersion
      · simp only [if_pos habi]
        exact .failed _ hclosed
      by_cases hcontract : contract ≠ contractVersion
      · simp only [if_neg habi, if_pos hcontract]
        exact .failed _ hclosed
      simp only [if_neg habi, if_neg hcontract]
      obtain ⟨hresult, hworlds⟩ := hmakes.instantiate t
      generalize Loader.instantiate _ t l.settings w₁' = out₁ at hresult hworlds ⊢
      generalize Loader.instantiate _ t l.settings w₂' = out₂ at hresult hworlds ⊢
      obtain ⟨result, w₁''⟩ := out₁
      obtain ⟨_, w₂''⟩ := out₂
      obtain rfl := hresult
      cases result with
      | error e => exact .failed e (h.closeLibrary hworlds)
      | ok device =>
        refine .loaded (.module device t path m n) ?_
        rwa [Multiset.singleton_add]

/-- Loads end alike in worlds that are alike. -/
theorem load (h : R.Hides P l) (hw : R held w₁ w₂) (t : String) :
    R.Loads held (l.load P t w₁) (l.load P t w₂) := by
  unfold Loader.load
  cases hget : l.registry.get? t with
  | none => exact h.loadModule hw t (l.modulePath t)
  | some create =>
    obtain ⟨hresult, hworlds⟩ := (h.create hget hw).instantiate t
    simp only
    generalize Loader.instantiate create t l.settings w₁ = out₁ at hresult hworlds ⊢
    generalize Loader.instantiate create t l.settings w₂ = out₂ at hresult hworlds ⊢
    obtain ⟨result, w₁'⟩ := out₁
    obtain ⟨_, w₂'⟩ := out₂
    obtain rfl := hresult
    cases result with
    | error e => exact .failed e hworlds
    | ok device =>
      refine .loaded (.builtin device t) ?_
      rwa [Multiset.zero_add]

/-- A load that fails leaves a world that is like the one before. -/
theorem load_error (h : R.Hides P l) (hw : R held w w) {t : String} {e : ResolutionError}
    (hload : l.load P t w = (.error e, w')) : R held w w' := by
  unfold Loader.load at hload
  split at hload
  · rename_i create hget
    split at hload <;> cases hload
    obtain ⟨fault, hcreate⟩ := Loader.instantiate_error ‹_›
    exact h.failed hget hw hcreate
  · unfold Loader.loadModule at hload
    split at hload
    · cases hload
      exact hw
    · rename_i library w₁ hopen
      split at hload
      · cases hload
        exact h.closed hw hopen
      · rename_i create hcheck
        split at hload <;> cases hload
        rename_i hmake
        obtain ⟨fault, hcreate⟩ := Loader.instantiate_error hmake
        obtain ⟨entry, hentry, rfl⟩ := Loader.checkEntry_ok hcheck
        exact h.moduleFailed hw hopen hentry hcreate

/-- The same device types can be loaded. -/
theorem available (h : R.Hides P l) (hw : R held w₁ w₂) : l.available P w₁ = l.available P w₂ := by
  unfold Loader.available Loader.discovered
  rw [h.listFiles hw]

end Hides
end Likeness
end BlockTransfer
