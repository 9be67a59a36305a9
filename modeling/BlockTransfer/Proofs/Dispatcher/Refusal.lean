import BlockTransfer.Proofs.Device.Waiting
import BlockTransfer.Proofs.Dispatcher.Standing
import BlockTransfer.Proofs.Module.Renumbering
/-!
# Loads that fail

A load has the current device wait before it can fail, so a load that fails is
not without a trace. Apart from that wait it is, where a likeness hides what a load
leaves behind that fails (`Likeness.Hides`): whatever is asked afterwards is answered
as if the current device had been asked to wait in its place
(`Dispatcher.failed_load_like_wait`). Of a library that was opened for such a load the
devices of this library keep a number, which they do not show
(`Device.likeness_hides`).

Key definitions: `Dispatcher.Alike`, `Dispatcher.Fails`, `Likeness.Matches`,
`Platform.Idle`.
Key theorems: `Likeness.Matches.attend`, `Dispatcher.failed_load_like_wait`.
-/

namespace BlockTransfer

open Switching (Errand Visit Reply)

variable {W D : Type} {P : Platform W D}

/-! ### Dispatchers in worlds that are alike -/

/-- The same activation in both; the library of its device may have another number. -/
inductive SlotsAlike : Option (Activation D) → Option (Activation D) → Multiset (Nat × Nat) → Prop
    where
  | empty : SlotsAlike none none 0
  | active {a : Activation D} {loaded : LoadedDevice D} {held : Multiset (Nat × Nat)}
      (alike : a.loaded.Alike loaded held) : SlotsAlike (some a) (some { a with loaded }) held

/-- Two dispatchers with nobody inside that differ in the number of a library at most, in
worlds that are alike. -/
structure Likeness.Matches (R : Likeness W) (P : Platform W D) (d₁ d₂ : Dispatcher W D)
    (w₁ w₂ : W) : Prop where
  calm : d₁.Calm
  hides : R.Hides P d₁.loader
  same : d₂ = { d₁ with slot := d₂.slot }
  alike : ∃ held, SlotsAlike d₁.slot d₂.slot held ∧ R held w₁ w₂

/-- The same outcome, after which the dispatchers and the worlds still match. -/
structure Likeness.Ends (R : Likeness W) (P : Platform W D) {α : Type}
    (x y : α × Dispatcher W D × W) : Prop where
  outcome : x.1 = y.1
  matching : R.Matches P x.2.1 y.2.1 x.2.2 y.2.2

namespace Likeness.Matches

open Dispatcher

variable {R : Likeness W} {d d₁ d₂ : Dispatcher W D} {w w₁ w₂ : W}

/-- A dispatcher that has loaded nothing. -/
theorem start {loader : Loader W D} (h : R.Hides P loader) (hw : R 0 w w)
    (policy : LockedBufferPolicy) : R.Matches P { loader, policy } { loader, policy } w w :=
  ⟨calm_start loader policy, h, rfl, 0, .empty, hw⟩

theorem loader_eq (h : R.Matches P d₁ d₂ w₁ w₂) : d₂.loader = d₁.loader := by
  rw [h.same]

theorem calm_right (h : R.Matches P d₁ d₂ w₁ w₂) : d₂.Calm := by
  obtain ⟨⟨hretired, hholders, hgeneration⟩, -, hsame, held, hslots, -⟩ := h
  obtain ⟨loader, policy, slot₁, retired, last⟩ := d₁
  obtain ⟨_, _, slot₂, _, _⟩ := d₂
  cases hsame
  cases hslots with
  | empty => exact ⟨hretired, nofun, nofun⟩
  | @active a =>
    refine ⟨hretired, ?_, ?_⟩ <;> rintro _ ⟨⟩
    · exact hholders a rfl
    · exact hgeneration a rfl

theorem observe_eq (h : R.Matches P d₁ d₂ w₁ w₂) : d₂.observe = d₁.observe := by
  obtain ⟨held, hslots, -⟩ := h.alike
  rw [h.same]
  generalize d₂.slot = slot at hslots ⊢
  obtain ⟨loader, policy, slot₁, retired, last⟩ := d₁
  cases hslots with
  | empty => rfl
  | active halike =>
    simp only [observe, isLoaded, deviceType?, generation?, outstanding, Option.map_some,
      halike.same.2]
    rfl

theorem available_eq (h : R.Matches P d₁ d₂ w₁ w₂) :
    d₁.loader.available P w₁ = d₂.loader.available P w₂ := by
  obtain ⟨held, -, hw⟩ := h.alike
  rw [h.loader_eq]
  exact h.hides.available hw

theorem checkOutstanding_eq (h : R.Matches P d₁ d₂ w₁ w₂) :
    d₂.checkOutstanding = d₁.checkOutstanding := by
  obtain ⟨held, hslots, -⟩ := h.alike
  rw [h.same]
  generalize d₂.slot = slot at hslots ⊢
  obtain ⟨loader, policy, slot₁, retired, last⟩ := d₁
  cases hslots <;> rfl

/-- The locked buffers of both change alike. -/
theorem mapLocked (h : R.Matches P d₁ d₂ w₁ w₂) (f : LockedSet → LockedSet) :
    R.Matches P (d₁.mapLocked f) (d₂.mapLocked f) w₁ w₂ := by
  obtain ⟨hcalm, hhides, hsame, held, hslots, hw⟩ := h
  obtain ⟨loader, policy, slot₁, retired, last⟩ := d₁
  obtain ⟨_, _, slot₂, _, _⟩ := d₂
  cases hsame
  cases hslots with
  | empty => exact ⟨hcalm, hhides, rfl, _, .empty, hw⟩
  | @active a loaded held halike =>
    refine ⟨?_, hhides, rfl, held, ?_, hw⟩
    · exact hcalm.setSlot rfl (show (a.mapLocked f).holders = a.holders from rfl) rfl
    · exact .active (a := a.mapLocked f) halike

/-- A request to the active device of both. -/
theorem serveActive (h : R.Matches P d₁ d₂ w₁ w₂) (operation : String) (r : Request) :
    R.Ends P (d₁.serveActive P operation r w₁) (d₂.serveActive P operation r w₂) := by
  obtain ⟨hcalm, hhides, hsame, held, hslots, hw⟩ := h
  obtain ⟨loader, policy, slot₁, retired, last⟩ := d₁
  obtain ⟨_, _, slot₂, _, _⟩ := d₂
  cases hsame
  cases hslots with
  | empty => exact ⟨rfl, hcalm, hhides, rfl, 0, .empty, hw⟩
  | @active a loaded held halike =>
    obtain ⟨hanswer, hdevice, hworlds⟩ := hhides.serve hw r a.loaded.device
    rw [serveActive_eq (a := a) rfl rfl, serveActive_eq (a := { a with loaded }) rfl rfl]
    simp only [halike.same.1, ← hanswer, ← hdevice]
    refine ⟨rfl, hcalm.setSlot rfl rfl rfl, hhides, rfl, held, ?_, hworlds⟩
    exact .active (a := a.setDevice _) (halike.setDevice _)

theorem drainCurrent (h : R.Matches P d₁ d₂ w₁ w₂) :
    R.Ends P (d₁.drainCurrent P w₁) (d₂.drainCurrent P w₂) := by
  refine ⟨?_, ?_⟩
  · obtain ⟨held, hslots, hw⟩ := h.alike
    rw [h.same]
    generalize d₂.slot = slot at hslots ⊢
    generalize hslot : d₁.slot = slot₁ at hslots
    cases hslots with
    | empty => simp only [Dispatcher.drainCurrent, hslot]
    | @active a loaded held halike =>
      have hanswer := (h.hides.serve hw .wait a.loaded.device).answer
      simp only [Dispatcher.drainCurrent, hslot, Activation.drain, halike.same.1, hanswer]
  · rw [drainCurrent_eq_wait, drainCurrent_eq_wait]
    exact (h.serveActive _ _).2

/-- What was loaded takes the place of the active device of both. -/
theorem switch (h : R.Matches P d₁ d₂ w w') {held more : Multiset (Nat × Nat)}
    {loaded₁ loaded₂ : LoadedDevice D} (hslots : SlotsAlike d₁.slot d₂.slot held)
    (halike : loaded₁.Alike loaded₂ more) (hw : R (more + held) w₁ w₂) :
    R.Matches P (d₁.activate P loaded₁ w₁).1 (d₂.activate P loaded₂ w₂).1
      (d₁.activate P loaded₁ w₁).2 (d₂.activate P loaded₂ w₂).2 := by
  rw [h.calm.activate, h.calm_right.activate]
  obtain ⟨hcalm, hhides, hsame, -⟩ := h
  obtain ⟨loader, policy, slot₁, retired, last⟩ := d₁
  obtain ⟨_, _, slot₂, _, _⟩ := d₂
  cases hsame
  refine ⟨hcalm.install _, hhides, rfl, more, ?_, ?_⟩
  · exact .active (a := { loaded := loaded₁, generation := last + 1 }) halike
  · cases hslots with
    | empty => rwa [Multiset.add_zero] at hw
    | @active a loaded held hold =>
      obtain ⟨-, hdevice, hworlds⟩ := hhides.serve hw .wait a.loaded.device
      simp only [Dispatcher.close, Activation.release, Activation.drain, hold.same.1]
      rw [Multiset.add_comm] at hworlds
      rw [← hdevice]
      exact hhides.discardLoaded (hold.setDevice _) hworlds

theorem load (h : R.Matches P d₁ d₂ w₁ w₂) (t : String) :
    R.Ends P (d₁.load P t w₁) (d₂.load P t w₂) := by
  obtain ⟨hresult, hdrained⟩ := h.drainCurrent
  unfold Dispatcher.load
  generalize d₁.drainCurrent P w₁ = out₁ at hresult hdrained ⊢
  generalize d₂.drainCurrent P w₂ = out₂ at hresult hdrained ⊢
  obtain ⟨result, d₁', w₁'⟩ := out₁
  obtain ⟨_, d₂', w₂'⟩ := out₂
  obtain rfl := hresult
  replace hdrained : R.Matches P d₁' d₂' w₁' w₂' := hdrained
  cases result with
  | error e => exact ⟨rfl, hdrained⟩
  | ok =>
    simp only [hdrained.checkOutstanding_eq, hdrained.loader_eq]
    cases d₁'.checkOutstanding with
    | error e => exact ⟨rfl, hdrained⟩
    | ok =>
      obtain ⟨held, hslots, hw⟩ := hdrained.alike
      have hload := hdrained.hides.load hw t
      simp only
      generalize d₁'.loader.load P t w₁' = out₁ at hload ⊢
      generalize d₁'.loader.load P t w₂' = out₂ at hload ⊢
      cases hload with
      | failed e hworlds =>
        exact ⟨rfl, hdrained.calm, hdrained.hides, hdrained.same, held, hslots, hworlds⟩
      | loaded halike hworlds => exact ⟨rfl, hdrained.switch hslots halike hworlds⟩

theorem newLocked (h : R.Matches P d₁ d₂ w₁ w₂) (count : Nat) (like : Buffer) :
    R.Ends P (d₁.newLocked P count like w₁) (d₂.newLocked P count like w₂) := by
  obtain ⟨hanswer, hserved⟩ := h.serveActive "new_locked_buffer" (.newLocked count like)
  unfold Dispatcher.newLocked
  generalize d₁.serveActive P _ _ w₁ = out₁ at hanswer hserved ⊢
  generalize d₂.serveActive P _ _ w₂ = out₂ at hanswer hserved ⊢
  obtain ⟨answer, d₁', w₁'⟩ := out₁
  obtain ⟨_, d₂', w₂'⟩ := out₂
  obtain rfl := hanswer
  rcases answer with e | answer
  · exact ⟨rfl, hserved⟩
  · cases answer with
    | buffer b =>
      cases hpin : b.pin with
      | none =>
        simp only [hpin]
        exact ⟨rfl, hserved⟩
      | some tag =>
        simp only [hpin]
        exact ⟨rfl, hserved.mapLocked _⟩
    | _ => exact ⟨rfl, hserved⟩

theorem freeLocked (h : R.Matches P d₁ d₂ w₁ w₂) (b : Buffer) :
    R.Ends P (d₁.freeLocked P b w₁) (d₂.freeLocked P b w₂) := by
  obtain ⟨hanswer, hserved⟩ := h.serveActive "free_locked_buffer" (.freeLocked b)
  obtain ⟨held, hslots, hw⟩ := h.alike
  unfold Dispatcher.freeLocked
  generalize hslot₁ : d₁.slot = slot₁ at hslots
  generalize hslot₂ : d₂.slot = slot₂ at hslots
  cases hslots with
  | empty => exact ⟨rfl, h⟩
  | @active a loaded held halike =>
    simp only [show Activation.checkOwned { a with loaded } b = a.checkOwned b from rfl]
    cases a.checkOwned b with
    | error e => exact ⟨rfl, h⟩
    | ok tag =>
      simp only
      generalize d₁.serveActive P _ _ w₁ = out₁ at hanswer hserved ⊢
      generalize d₂.serveActive P _ _ w₂ = out₂ at hanswer hserved ⊢
      obtain ⟨answer, d₁', w₁'⟩ := out₁
      obtain ⟨_, d₂', w₂'⟩ := out₂
      obtain rfl := hanswer
      cases answer with
      | error e => exact ⟨rfl, hserved⟩
      | ok => exact ⟨rfl, hserved.mapLocked _⟩

/-- Every errand ends alike. -/
theorem attend (h : R.Matches P d₁ d₂ w₁ w₂) (e : Errand) :
    R.Ends P (d₁.attend P e w₁) (d₂.attend P e w₂) := by
  cases e with
  | load t =>
    obtain ⟨hresult, hloaded⟩ := h.load t
    exact ⟨congrArg (Except.map fun _ => Answer.done) hresult, hloaded⟩
  | visit v =>
    cases v with
    | forward call => exact h.serveActive _ _
    | newLocked count like =>
      obtain ⟨hresult, hplaced⟩ := h.newLocked count like
      exact ⟨congrArg (Except.map Answer.buffer) hresult, hplaced⟩
    | freeLocked b =>
      obtain ⟨hresult, hfreed⟩ := h.freeLocked b
      exact ⟨congrArg (Except.map fun _ => Answer.done) hresult, hfreed⟩

/-- No errand shows which of the two it met. -/
theorem attendAll (h : R.Matches P d₁ d₂ w₁ w₂) (es : List Errand) :
    R.Ends P (attendAll P es d₁ w₁) (attendAll P es d₂ w₂) := by
  induction es generalizing d₁ d₂ w₁ w₂ with
  | nil => exact ⟨rfl, h⟩
  | cons e es ih =>
    obtain ⟨hreply, hattended⟩ := h.attend e
    obtain ⟨hreplies, hafter⟩ := ih hattended
    exact ⟨congrArg₂ List.cons hreply hreplies, hafter⟩

end Likeness.Matches

/-! ### A load that fails -/

/-- The device has nothing to wait for: a wait counts no operation and changes nothing. -/
def Platform.Idle (P : Platform W D) (device : D) (w : W) : Prop :=
  P.serve .wait device w = (.ok (.number 0), device, w)

/-- An idle posix device has nothing to wait for. -/
theorem Device.idle_posix {p : PosixDevice} (h : p.Idle) (w : World) :
    Device.platform.Idle (.posix p) w := by
  show Device.serve .wait (.posix p) w = _
  simp only [Device.serve, h.serve_wait]

/-- After a wait a posix device has nothing to wait for. -/
theorem Device.idle_of_wait (p : PosixDevice) (w : World) :
    Device.platform.Idle (Device.serve .wait (.posix p) w).2.1
      (Device.serve .wait (.posix p) w).2.2 :=
  Device.idle_posix (p.idle_of_wait w.storage) _

namespace Dispatcher

variable {R : Likeness W} {d : Dispatcher W D} {w : W} {t : String}

/-- No errands tell the two apart, nor what shows after them. -/
def Alike (P : Platform W D) (x y : Dispatcher W D × W) : Prop :=
  ∀ es, (attendAll P es x.1 x.2).1 = (attendAll P es y.1 y.2).1 ∧
    (after P es x.1 x.2).1.observe = (after P es y.1 y.2).1.observe ∧
    (after P es x.1 x.2).1.loader.available P (after P es x.1 x.2).2 =
      (after P es y.1 y.2).1.loader.available P (after P es y.1 y.2).2

theorem Alike.of_matches {x y : Dispatcher W D × W} (h : R.Matches P x.1 y.1 x.2 y.2) :
    Alike P y x := by
  intro es
  obtain ⟨hreplies, hafter⟩ := h.attendAll es
  exact ⟨hreplies.symm, hafter.observe_eq, hafter.available_eq.symm⟩

/-- A load ends for want of a device, or because locked buffers were not freed. -/
def Fails (P : Platform W D) (d : Dispatcher W D) (t : String) (w : W) : Prop :=
  (∃ e, (d.attend P (.load t) w).1 = .error (.resolution e)) ∨
    ∃ n, (d.attend P (.load t) w).1 = .error (.lifecycle (.outstanding n))

/-- What a load leaves that fails matches what a wait leaves. -/
theorem Fails.matches_wait (hfails : d.Fails P t w) (h : R.Matches P d d w w) :
    R.Matches P (d.forward P .wait w).2.1 (d.attend P (.load t) w).2.1
      (d.forward P .wait w).2.2 (d.attend P (.load t) w).2.2 := by
  have hdrained := h.drainCurrent.matching
  have hend := loadEnd_attend (P := P) h.calm t w
  unfold Fails at hfails
  rw [← drainCurrent_eq_wait]
  generalize d.attend P (.load t) w = out at hend hfails ⊢
  cases hend with
  | undrained => rcases hfails with ⟨_, h⟩ | ⟨_, h⟩ <;> cases h
  | switched => rcases hfails with ⟨_, h⟩ | ⟨_, h⟩ <;> cases h
  | refused drain =>
    rw [drain] at hdrained ⊢
    exact hdrained
  | unresolved drain _ load =>
    rw [drain] at hdrained ⊢
    obtain ⟨held, hslots, hw⟩ := hdrained.alike
    exact ⟨hdrained.calm, hdrained.hides, rfl, held, hslots, hdrained.hides.load_error hw load⟩

/-- A wait is put to the active device. -/
theorem forward_wait_eq {a : Activation D} {answer : Except DeviceError Answer} {device : D}
    {w' : W} (hslot : d.slot = some a)
    (hserve : P.serve .wait a.loaded.device w = (answer, device, w')) :
    d.forward P .wait w = (answer.mapError .device, d.setSlot (a.setDevice device), w') :=
  serveActive_eq hslot hserve _

section Runs

variable {loader : Loader W D} {policy : LockedBufferPolicy} {es : List Errand}

/-- Where a likeness hides what a load leaves that fails, such a load in the course of a run is
not told apart from a wait in its place. It is nothing at all if the active device has nothing
to wait for, and if the device has nothing to wait for after the wait, the next wait does not
count what the load has waited for. -/
theorem failed_load_like_wait (hhides : R.Hides P loader) (hw : R 0 w w)
    (hfails : (after P es { loader, policy } w).1.Fails P t (after P es { loader, policy } w).2) :
    let x := after P es { loader, policy } w
    let y := (x.1.attend P (.load t) x.2).2
    Alike P y (x.1.forward P .wait x.2).2 ∧
      ∀ a, x.1.slot = some a →
        (P.Idle a.loaded.device x.2 → Alike P y x) ∧
          ∀ answer device w', P.serve .wait a.loaded.device x.2 = (answer, device, w') →
            P.Idle device w' → (y.1.forward P .wait y.2).1 = .ok (.number 0) := by
  intro x y
  have hreached : R.Matches P x.1 x.1 x.2 x.2 :=
    ((Likeness.Matches.start hhides hw policy).attendAll es).matching
  have halike : Alike P y (x.1.forward P .wait x.2).2 :=
    .of_matches (hfails.matches_wait hreached)
  refine ⟨halike, fun a hslot => ⟨fun hidle => ?_, fun answer device w' hserve hidle => ?_⟩⟩
  · rw [forward_wait_eq hslot hidle] at halike
    have hsame : x.1.setSlot (a.setDevice a.loaded.device) = x.1 := by
      rw [setSlot, show a.setDevice a.loaded.device = a from rfl, ← hslot]
    rwa [hsame] at halike
  · have hreply : (y.1.forward P .wait y.2).1 =
        ((x.1.forward P .wait x.2).2.1.forward P .wait (x.1.forward P .wait x.2).2.2).1 :=
      (List.cons.inj (halike [.visit (.forward .wait)]).1).1
    rw [hreply, forward_wait_eq hslot hserve]
    exact congrArg Prod.fst (forward_wait_eq (a := a.setDevice device) rfl hidle)

end Runs

namespace PendingWrite

/-- The program's own registry, and no modules. -/
def posixLoader : Loader World Device :=
  { root := "/plugins"
    registry := Device.registry
    settings := {} }

/-- Two bytes in memory. -/
def world : World := { storage := { memory := { regions := [[1, 2]] } }, nextPool := 1 }

/-- A write of the two bytes was accepted, and nobody waited. -/
def errands : List Errand :=
  [.load "posix", .visit (.forward (.asyncPwrite ⟨0, .u8, 2, none⟩ "/p"))]

def state : Dispatcher World Device × World :=
  after Device.platform errands { loader := posixLoader } world

/-- The posix device is active. -/
theorem active : ∃ a p, state.1.slot = some a ∧ a.loaded.device = .posix p := ⟨_, _, rfl, rfl⟩

theorem fails : state.1.Fails Device.platform "missing" state.2 := .inl ⟨_, rfl⟩

end PendingWrite

open PendingWrite

/-- A load that fails for want of a module takes the count of the pending write
from the next wait. -/
theorem not_alike_pending_write :
    state.1.Fails Device.platform "missing" state.2 ∧
      (state.1.forward Device.platform .wait state.2).1 = .ok (.number 1) ∧
      ((state.1.attend Device.platform (.load "missing") state.2).2.1.forward Device.platform .wait
        (state.1.attend Device.platform (.load "missing") state.2).2.2).1 = .ok (.number 0) ∧
      ¬ Alike Device.platform (state.1.attend Device.platform (.load "missing") state.2).2
        state := by
  refine ⟨fails, rfl, rfl, fun h => ?_⟩
  cases (h [.visit (.forward .wait)]).1

theorem failed_load_like_wait_pending_write :
    Device.likeness.Hides Device.platform posixLoader ∧ Device.likeness 0 world world ∧
      state.1.Fails Device.platform "missing" state.2 ∧
      let y := (state.1.attend Device.platform (.load "missing") state.2).2
      Alike Device.platform y (state.1.forward Device.platform .wait state.2).2 ∧
        (y.1.forward Device.platform .wait y.2).1 = .ok (.number 0) := by
  have hindependent : posixLoader.registry.Independent := fun t create h => by
    rw [Device.create_of_registry h]
    exact Device.independent_createPosix
  have htraceless : posixLoader.registry.Traceless := fun t create h => by
    rw [Device.create_of_registry h]
    exact Device.traceless_createPosix
  have hhides := Device.likeness_hides hindependent htraceless
  have hworld : Device.likeness 0 world world := Device.likeness_start Libraries.sound_empty
  obtain ⟨halike, hwait⟩ := failed_load_like_wait hhides hworld fails
  obtain ⟨a, p, hslot, hdevice⟩ := active
  refine ⟨hhides, hworld, fails, halike, (hwait a hslot).2 _ _ _ rfl ?_⟩
  rw [hdevice]
  exact Device.idle_of_wait p _

end Dispatcher
end BlockTransfer
