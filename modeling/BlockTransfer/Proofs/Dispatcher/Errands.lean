import BlockTransfer.Dispatcher.Switching
/-!
# Errands of one caller

A dispatcher with one caller carries out one errand after the other, and nobody
is inside a device in between (`Dispatcher.Calm`). Then a replaced activation
never outlives its replacement, and a load ends in one of four ways
(`Dispatcher.LoadEnd`).

Key definitions: `Dispatcher.attend`, `Dispatcher.after`, `Dispatcher.transcript`,
`Dispatcher.Calm`, `Dispatcher.LoadEnd`, `Dispatcher.VisitEnd`.
Key theorems: `Dispatcher.loadEnd_attend`, `Dispatcher.visitEnd_attend`,
`Dispatcher.Calm.after`.
-/

namespace BlockTransfer
namespace Dispatcher

open Switching (Errand Visit Reply)

variable {W D : Type} {P : Platform W D} {d : Dispatcher W D} {a : Activation D} {w : W}
  {t : String}

/-- Carries out an errand with nobody else there. -/
def attend (P : Platform W D) (d : Dispatcher W D) (e : Errand) (w : W) :
    Reply × Dispatcher W D × W :=
  match e with
  | .load t =>
    let (result, d, w) := d.load P t w
    (result.map fun _ => .done, d, w)
  | .visit (.forward call) => d.forward P call w
  | .visit (.newLocked count like) =>
    let (result, d, w) := d.newLocked P count like w
    (result.map .buffer, d, w)
  | .visit (.freeLocked b) =>
    let (result, d, w) := d.freeLocked P b w
    (result.map fun _ => .done, d, w)

/-- Carries out errands one after the other; the replies are in order. -/
def attendAll (P : Platform W D) :
    List Errand → Dispatcher W D → W → List Reply × Dispatcher W D × W
  | [], d, w => ([], d, w)
  | e :: es, d, w =>
    let (reply, d, w) := d.attend P e w
    let (replies, d, w) := attendAll P es d w
    (reply :: replies, d, w)

theorem attendAll_cons (e : Errand) (es : List Errand) (d : Dispatcher W D) (w : W) :
    attendAll P (e :: es) d w =
      ((d.attend P e w).1 :: (attendAll P es (d.attend P e w).2.1 (d.attend P e w).2.2).1,
        (attendAll P es (d.attend P e w).2.1 (d.attend P e w).2.2).2) := rfl

theorem attendAll_append (es es' : List Errand) (d : Dispatcher W D) (w : W) :
    attendAll P (es ++ es') d w =
      ((attendAll P es d w).1 ++
          (attendAll P es' (attendAll P es d w).2.1 (attendAll P es d w).2.2).1,
        (attendAll P es' (attendAll P es d w).2.1 (attendAll P es d w).2.2).2) := by
  induction es generalizing d w with
  | nil => rfl
  | cons e es ih => simp only [List.cons_append, attendAll_cons, ih]

/-- The dispatcher and the world after errands. -/
def after (P : Platform W D) (es : List Errand) (d : Dispatcher W D) (w : W) :
    Dispatcher W D × W := (attendAll P es d w).2

/-- Errands with their replies. -/
def transcript (P : Platform W D) (es : List Errand) (d : Dispatcher W D) (w : W) :
    List (Errand × Reply) := es.zip (attendAll P es d w).1

theorem length_attendAll (es : List Errand) (d : Dispatcher W D) (w : W) :
    (attendAll P es d w).1.length = es.length := by
  induction es generalizing d w with
  | nil => rfl
  | cons e es ih => simp only [attendAll, List.length_cons, ih]

theorem after_append (es es' : List Errand) (d : Dispatcher W D) (w : W) :
    after P (es ++ es') d w = after P es' (after P es d w).1 (after P es d w).2 := by
  rw [after, attendAll_append]
  rfl

theorem transcript_append (es es' : List Errand) (d : Dispatcher W D) (w : W) :
    transcript P (es ++ es') d w =
      transcript P es d w ++ transcript P es' (after P es d w).1 (after P es d w).2 := by
  simp only [transcript, attendAll_append]
  exact List.zip_append (length_attendAll es d w).symm

theorem transcript_prefix {es' es : List Errand} (h : es' <+: es) (d : Dispatcher W D) (w : W) :
    transcript P es' d w <+: transcript P es d w := by
  obtain ⟨rest, rfl⟩ := h
  rw [transcript_append]
  exact List.prefix_append ..

/-! ### Nobody inside -/

/-- Nobody is inside a device, and no replaced activation is left. -/
structure Calm (d : Dispatcher W D) : Prop where
  retired : d.retired = []
  holders : ∀ a, d.slot = some a → a.holders = 0
  generation : ∀ a, d.slot = some a → a.generation ≤ d.lastGeneration

theorem calm_start (loader : Loader W D) (policy : LockedBufferPolicy) :
    Calm { loader, policy } :=
  ⟨rfl, nofun, nofun⟩

/-- The dispatcher with the active device's activation replaced by one of the
same generation. -/
def setSlot (d : Dispatcher W D) (a : Activation D) : Dispatcher W D := { d with slot := some a }

theorem Calm.setSlot (h : d.Calm) {a' : Activation D} (hslot : d.slot = some a)
    (hholders : a'.holders = a.holders) (hgeneration : a'.generation = a.generation) :
    (d.setSlot a').Calm := by
  refine ⟨h.retired, ?_, ?_⟩ <;> rintro _ ⟨⟩
  · rw [hholders, h.holders a hslot]
  · rw [hgeneration]
    exact h.generation a hslot

/-- The dispatcher with a loaded device as the active one. -/
def install (d : Dispatcher W D) (loaded : LoadedDevice D) : Dispatcher W D :=
  { d with
    slot := some { loaded, generation := d.lastGeneration + 1 }
    lastGeneration := d.lastGeneration + 1 }

/-- With nobody inside, a replaced device is given up at once. -/
theorem Calm.activate (h : d.Calm) (loaded : LoadedDevice D) (w : W) :
    d.activate P loaded w = (d.install loaded, d.close P w) := by
  obtain ⟨loader, policy, slot, retired, last⟩ := d
  obtain rfl : retired = [] := h.retired
  cases slot with
  | none => rfl
  | some a =>
    obtain ⟨l, generation, locked, holders⟩ := a
    obtain rfl : holders = 0 := h.holders _ rfl
    have hle : generation ≤ last := h.generation _ rfl
    have hne : last + 1 ≠ generation := by omega
    simp [Dispatcher.activate, nextGeneration, swap, leave, stepOut, mapActivation, releaseRetired,
      install, close, Activation.release, Activation.drain, Activation.setDevice, hne]

theorem Calm.install (h : d.Calm) (loaded : LoadedDevice D) : (d.install loaded).Calm := by
  refine ⟨h.retired, ?_, ?_⟩ <;> rintro _ ⟨⟩
  · rfl
  · exact Nat.le_refl _

/-! ### How a load ends -/

/-- Waiting for the current device changes nothing but that device. -/
theorem drainCurrent_slot (d : Dispatcher W D) (w : W) :
    (d.slot = none ∧ d.drainCurrent P w = (.ok (), d, w)) ∨
      ∃ a device, d.slot = some a ∧ (d.drainCurrent P w).2.1 = d.setSlot (a.setDevice device) := by
  cases hslot : d.slot with
  | none => exact .inl ⟨rfl, by simp only [drainCurrent, hslot]⟩
  | some a =>
    exact .inr ⟨a, (P.serve .wait a.loaded.device w).2.1, rfl, by
      simp only [drainCurrent, hslot, Activation.drain, setSlot]⟩

theorem Calm.drainCurrent (h : d.Calm) (w : W) : (d.drainCurrent P w).2.1.Calm := by
  obtain ⟨-, heq⟩ | ⟨a, device, hslot, heq⟩ := drainCurrent_slot (P := P) d w
  · rwa [heq]
  · rw [heq]
    exact h.setSlot hslot rfl rfl

/-- Draining the current device does what a wait does. -/
theorem drainCurrent_eq_wait (d : Dispatcher W D) (w : W) :
    (d.drainCurrent P w).2 = (d.forward P .wait w).2 := by
  cases hslot : d.slot <;>
    simp only [drainCurrent, forward, serveActive, Activation.drain, Call.request, hslot]

/-- The ways a load ends: the current device could not be drained, its locked
buffers forbid the switch, the new device could not be had, or it took over. -/
inductive LoadEnd (P : Platform W D) (d : Dispatcher W D) (t : String) (w : W) :
    Reply × Dispatcher W D × W → Prop where
  | undrained {e d' w'} (drain : d.drainCurrent P w = (.error e, d', w')) :
    LoadEnd P d t w (.error (.device e), d', w')
  | refused {e d' w'} (drain : d.drainCurrent P w = (.ok (), d', w'))
      (check : d'.checkOutstanding = .error e) : LoadEnd P d t w (.error (.lifecycle e), d', w')
  | unresolved {e d' w' w''} (drain : d.drainCurrent P w = (.ok (), d', w'))
      (check : d'.checkOutstanding = .ok ())
      (load : d'.loader.load P t w' = (.error e, w'')) :
    LoadEnd P d t w (.error (.resolution e), d', w'')
  | switched {loaded d' w' w''} (drain : d.drainCurrent P w = (.ok (), d', w'))
      (check : d'.checkOutstanding = .ok ())
      (load : d'.loader.load P t w' = (.ok loaded, w'')) :
    LoadEnd P d t w (.ok .done, d'.install loaded, d'.close P w'')

theorem loadEnd_attend (h : d.Calm) (t : String) (w : W) :
    LoadEnd P d t w (d.attend P (.load t) w) := by
  have hcalm := h.drainCurrent (P := P) w
  simp only [attend, load]
  split
  · rename_i hdrain
    exact .undrained hdrain
  · rename_i d' w' hdrain
    rw [hdrain] at hcalm
    split
    · rename_i hcheck
      exact .refused hdrain hcheck
    · rename_i hcheck
      split
      · rename_i hload
        exact .unresolved hdrain hcheck hload
      · rename_i hload
        rw [hcalm.activate]
        exact .switched hdrain hcheck hload

/-! ### How a visit ends -/

/-- The ways a visit to the active device ends. -/
inductive VisitEnd (P : Platform W D) (d : Dispatcher W D) (a : Activation D) (w : W) :
    Visit → Reply × Dispatcher W D × W → Prop where
  | forwarded {call answer device w'}
      (serve : P.serve call.request a.loaded.device w = (answer, device, w')) :
    VisitEnd P d a w (.forward call)
      (answer.mapError .device, d.setSlot (a.setDevice device), w')
  | withheld {count like e device w'}
      (serve : P.serve (.newLocked count like) a.loaded.device w = (.error e, device, w')) :
    VisitEnd P d a w (.newLocked count like)
      (.error (.device e), d.setSlot (a.setDevice device), w')
  | untagged {count like answer device w'}
      (serve : P.serve (.newLocked count like) a.loaded.device w = (.ok answer, device, w'))
      (pin : ∀ b, answer = .buffer b → b.pin = none) :
    VisitEnd P d a w (.newLocked count like)
      (.error (.lifecycle .notLocked), d.setSlot (a.setDevice device), w')
  | handedOut {count like b tag device w'}
      (serve : P.serve (.newLocked count like) a.loaded.device w = (.ok (.buffer b), device, w'))
      (pin : b.pin = some tag) :
    VisitEnd P d a w (.newLocked count like)
      (.ok (.buffer b), d.setSlot ((a.setDevice device).mapLocked (·.insert tag)), w')
  | disowned {b e} (check : a.checkOwned b = .error e) :
    VisitEnd P d a w (.freeLocked b) (.error (.lifecycle e), d, w)
  | kept {b tag e device w'} (check : a.checkOwned b = .ok tag)
      (serve : P.serve (.freeLocked b) a.loaded.device w = (.error e, device, w')) :
    VisitEnd P d a w (.freeLocked b) (.error (.device e), d.setSlot (a.setDevice device), w')
  | freed {b tag answer device w'} (check : a.checkOwned b = .ok tag)
      (serve : P.serve (.freeLocked b) a.loaded.device w = (.ok answer, device, w')) :
    VisitEnd P d a w (.freeLocked b)
      (.ok .done, d.setSlot ((a.setDevice device).mapLocked (·.erase tag)), w')

theorem attend_noDevice (h : d.slot = none) (v : Visit) (w : W) :
    d.attend P (.visit v) w = (.error (.noDevice v.operation), d, w) := by
  cases v <;>
    simp only [attend, forward, newLocked, freeLocked, serveActive, h, Visit.operation] <;> rfl

theorem serveActive_eq {r : Request} {answer device w'} (h : d.slot = some a)
    (hserve : P.serve r a.loaded.device w = (answer, device, w')) (operation : String) :
    d.serveActive P operation r w =
      (answer.mapError .device, d.setSlot (a.setDevice device), w') := by
  simp only [serveActive, h, hserve, setSlot]

theorem visitEnd_attend (h : d.slot = some a) (v : Visit) (w : W) :
    VisitEnd P d a w v (d.attend P (.visit v) w) := by
  cases v with
  | forward call =>
    rw [attend, forward, serveActive_eq h rfl]
    exact .forwarded rfl
  | newLocked count like =>
    obtain ⟨⟨answer, device, w'⟩, hserve⟩ :
      ∃ out, P.serve (.newLocked count like) a.loaded.device w = out := ⟨_, rfl⟩
    rw [attend, newLocked, serveActive_eq h hserve]
    rcases answer with e | answer
    · exact .withheld hserve
    · cases answer with
      | buffer b =>
        obtain ⟨region, type, len, pin⟩ := b
        cases pin with
        | none => exact .untagged hserve fun _ hb => by cases hb; rfl
        | some tag => exact .handedOut hserve rfl
      | _ => exact .untagged hserve nofun
  | freeLocked b =>
    cases hcheck : a.checkOwned b with
    | error e =>
      simp only [attend, freeLocked, h, hcheck]
      exact .disowned hcheck
    | ok tag =>
      obtain ⟨⟨answer, device, w'⟩, hserve⟩ :
        ∃ out, P.serve (.freeLocked b) a.loaded.device w = out := ⟨_, rfl⟩
      simp only [attend, freeLocked, h, hcheck, serveActive_eq h hserve]
      rcases answer with e | answer
      · exact .kept hcheck hserve
      · exact .freed hcheck hserve

/-! ### What errands keep -/

theorem checkOwned_eq_ok_iff {b : Buffer} {tag : PinTag} :
    a.checkOwned b = .ok tag ↔ b.pin = some tag ∧ a.locked.contains tag = true := by
  unfold Activation.checkOwned
  cases b.pin with
  | none => simp
  | some u =>
    by_cases hu : a.locked.contains u = true
    · simp only [hu, if_true, Except.ok.injEq, Option.some.injEq]
      exact ⟨fun h => ⟨h, h ▸ hu⟩, And.left⟩
    · simp only [hu, if_false, Option.some.injEq, reduceCtorEq, false_iff]
      rintro ⟨rfl, h⟩
      exact hu h

theorem drainCurrent_same (d : Dispatcher W D) (w : W) :
    (d.drainCurrent P w).2.1.loader = d.loader ∧ (d.drainCurrent P w).2.1.policy = d.policy := by
  obtain ⟨-, heq⟩ | ⟨a, device, -, heq⟩ := drainCurrent_slot (P := P) d w <;> rw [heq]
  · exact ⟨rfl, rfl⟩
  · exact ⟨rfl, rfl⟩

/-- The loader and the policy stay. -/
theorem Calm.attend_same (h : d.Calm) (e : Errand) (w : W) :
    (d.attend P e w).2.1.loader = d.loader ∧ (d.attend P e w).2.1.policy = d.policy := by
  cases e with
  | load t =>
    have hdrain := drainCurrent_same (P := P) d w
    have hend := loadEnd_attend (P := P) h t w
    generalize d.attend P (.load t) w = out at hend ⊢
    cases hend with
    | undrained drain => rwa [drain] at hdrain
    | refused drain => rwa [drain] at hdrain
    | unresolved drain => rwa [drain] at hdrain
    | switched drain => rwa [drain] at hdrain
  | visit v =>
    cases hslot : d.slot with
    | none => rw [attend_noDevice hslot]; exact ⟨rfl, rfl⟩
    | some a =>
      have hend := visitEnd_attend (P := P) hslot v w
      generalize d.attend P (.visit v) w = out at hend ⊢
      cases hend <;> exact ⟨rfl, rfl⟩

theorem Calm.attend (h : d.Calm) (e : Errand) (w : W) : (d.attend P e w).2.1.Calm := by
  cases e with
  | load t =>
    have hdrain := h.drainCurrent (P := P) w
    have hend := loadEnd_attend (P := P) h t w
    generalize d.attend P (.load t) w = out at hend ⊢
    cases hend with
    | undrained drain => rwa [drain] at hdrain
    | refused drain => rwa [drain] at hdrain
    | unresolved drain => rwa [drain] at hdrain
    | switched drain =>
      rw [drain] at hdrain
      exact hdrain.install _
  | visit v =>
    cases hslot : d.slot with
    | none => rwa [attend_noDevice hslot]
    | some a =>
      have hend := visitEnd_attend (P := P) hslot v w
      generalize d.attend P (.visit v) w = out at hend ⊢
      cases hend with
      | disowned => exact h
      | _ => exact h.setSlot hslot rfl rfl

theorem Calm.after_same (h : d.Calm) (es : List Errand) (w : W) :
    (Dispatcher.after P es d w).1.loader = d.loader ∧
      (Dispatcher.after P es d w).1.policy = d.policy := by
  induction es generalizing d w with
  | nil => exact ⟨rfl, rfl⟩
  | cons e es ih =>
    obtain ⟨hloader, hpolicy⟩ := h.attend_same (P := P) e w
    obtain ⟨hloader', hpolicy'⟩ := ih (h.attend e w) (d.attend P e w).2.2
    exact ⟨hloader'.trans hloader, hpolicy'.trans hpolicy⟩

theorem Calm.after (h : d.Calm) (es : List Errand) (w : W) :
    (Dispatcher.after P es d w).1.Calm := by
  induction es generalizing d w with
  | nil => exact h
  | cons e es ih => exact ih (h.attend e w) _

end Dispatcher
end BlockTransfer
