import BlockTransfer.Proofs.Dispatcher.Errands
import Mathlib.Data.Finset.Card
import Mathlib.Data.Finset.Option
/-!
# What shows of a dispatcher

Four things can be asked of a dispatcher without a device: whether one is
active, its type, its generation, and how many locked buffers are out. A
`Standing` answers all four and knows no device: it counts the loads that
succeeded and remembers the type and the tags of the last one. The errands and
their replies alone move it on, and it says what the next reply is, given what
the active device and the loader would answer.

Whatever the devices do, a dispatcher with one caller shows what its standing
shows (`Dispatcher.shows_standing`).

Key definitions: `Standing`, `Standing.after`, `Standing.reply`,
`Dispatcher.Shows`.
Key theorem: `Dispatcher.shows_standing`.
-/

namespace BlockTransfer

open Switching (Errand Visit Reply)

/-- What a dispatcher shows without asking a device. -/
structure Observation where
  isLoaded : Bool
  deviceType? : Option String
  generation? : Option Nat
  outstanding : Except DispatchError Nat

/-- The request that an errand puts to the active device; a load has it wait. -/
def Switching.Errand.request : Errand → Request
  | .load _ => .wait
  | .visit (.forward call) => call.request
  | .visit (.newLocked count like) => .newLocked count like
  | .visit (.freeLocked b) => .freeLocked b

/-- What an errand meets outside of the dispatcher. -/
structure Circumstances where
  /-- The active device's answer to the errand's request. -/
  device : Except DeviceError Answer
  /-- What the loader makes of the type that a load asks for. -/
  loader : Except ResolutionError Unit

namespace Circumstances

/-- What keeps the current device from being replaced. Having no asynchronous
work to wait for does not. -/
def drainFailure? (c : Circumstances) : Option DeviceError :=
  match c.device with
  | .ok _ | .error (.unsupported ..) => none
  | .error e => some e

end Circumstances

/-- An active device as far as it shows. -/
structure ActiveStanding where
  deviceType : String
  generation : Nat
  /-- The tags of the locked buffers that were handed out and not freed. -/
  tags : Finset PinTag

/-- What shows of a dispatcher. -/
structure Standing where
  /-- How many loads succeeded. -/
  loads : Nat := 0
  active? : Option ActiveStanding := none

namespace Standing

def observe (s : Standing) : Observation where
  isLoaded := s.active?.isSome
  deviceType? := s.active?.map (·.deviceType)
  generation? := s.active?.map (·.generation)
  outstanding := match s.active? with
    | none => .error (.noDevice "outstanding_locked_buffers")
    | some a => .ok a.tags.card

/-- The standing after the tags changed. -/
def mapTags (s : Standing) (f : Finset PinTag → Finset PinTag) : Standing :=
  { s with active? := s.active?.map fun a => { a with tags := f a.tags } }

/-- The standing after the reply to an errand. Only loads that succeed change
the device, and only what is handed out or taken back changes the tags. -/
def after (s : Standing) : Errand × Reply → Standing
  | (.load t, .ok _) => ⟨s.loads + 1, some ⟨t, s.loads + 1, ∅⟩⟩
  | (.visit (.newLocked ..), .ok (.buffer b)) => s.mapTags (b.pin.toFinset ∪ ·)
  | (.visit (.freeLocked b), .ok _) => s.mapTags (· \ b.pin.toFinset)
  | _ => s

/-- The standing after errands and their replies. -/
def ofTranscript (transcript : List (Errand × Reply)) : Standing := transcript.foldl after {}

/-- What a load is told by a loader. -/
def resolved (c : Circumstances) : Reply :=
  match c.loader with
  | .error e => .error (.resolution e)
  | .ok () => .ok .done

/-- What a load is told while a device is active. -/
def replyToLoad (policy : LockedBufferPolicy) (a : ActiveStanding) (c : Circumstances) : Reply :=
  match c.drainFailure? with
  | some e => .error (.device e)
  | none =>
    if policy = .refuse ∧ a.tags ≠ ∅ then .error (.lifecycle (.outstanding a.tags.card))
    else resolved c

/-- What a visit to the active device is told. -/
def replyToVisit (a : ActiveStanding) (c : Circumstances) : Visit → Reply
  | .forward _ => c.device.mapError .device
  | .newLocked .. =>
    match c.device with
    | .error e => .error (.device e)
    | .ok (.buffer b) => if b.isLocked then .ok (.buffer b) else .error (.lifecycle .notLocked)
    | .ok _ => .error (.lifecycle .notLocked)
  | .freeLocked b =>
    match b.pin with
    | none => .error (.lifecycle .notLocked)
    | some tag =>
      if tag ∈ a.tags then (c.device.mapError .device).map fun _ => .done
      else .error (.lifecycle (.unknown tag.id))

/-- The reply to the next errand. -/
def reply (s : Standing) (policy : LockedBufferPolicy) (c : Circumstances) : Errand → Reply
  | .load _ =>
    match s.active? with
    | none => resolved c
    | some a => replyToLoad policy a c
  | .visit v =>
    match s.active? with
    | none => .error (.noDevice v.operation)
    | some a => replyToVisit a c v

end Standing

namespace Dispatcher

variable {W D : Type} {P : Platform W D} {d d' : Dispatcher W D} {a : Activation D} {w w' : W}
  {t : String}

/-- What the dispatcher shows. -/
def observe (d : Dispatcher W D) : Observation :=
  ⟨d.isLoaded, d.deviceType?, d.generation?, d.outstanding⟩

/-- What the next errand meets. A loader is asked after the current device has
waited. -/
def circumstances (P : Platform W D) (d : Dispatcher W D) (w : W) (e : Errand) : Circumstances where
  device := match d.slot with
    | none => .ok .done
    | some a => (P.serve e.request a.loaded.device w).1
  loader := match e with
    | .load t => ((d.loader.load P t (d.drainCurrent P w).2.2).1).map fun _ => ()
    | .visit _ => .ok ()

/-- The standing that a dispatcher has. -/
def standing (d : Dispatcher W D) : Standing :=
  ⟨d.lastGeneration, d.slot.map fun a =>
    ⟨a.loaded.deviceType, a.generation, a.locked.tags.toFinset⟩⟩

/-- No tag stands twice among the locked buffers of the active device. -/
def TagsOnce (d : Dispatcher W D) : Prop := ∀ a, d.slot = some a → a.locked.tags.Nodup

theorem observe_eq (h : d.TagsOnce) : d.observe = d.standing.observe := by
  obtain ⟨loader, policy, slot, retired, last⟩ := d
  cases slot with
  | none => rfl
  | some a =>
    simp [observe, standing, Standing.observe, isLoaded, deviceType?, generation?, outstanding,
      LockedSet.size, List.toFinset_card_of_nodup (h a rfl)]

/-! ### What moves the standing on -/

theorem standing_setSlot (h : d.slot = some a) (device : D) :
    (d.setSlot (a.setDevice device)).standing = d.standing := by
  simp [standing, setSlot, Activation.setDevice, h]

theorem standing_insert (h : d.slot = some a) (device : D) (tag : PinTag) :
    (d.setSlot ((a.setDevice device).mapLocked (·.insert tag))).standing =
      d.standing.mapTags ({tag} ∪ ·) := by
  have hinsert : (a.locked.tags.insert tag).toFinset = {tag} ∪ a.locked.tags.toFinset := by
    ext u
    simp
  simp [standing, setSlot, Activation.setDevice, Activation.mapLocked, LockedSet.insert,
    Standing.mapTags, h, hinsert]

theorem standing_erase (h : d.slot = some a) (honce : a.locked.tags.Nodup) (device : D)
    (tag : PinTag) :
    (d.setSlot ((a.setDevice device).mapLocked (·.erase tag))).standing =
      d.standing.mapTags (· \ {tag}) := by
  have herase : (a.locked.tags.erase tag).toFinset = a.locked.tags.toFinset \ {tag} := by
    ext u
    simp [honce.mem_erase_iff, and_comm]
  simp [standing, setSlot, Activation.setDevice, Activation.mapLocked, LockedSet.erase,
    Standing.mapTags, h, herase]

theorem TagsOnce.setSlot (h : d.TagsOnce) (hslot : d.slot = some a) (device : D) :
    (d.setSlot (a.setDevice device)).TagsOnce := by
  rintro _ ⟨⟩
  exact h a hslot

/-- A wait leaves no trace on what shows. -/
theorem drainCurrent_standing (d : Dispatcher W D) (w : W) :
    (d.drainCurrent P w).2.1.standing = d.standing := by
  obtain ⟨-, heq⟩ | ⟨a, device, hslot, heq⟩ := drainCurrent_slot (P := P) d w
  · rw [heq]
  · rw [heq, standing_setSlot hslot]

theorem TagsOnce.drainCurrent (h : d.TagsOnce) (w : W) : (d.drainCurrent P w).2.1.TagsOnce := by
  obtain ⟨-, heq⟩ | ⟨a, device, hslot, heq⟩ := drainCurrent_slot (P := P) d w
  · rwa [heq]
  · rw [heq]
    exact h.setSlot hslot device

theorem standing_install (d : Dispatcher W D) (loaded : LoadedDevice D) :
    (d.install loaded).standing =
      ⟨d.standing.loads + 1, some ⟨loaded.deviceType, d.standing.loads + 1, ∅⟩⟩ := rfl

theorem deviceType_of_load {loader : Loader W D} {loaded : LoadedDevice D}
    (h : loader.load P t w = (.ok loaded, w')) : loaded.deviceType = t := by
  unfold Loader.load Loader.loadModule at h
  split at h
  · split at h <;> cases h
    rfl
  · split at h
    · cases h
    · split at h
      · cases h
      · split at h <;> cases h
        rfl

/-! ### One errand -/

theorem standing_attend (h : d.Calm) (honce : d.TagsOnce) (e : Errand) (w : W) :
    (d.attend P e w).2.1.standing = d.standing.after (e, (d.attend P e w).1) ∧
      (d.attend P e w).2.1.TagsOnce := by
  cases e with
  | load t =>
    have hstanding := drainCurrent_standing (P := P) d w
    have hdrained := honce.drainCurrent (P := P) w
    have hend := loadEnd_attend (P := P) h t w
    generalize d.attend P (.load t) w = out at hend ⊢
    cases hend with
    | switched drain _ load =>
      rw [drain] at hstanding
      refine ⟨?_, ?_⟩
      · rw [standing_install, hstanding, deviceType_of_load load]
        rfl
      · rintro _ ⟨⟩
        exact List.nodup_nil
    | undrained drain => rw [drain] at hstanding hdrained; exact ⟨hstanding, hdrained⟩
    | refused drain => rw [drain] at hstanding hdrained; exact ⟨hstanding, hdrained⟩
    | unresolved drain => rw [drain] at hstanding hdrained; exact ⟨hstanding, hdrained⟩
  | visit v =>
    cases hslot : d.slot with
    | none =>
      rw [attend_noDevice hslot]
      exact ⟨by cases v <;> rfl, honce⟩
    | some a =>
      have hend := visitEnd_attend (P := P) hslot v w
      generalize d.attend P (.visit v) w = out at hend ⊢
      cases hend with
      | forwarded => exact ⟨standing_setSlot hslot _, honce.setSlot hslot _⟩
      | handedOut _ pin =>
        refine ⟨?_, ?_⟩
        · rw [standing_insert hslot, Standing.after, pin]
          rfl
        · rintro _ ⟨⟩
          exact (honce a hslot).insert
      | freed check =>
        obtain ⟨hpin, -⟩ := checkOwned_eq_ok_iff.mp check
        refine ⟨?_, ?_⟩
        · rw [standing_erase hslot (honce a hslot), Standing.after, hpin]
          rfl
        · rintro _ ⟨⟩
          exact (honce a hslot).erase _
      | disowned => exact ⟨rfl, honce⟩
      | _ => exact ⟨standing_setSlot hslot _, honce.setSlot hslot _⟩

/-! ### The next reply -/

theorem drainFailure?_eq (h : d.slot = some a) (t : String) (w : W) :
    (d.circumstances P w (.load t)).drainFailure? = match (d.drainCurrent P w).1 with
      | .ok () => none
      | .error e => some e := by
  simp only [drainCurrent, h, Activation.drain, circumstances, Circumstances.drainFailure?,
    Errand.request]
  split <;> simp_all

/-- The policy asks for the number of tags. -/
theorem checkOutstanding_eq (honce : a.locked.tags.Nodup) (policy : LockedBufferPolicy) :
    a.checkOutstanding policy =
      if policy = .refuse ∧ a.locked.tags.toFinset ≠ ∅ then
        .error (.outstanding a.locked.tags.toFinset.card)
      else .ok () := by
  rw [List.toFinset_card_of_nodup honce]
  cases policy <;> cases htags : a.locked.tags <;>
    simp [Activation.checkOutstanding, LockedSet.size, htags]

theorem checkOutstanding_drained (h : d.slot = some a) (w : W) :
    (d.drainCurrent P w).2.1.checkOutstanding = a.checkOutstanding d.policy := by
  simp only [drainCurrent, h, Activation.drain, checkOutstanding]
  rfl

/-- What a load is told once nothing hinders it. -/
theorem resolved_eq {d' : Dispatcher W D} {r : Except ResolutionError (LoadedDevice D)} {w'' : W}
    (drain : d.drainCurrent P w = (.ok (), d', w')) (load : d'.loader.load P t w' = (r, w'')) :
    Standing.resolved (d.circumstances P w (.load t)) = match r with
      | .error e => .error (.resolution e)
      | .ok _ => .ok .done := by
  have hloader := (drainCurrent_same (P := P) d w).1
  rw [drain] at hloader
  rw [hloader] at load
  simp only [Standing.resolved, circumstances, drain, load]
  cases r <;> rfl

theorem reply_load (h : d.Calm) (honce : d.TagsOnce) (t : String) (w : W) :
    (d.attend P (.load t) w).1 =
      d.standing.reply d.policy (d.circumstances P w (.load t)) (.load t) := by
  have hend := loadEnd_attend (P := P) h t w
  cases hslot : d.slot with
  | none =>
    have hnone : d.drainCurrent P w = (.ok (), d, w) := by simp only [drainCurrent, hslot]
    have hcheck : d.checkOutstanding = .ok () := by simp only [checkOutstanding, hslot]
    simp only [Standing.reply, standing, hslot, Option.map_none]
    generalize d.attend P (.load t) w = out at hend ⊢
    cases hend with
    | undrained drain => cases hnone.symm.trans drain
    | refused drain check =>
      cases hnone.symm.trans drain
      cases hcheck.symm.trans check
    | unresolved drain _ load => exact (resolved_eq drain load).symm
    | switched drain _ load => exact (resolved_eq drain load).symm
  | some a =>
    have hfailure := drainFailure?_eq (P := P) hslot t w
    have hcheck := (checkOutstanding_drained (P := P) hslot w).trans
      (checkOutstanding_eq (honce a hslot) d.policy)
    simp only [Standing.reply, standing, hslot, Option.map_some, Standing.replyToLoad]
    generalize d.attend P (.load t) w = out at hend ⊢
    by_cases hrefuse : d.policy = .refuse ∧ a.locked.tags.toFinset ≠ ∅
    · rw [if_pos hrefuse] at hcheck ⊢
      cases hend with
      | undrained drain => rw [hfailure, drain]
      | refused drain check =>
        rw [drain, check] at hcheck
        cases hcheck
        rw [hfailure, drain]
      | unresolved drain check =>
        rw [drain, check] at hcheck
        cases hcheck
      | switched drain check =>
        rw [drain, check] at hcheck
        cases hcheck
    · rw [if_neg hrefuse] at hcheck ⊢
      cases hend with
      | undrained drain => rw [hfailure, drain]
      | refused drain check =>
        rw [drain, check] at hcheck
        cases hcheck
      | unresolved drain _ load => rw [hfailure, drain, resolved_eq drain load]
      | switched drain _ load => rw [hfailure, drain, resolved_eq drain load]

theorem reply_visit (v : Visit) (w : W) :
    (d.attend P (.visit v) w).1 =
      d.standing.reply d.policy (d.circumstances P w (.visit v)) (.visit v) := by
  cases hslot : d.slot with
  | none =>
    rw [attend_noDevice hslot]
    simp only [Standing.reply, standing, hslot, Option.map_none]
  | some a =>
    have hend := visitEnd_attend (P := P) hslot v w
    simp only [Standing.reply, standing, hslot, Option.map_some, circumstances]
    generalize d.attend P (.visit v) w = out at hend ⊢
    cases hend with
    | forwarded serve => simp only [Standing.replyToVisit, Errand.request, serve]
    | withheld serve => simp only [Standing.replyToVisit, Errand.request, serve]
    | untagged serve pin =>
      simp only [Standing.replyToVisit, Errand.request, serve]
      split
      · cases ‹Except.ok _ = Except.error _›
      · rename_i b hb
        cases hb
        simp [Buffer.isLocked, pin b rfl]
      · rfl
    | handedOut serve pin =>
      simp [Standing.replyToVisit, Errand.request, serve, Buffer.isLocked, pin]
    | @disowned b e check =>
      simp only [Standing.replyToVisit]
      cases hpin : b.pin with
      | none => simpa [Activation.checkOwned, hpin, eq_comm] using check
      | some tag =>
        have hnot : tag ∉ a.locked.tags := fun htag => by
          have hok := checkOwned_eq_ok_iff.mpr ⟨hpin, List.contains_iff_mem.mpr htag⟩
          cases hok.symm.trans check
        simpa [Activation.checkOwned, LockedSet.contains, hpin, hnot, eq_comm] using check
    | @kept b tag e device w' check serve =>
      obtain ⟨hpin, htag⟩ := checkOwned_eq_ok_iff.mp check
      have hmem : tag ∈ a.locked.tags := List.contains_iff_mem.mp htag
      simp [Standing.replyToVisit, Errand.request, serve, hpin, hmem, Except.mapError, Except.map]
    | @freed b tag answer device w' check serve =>
      obtain ⟨hpin, htag⟩ := checkOwned_eq_ok_iff.mp check
      have hmem : tag ∈ a.locked.tags := List.contains_iff_mem.mp htag
      simp [Standing.replyToVisit, Errand.request, serve, hpin, hmem, Except.mapError, Except.map]

theorem drainCurrent_loader (d : Dispatcher W D) (loader : Loader W D) (w : W) :
    { d with loader }.drainCurrent P w =
      ((d.drainCurrent P w).1, { (d.drainCurrent P w).2.1 with loader },
        (d.drainCurrent P w).2.2) := by
  cases hslot : d.slot <;> simp only [drainCurrent, hslot]

/-- A load that is refused has waited, and has asked no loader. -/
theorem refused_load (h : d.Calm) {n : Nat}
    (hrefused : (d.attend P (.load t) w).1 = .error (.lifecycle (.outstanding n)))
    (loader : Loader W D) :
    ({ d with loader }.attend P (.load t) w).1 = .error (.lifecycle (.outstanding n)) ∧
      ({ d with loader }.attend P (.load t) w).2.2 = (d.forward P .wait w).2.2 := by
  have hwait := drainCurrent_eq_wait (P := P) d w
  have hdrain := drainCurrent_loader (P := P) d loader w
  have hend := loadEnd_attend (P := P) h t w
  generalize d.attend P (.load t) w = out at hend hrefused
  cases hend with
  | undrained => cases hrefused
  | unresolved => cases hrefused
  | switched => cases hrefused
  | @refused e d' w' drain check =>
    cases hrefused
    have hcheck : { d' with loader }.checkOutstanding = .error (.outstanding n) := check
    rw [drain] at hdrain hwait
    simp only [attend, load, hdrain, hcheck]
    exact ⟨rfl, congrArg Prod.snd hwait⟩

/-! ### Runs -/

/-- What a dispatcher shows now and after its next errand is what a standing
shows, under a loader and a policy. -/
structure Shows (P : Platform W D) (loader : Loader W D) (policy : LockedBufferPolicy)
    (d : Dispatcher W D) (w : W) (s : Standing) : Prop where
  loader : d.loader = loader
  observe : d.observe = s.observe
  reply : ∀ e, (d.attend P e w).1 = s.reply policy (d.circumstances P w e) e
  after : ∀ e, (d.attend P e w).2.1.observe = (s.after (e, (d.attend P e w).1)).observe
  /-- A load that is refused for the sake of locked buffers waits for the current
  device and asks no loader for anything. -/
  refused : ∀ t n, (d.attend P (.load t) w).1 = .error (.lifecycle (.outstanding n)) →
    ∀ loader, ({ d with loader }.attend P (.load t) w).1 = .error (.lifecycle (.outstanding n)) ∧
      ({ d with loader }.attend P (.load t) w).2.2 = (d.forward P .wait w).2.2

theorem standing_after (h : d.Calm) (honce : d.TagsOnce) (es : List Errand) (w : W) :
    (Dispatcher.after P es d w).1.standing =
        (transcript P es d w).foldl Standing.after d.standing ∧
      (Dispatcher.after P es d w).1.TagsOnce := by
  induction es generalizing d w with
  | nil => exact ⟨rfl, honce⟩
  | cons e es ih =>
    obtain ⟨hstanding, honce'⟩ := standing_attend (P := P) h honce e w
    have htail := ih (h.attend e w) honce' (d.attend P e w).2.2
    rw [hstanding] at htail
    exact htail

/-- A dispatcher that nothing was loaded into shows what the transcript of its
errands comes to, whatever its loader, its policy and the devices are. -/
theorem shows_standing (P : Platform W D) (loader : Loader W D) (policy : LockedBufferPolicy)
    (es : List Errand) (w : W) :
    Shows P loader policy (after P es { loader, policy } w).1 (after P es { loader, policy } w).2
      (Standing.ofTranscript (transcript P es { loader, policy } w)) := by
  have hstart : Calm { loader, policy } := calm_start loader policy
  obtain ⟨hloader, hpolicy⟩ := hstart.after_same (P := P) es w
  have hcalm := hstart.after (P := P) es w
  obtain ⟨hstanding, honce⟩ : (after P es { loader, policy } w).1.standing =
      Standing.ofTranscript (transcript P es { loader, policy } w) ∧
        (after P es { loader, policy } w).1.TagsOnce :=
    standing_after hstart nofun es w
  rw [← hstanding]
  generalize after P es { loader, policy } w = run at *
  obtain ⟨d, w'⟩ := run
  refine ⟨hloader, observe_eq honce, fun e => ?_, fun e => ?_, fun t n hrefused loader' =>
    refused_load hcalm hrefused loader'⟩
  · rw [show policy = d.policy from hpolicy.symm]
    cases e with
    | load t => exact reply_load hcalm honce t w'
    | visit v => exact reply_visit v w'
  · obtain ⟨hafter, honce'⟩ := standing_attend (P := P) hcalm honce e w'
    rw [observe_eq honce', hafter]

end Dispatcher
end BlockTransfer
