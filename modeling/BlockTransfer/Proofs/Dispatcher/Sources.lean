import BlockTransfer.Proofs.Dispatcher.Custody
import Mathlib
/-!
# Devices of one source

A device's code is the program's own or that of a library copy, and each of them
numbers the pools of its devices in order. So as long as all devices come from
one source (`Custody.OneSource`), no tag is handed out twice, whatever else is
opened and fails to load in between (`Custody.tagsDistinct_of_oneSource`).

The devices of two copies may hand out the same tag, and then a buffer that is
long gone is taken for a live one (`Custody.not_guarded_two_copies`).

Key definitions: `Custody.OneSource`, `Custody.Numbered`.
Key theorems: `Custody.tagsDistinct_of_oneSource`, `Custody.custody_by_tags`.
-/

namespace BlockTransfer

open Switching (Errand Visit Reply)

/-- The pool number that the next device of a source gets. -/
def World.nextPoolOf (w : World) : Option Nat → Nat
  | none => w.nextPool
  | some library => w.libraries.nextPool library

/-- Whether the source's code is there. -/
def World.HasSource (w : World) : Option Nat → Prop
  | none => True
  | some library => w.libraries.Has library

/-! ### What requests leave alone -/

namespace Device

/-- The pool of a posix device. -/
def pool? : Device → Option LockedPool
  | posix p => some p.pool
  | _ => none

variable {device : Device} {w : World} {source : Option Nat}

/-- A pool keeps its number and uses its numbers up. -/
theorem pool?_serve {r : Request} {p' : LockedPool} (h : (serve r device w).2.1.pool? = some p') :
    ∃ p, device.pool? = some p ∧ p'.number = p.number ∧ p.nextId ≤ p'.nextId := by
  cases device with
  | bare | probe => cases h
  | posix p =>
    obtain rfl : (p.serve w.storage r).2.1.pool = p' := Option.some.inj h
    refine ⟨p.pool, rfl, ?_⟩
    obtain heq | ⟨count, like, rfl⟩ | ⟨b, rfl⟩ := p.pool_serve w.storage r
    · rw [heq]
      exact ⟨rfl, Nat.le_refl _⟩
    · obtain ⟨e, heq⟩ | ⟨b, s', -, heq⟩ := p.serve_newLocked w.storage count like <;> rw [heq] <;>
        exact ⟨rfl, Nat.le_succ _⟩
    · simp only [PosixDevice.serve]
      split
      · exact ⟨rfl, Nat.le_refl _⟩
      · rename_i pool hrelease
        obtain ⟨hnumber, hnext⟩ := LockedPool.release_counters hrelease
        exact ⟨hnumber, hnext.ge⟩

/-- A locked buffer gets the next tag of the pool, and uses it up. -/
theorem pool?_newLocked {p : PosixDevice} {count : Nat} {like b : Buffer} {device' : Device}
    {w' : World} (h : serve (.newLocked count like) (posix p) w = (.ok (.buffer b), device', w')) :
    b.pin = some p.pool.nextTag ∧ ∃ p', device'.pool? = some p' ∧ p'.number = p.pool.number ∧
      p'.nextId = p.pool.nextId + 1 := by
  obtain ⟨e, heq⟩ | ⟨b', s', hpin, heq⟩ := p.serve_newLocked w.storage count like
  · cases h.symm.trans (serve_posix heq)
  · cases h.symm.trans (serve_posix heq)
    exact ⟨hpin, _, rfl, rfl, rfl⟩

end Device

theorem Registry.OnlyPosix.traceless {r : Registry World Device} (h : r.OnlyPosix) :
    r.Traceless := by
  intro t create hget
  rw [h t create hget]
  exact Device.traceless_createPosix

namespace Custody

section Runs

variable {d d' : Dispatcher World Device} {w w' : World} {bs : List Buffer} {source : Option Nat}
  {a : Activation Device} {loader : Loader World Device} {policy : LockedBufferPolicy}
  {es : List Errand}

/-- The devices that a run makes active all come from one source. -/
def OneSource (es : List Errand) (d : Dispatcher World Device) (w : World) : Prop :=
  ∃ source, ∀ es', es' <+: es → ∀ a, (d.after Device.platform es' w).1.slot = some a →
    a.loaded.origin.source = source

/-- The buffers handed out have tags from pools that the source has numbered,
and within the active pool from numbers that it has used up. -/
structure Numbered (source : Option Nat) (d : Dispatcher World Device) (w : World)
    (bs : List Buffer) : Prop where
  libraries : w.libraries.Sound
  idle : d.slot = none → bs = []
  present : ∀ a, d.slot = some a → w.HasSource source
  active : ∀ a p, d.slot = some a → a.loaded.device.pool? = some p →
    p.number < w.nextPoolOf source
  earlier : ∀ b ∈ bs, ∀ tag, b.pin = some tag → tag.pool < w.nextPoolOf source
  ids : ∀ a p, d.slot = some a → a.loaded.device.pool? = some p →
    ∀ b ∈ bs, ∀ tag, b.pin = some tag → tag.pool = p.number → tag.id < p.nextId

/-- The active device answered, and handed out nothing. -/
theorem Numbered.serve (h : Numbered source d w bs) (hslot : d.slot = some a)
    {a' : Activation Device} {r : Request}
    (ha' : a'.loaded.device = (Device.serve r a.loaded.device w).2.1)
    (hw' : w' = (Device.serve r a.loaded.device w).2.2) : Numbered source (d.setSlot a') w' bs := by
  obtain ⟨hlibraries, hnext⟩ := Device.serve_counters r a.loaded.device w
  rw [← hw'] at hlibraries hnext
  have hpool : w'.nextPoolOf source = w.nextPoolOf source := by
    cases source <;> simp only [World.nextPoolOf, hlibraries, hnext]
  refine
    { libraries := ?libraries, idle := nofun, present := ?present, active := ?active,
      earlier := ?earlier, ids := ?ids }
  case libraries =>
    rw [hlibraries]
    exact h.libraries
  case present =>
    have hpresent := h.present a hslot
    cases source with
    | none => exact fun _ _ => trivial
    | some library =>
      intro _ _
      show w'.libraries.Has library
      rwa [hlibraries]
  case active =>
    rintro _ p' ⟨⟩ hp'
    rw [ha'] at hp'
    obtain ⟨p, hp, hnumber, -⟩ := Device.pool?_serve hp'
    rw [hnumber, hpool]
    exact h.active a p hslot hp
  case earlier =>
    rw [hpool]
    exact h.earlier
  case ids =>
    rintro _ p' ⟨⟩ hp' b hb tag htag hsame
    rw [ha'] at hp'
    obtain ⟨p, hp, hnumber, hle⟩ := Device.pool?_serve hp'
    exact (h.ids a p hslot hp b hb tag htag (hsame.trans hnumber)).trans_le hle

/-- The active device handed out a buffer. -/
theorem Numbered.newLocked (h : Numbered source d w bs) (hslot : d.slot = some a)
    (hbooked : a.Booked) {count : Nat} {like b : Buffer} {device : Device}
    (hserve : Device.serve (.newLocked count like) a.loaded.device w =
      (.ok (.buffer b), device, w')) (a' : Activation Device) (ha' : a'.loaded.device = device) :
    (∀ b' ∈ bs, b'.pin ≠ b.pin) ∧ Numbered source (d.setSlot a') w' (bs ++ [b]) := by
  cases hbooked with
  | bare hdevice =>
    rw [hdevice] at hserve
    cases hserve
  | @posix p hdevice =>
    have hkept : Numbered source (d.setSlot a') w' bs :=
      h.serve hslot (r := .newLocked count like) (by rw [ha', hserve]) (by rw [hserve])
    have hpool : a.loaded.device.pool? = some p.pool := by rw [hdevice]; rfl
    rw [hdevice] at hserve
    obtain ⟨hpin, p', hp', hnumber, hnext⟩ := Device.pool?_newLocked hserve
    rw [← ha'] at hp'
    refine ⟨fun b' hb' hsame => ?_, ?_⟩
    · have hid := h.ids a p.pool hslot hpool b' hb' _ (hsame.trans hpin) rfl
      exact Nat.lt_irrefl _ hid
    · have hactive := hkept.active a' p' rfl hp'
      refine
        { libraries := hkept.libraries, idle := nofun, present := hkept.present,
          active := hkept.active, earlier := ?earlier, ids := ?ids }
      case earlier =>
        intro b' hb' tag htag
        rcases List.mem_append.mp hb' with hb' | hb'
        · exact hkept.earlier b' hb' tag htag
        · cases List.mem_singleton.mp hb'
          cases htag.symm.trans hpin
          rw [hnumber] at hactive
          exact hactive
      case ids =>
        rintro _ p'' ⟨⟩ hp'' b' hb' tag htag hsame
        cases hp'.symm.trans hp''
        rcases List.mem_append.mp hb' with hb' | hb'
        · exact hkept.ids a' p' rfl hp' b' hb' tag htag hsame
        · cases List.mem_singleton.mp hb'
          cases htag.symm.trans hpin
          rw [hnext]
          exact Nat.lt_succ_self _

/-- A wait turns to no counter. -/
theorem Numbered.drainCurrent (h : Numbered source d w bs)
    (hdrain : (d.drainCurrent Device.platform w).2 = (d', w')) : Numbered source d' w' bs := by
  rw [Dispatcher.drainCurrent_eq_wait, Dispatcher.forward] at hdrain
  cases hslot : d.slot with
  | none =>
    rw [Dispatcher.serveActive, hslot] at hdrain
    cases hdrain
    exact h
  | some a =>
    rw [Dispatcher.serveActive_eq hslot rfl] at hdrain
    cases hdrain
    exact h.serve hslot rfl rfl

/-- A load that fails turns to no counter. -/
theorem Numbered.failed (h : Numbered source d w bs)
    (hw : w' = w ∨ w' = Device.skipLibrary w) : Numbered source d w' bs := by
  rcases hw with rfl | rfl
  · exact h
  · have hpool : (Device.skipLibrary w).nextPoolOf source = w.nextPoolOf source := by
      cases source <;> rfl
    refine
      { libraries := h.libraries.skip, idle := h.idle, present := ?present, active := ?active,
        earlier := ?earlier, ids := h.ids }
    case present =>
      intro a ha
      have hpresent := h.present a ha
      cases source with
      | none => trivial
      | some library => exact hpresent
    case active =>
      rw [hpool]
      exact h.active
    case earlier =>
      rw [hpool]
      exact h.earlier

/-- A device takes over whose pool has a number that no earlier pool had. -/
theorem Numbered.install (h : Numbered source d w bs) {loaded : LoadedDevice Device} {v : World}
    (hsound : v.libraries.Sound) (hpresent : v.HasSource source)
    (hpool : ∀ p, loaded.device.pool? = some p → p.number < v.nextPoolOf source ∧
      ∀ a, d.slot = some a → w.nextPoolOf source ≤ p.number)
    (hle : ∀ a, d.slot = some a → w.nextPoolOf source ≤ v.nextPoolOf source) :
    Numbered source (d.install loaded) v bs := by
  have hactive : ∀ b ∈ bs, ∃ a, d.slot = some a := fun b hb => by
    cases hslot : d.slot with
    | some a => exact ⟨a, rfl⟩
    | none =>
      rw [h.idle hslot] at hb
      cases hb
  refine
    { libraries := hsound, idle := by rintro ⟨⟩, present := fun _ _ => hpresent,
      active := ?active, earlier := ?earlier, ids := ?ids }
  case active =>
    rintro _ p ⟨⟩ hp
    exact (hpool p hp).1
  case earlier =>
    intro b hb tag htag
    obtain ⟨a, ha⟩ := hactive b hb
    exact (h.earlier b hb tag htag).trans_le (hle a ha)
  case ids =>
    -- No buffer that is out has a tag of the new pool.
    rintro _ p ⟨⟩ hp b hb tag htag hsame
    obtain ⟨a, ha⟩ := hactive b hb
    have hlt := h.earlier b hb tag htag
    have hle' := (hpool p hp).2 a ha
    omega

/-- What is left of the world once the active device is given up, if it is of that
source: nothing but the copy's holder is gone. -/
structure Closed (source : Option Nat) (d : Dispatcher World Device) (w v : World) : Prop where
  nobody : d.slot = none → v = w
  counters : ∀ a, d.slot = some a → v.nextPool = w.nextPool ∧
    v.libraries = match source with
      | none => w.libraries
      | some library => w.libraries.close library

theorem closed_close (hold : ∀ a, d.slot = some a → a.loaded.origin.source = source) (w : World) :
    Closed source d w (d.close Device.platform w) where
  nobody hslot := by rw [Dispatcher.close, hslot]
  counters a hslot := hold a hslot ▸ Device.close_counters hslot w

section Switched

variable {v : World} {t : String} {c : LibraryCopy} {libraries : Libraries} {p : PosixDevice}

/-- A builtin device takes over from another one. -/
theorem Numbered.switched_builtin (h : Numbered none d w bs) {settings : DeviceSettings}
    {device : Device} (make : Device.createPosix settings w = (.ok device, w'))
    (hv : Closed none d w' v) : Numbered none (d.install ⟨device, t, .builtin⟩) v bs := by
  unfold Device.createPosix at make
  split at make <;> cases make
  rename_i p hcreate
  have hsame : v.nextPool = w.nextPool + 1 ∧ v.libraries = w.libraries := by
    cases hslot : d.slot with
    | none =>
      rw [hv.nobody hslot]
      exact ⟨rfl, rfl⟩
    | some a => exact hv.counters a hslot
  obtain ⟨hnext, hlibraries⟩ := hsame
  refine h.install (hlibraries ▸ h.libraries) trivial ?_ fun _ _ => ?_
  · rintro _ ⟨⟩
    rw [(PosixDevice.eq_of_create hcreate).2]
    show w.nextPool < v.nextPool ∧ ∀ a, d.slot = some a → w.nextPool ≤ w.nextPool
    rw [hnext]
    exact ⟨Nat.lt_succ_self _, fun _ _ => Nat.le_refl _⟩
  · show w.nextPool ≤ v.nextPool
    rw [hnext]
    exact Nat.le_succ _

/-- A device without pools takes over in a copy of a library. -/
theorem Numbered.switched_bare (h : Numbered (some c.number) d w bs)
    (opened : w.libraries.Opened c libraries)
    (hv : Closed (some c.number) d { w with libraries } v) :
    Numbered (some c.number)
      (d.install ⟨.bare "bare", t, .module (loader.modulePath t) c.number⟩) v bs := by
  cases hslot : d.slot with
  | none =>
    rw [hv.nobody hslot]
    exact h.install (h.libraries.opened opened) opened.has (by rintro _ ⟨⟩) (by simp [hslot])
  | some a =>
    have hpresent : w.libraries.Has c.number := h.present a hslot
    have hlibraries : v.libraries = w.libraries :=
      (hv.counters a hslot).2.trans (opened.close h.libraries hpresent)
    refine h.install (hlibraries ▸ h.libraries) ?_ (by rintro _ ⟨⟩) fun _ _ => ?_
    · show v.libraries.Has c.number
      rwa [hlibraries]
    · show w.libraries.nextPool c.number ≤ v.libraries.nextPool c.number
      rw [hlibraries]

/-- A device takes over whose pool has the next number of its copy. -/
theorem Numbered.switched_posix (h : Numbered (some c.number) d w bs)
    (opened : w.libraries.Opened c libraries)
    (hnumber : p.pool.number = libraries.nextPool c.number)
    (hv : Closed (some c.number) d { w with libraries := libraries.usePool c.number } v) :
    Numbered (some c.number)
      (d.install ⟨.posix p, t, .module (loader.modulePath t) c.number⟩) v bs := by
  cases hslot : d.slot with
  | none =>
    rw [hv.nobody hslot]
    refine h.install ((h.libraries.opened opened).usePool _)
      (Libraries.has_usePool.mpr opened.has) ?_ (by simp [hslot])
    rintro _ ⟨⟩
    refine ⟨?_, by simp [hslot]⟩
    show p.pool.number < (libraries.usePool c.number).nextPool c.number
    rw [hnumber, Libraries.nextPool_usePool opened.has]
    exact Nat.lt_succ_self _
  | some a =>
    have hpresent : w.libraries.Has c.number := h.present a hslot
    have hlibraries : v.libraries = w.libraries.usePool c.number := by
      rw [(hv.counters a hslot).2]
      show (libraries.usePool c.number).close c.number = _
      rw [Libraries.close_usePool, opened.close h.libraries hpresent]
    have hnext : v.libraries.nextPool c.number = w.libraries.nextPool c.number + 1 := by
      rw [hlibraries, Libraries.nextPool_usePool hpresent]
    rw [opened.nextPool h.libraries hpresent] at hnumber
    refine h.install (hlibraries ▸ h.libraries.usePool _) ?_ ?_ fun _ _ => ?_
    · show v.libraries.Has c.number
      rw [hlibraries]
      exact Libraries.has_usePool.mpr hpresent
    · rintro _ ⟨⟩
      show p.pool.number < v.libraries.nextPool c.number ∧
        ∀ a', d.slot = some a' → w.libraries.nextPool c.number ≤ p.pool.number
      rw [hnext, hnumber]
      exact ⟨Nat.lt_succ_self _, fun _ _ => Nat.le_refl _⟩
    · show w.libraries.nextPool c.number ≤ v.libraries.nextPool c.number
      rw [hnext]
      exact Nat.le_succ _

end Switched

/-- A device of the source takes over. It gets the source's next pool number. -/
theorem Numbered.switched (h : Numbered source d w bs) (hr : loader.registry.OnlyPosix) {t : String}
    {loaded : LoadedDevice Device} (hload : Device.Loaded loader t w loaded w')
    (hsource : loaded.origin.source = source)
    (hold : ∀ a, d.slot = some a → a.loaded.origin.source = source) :
    Numbered source (d.install loaded) (d.close Device.platform w') bs := by
  have hclosed := closed_close hold w'
  subst hsource
  cases hload with
  | builtin get make =>
    cases hr _ _ get
    exact h.switched_builtin make hclosed
  | bare opened => exact h.switched_bare opened hclosed
  | posix opened make =>
    have hpool := congrArg (·.pool.number) (PosixDevice.eq_of_create make).2
    exact h.switched_posix opened hpool hclosed

/-! ### Runs -/

/-- An errand that hands out nothing leaves the buffers as they are. -/
theorem Numbered.unchanged {er : Errand × Reply} (h : Numbered source d w bs)
    (hnone : handedOut? er = none) :
    (∀ b, handedOut? er = some b → ∀ b' ∈ bs, b'.pin ≠ b.pin) ∧
      Numbered source d w (bs ++ (handedOut? er).toList) := by
  rw [hnone, Option.toList_none, List.append_nil]
  exact ⟨by rintro _ ⟨⟩, h⟩

theorem numbered_attend (h : Numbered source d w bs) (hcalm : d.Calm) (hbooked : d.Booked)
    (hr : d.loader.registry.OnlyPosix) (e : Errand)
    (hold : ∀ a, d.slot = some a → a.loaded.origin.source = source)
    (hnew : ∀ a, (d.attend Device.platform e w).2.1.slot = some a →
      a.loaded.origin.source = source) :
    (∀ b, handedOut? (e, (d.attend Device.platform e w).1) = some b → ∀ b' ∈ bs, b'.pin ≠ b.pin) ∧
      Numbered source (d.attend Device.platform e w).2.1 (d.attend Device.platform e w).2.2
        (bs ++ (handedOut? (e, (d.attend Device.platform e w).1)).toList) := by
  cases e with
  | load t =>
    have hend := d.loadEnd_attend (P := Device.platform) hcalm t w
    have hloader := (Dispatcher.drainCurrent_same (P := Device.platform) d w).1
    generalize d.attend Device.platform (.load t) w = out at hend hnew ⊢
    refine Numbered.unchanged ?_ rfl
    cases hend with
    | undrained drain => exact h.drainCurrent (congrArg Prod.snd drain)
    | refused drain => exact h.drainCurrent (congrArg Prod.snd drain)
    | unresolved drain _ load =>
      have hdrained := h.drainCurrent (congrArg Prod.snd drain)
      rw [drain] at hloader
      exact hdrained.failed (Device.load_error (hloader ▸ hr.traceless) hdrained.libraries load)
    | switched drain _ load =>
      have hdrained := h.drainCurrent (congrArg Prod.snd drain)
      rw [drain] at hloader
      refine hdrained.switched (hloader ▸ hr) (Device.loaded_load load) (hnew _ rfl) ?_
      obtain ⟨-, heq⟩ | ⟨a, device, hslot, heq⟩ :=
        Dispatcher.drainCurrent_slot (P := Device.platform) d w <;> rw [drain] at heq <;>
        cases heq
      · exact hold
      · rintro _ ⟨⟩
        exact hold a hslot
  | visit v =>
    cases hslot : d.slot with
    | none =>
      rw [Dispatcher.attend_noDevice hslot]
      cases v <;> exact h.unchanged rfl
    | some a =>
      have hend := Dispatcher.bookedEnd_attend (hbooked a hslot) hslot v w
      generalize d.attend Device.platform (.visit v) w = out at hend ⊢
      cases hend with
      | @handedOut _ _ _ tag device _ serve =>
        obtain ⟨hfresh, hnumbered⟩ := h.newLocked hslot (hbooked a hslot) serve
          ((a.setDevice device).mapLocked (·.insert tag)) rfl
        refine ⟨?_, hnumbered⟩
        rintro _ ⟨⟩
        exact hfresh
      | forwarded serve =>
        refine Numbered.unchanged ?_ rfl
        exact h.serve hslot (congrArg (·.2.1) serve).symm (congrArg (·.2.2) serve).symm
      | withheld serve =>
        refine Numbered.unchanged ?_ rfl
        exact h.serve hslot (congrArg (·.2.1) serve).symm (congrArg (·.2.2) serve).symm
      | freed _ serve =>
        refine Numbered.unchanged ?_ rfl
        exact h.serve hslot (congrArg (·.2.1) serve).symm (congrArg (·.2.2) serve).symm
      | disowned => exact h.unchanged rfl

/-- Devices of one source hand out no tag twice. -/
theorem tagsDistinct_of_oneSource (hr : loader.registry.OnlyPosix) (hw : w.libraries.Sound)
    (h : OneSource es { loader, policy } w) :
    TagsDistinct (Dispatcher.transcript Device.platform es { loader, policy } w) := by
  obtain ⟨source, hsource⟩ := h
  suffices TagsDistinct (Dispatcher.transcript Device.platform es { loader, policy } w) ∧
      Numbered source (Dispatcher.after Device.platform es { loader, policy } w).1
        (Dispatcher.after Device.platform es { loader, policy } w).2
        (handedOut (Dispatcher.transcript Device.platform es { loader, policy } w)) from this.1
  induction es using List.reverseRecOn with
  | nil => exact ⟨List.nodup_nil, hw, fun _ => rfl, nofun, nofun, nofun, nofun⟩
  | append_singleton es e ih =>
    have hprefix : es <+: es ++ [e] := List.prefix_append ..
    obtain ⟨hdistinct, hnumbered⟩ := ih fun es' hes' => hsource es' (hes'.trans hprefix)
    have hcalm : Dispatcher.Calm { loader, policy } := Dispatcher.calm_start loader policy
    have hloader := (hcalm.after_same (P := Device.platform) es w).1
    have hlast := hsource (es ++ [e]) (List.prefix_refl _)
    rw [Dispatcher.after_append] at hlast
    obtain ⟨hfresh, hnumbered'⟩ := numbered_attend hnumbered (hcalm.after es w)
      (booked_after hr policy es w).1 (hloader ▸ hr) e (hsource es hprefix) hlast
    rw [transcript_concat, tagsDistinct_concat, handedOut_concat, Dispatcher.after_append]
    exact ⟨⟨hdistinct, hfresh⟩, hnumbered'⟩

/-- What tags come to in the course of a run: they alone decide which buffers can
be freed; the custody is kept throughout exactly if no tag is handed out twice;
and it is kept if all devices come from one source. -/
structure ByTags (es : List Errand) (d : Dispatcher World Device) (w : World) : Prop where
  frees : ∀ es', es' <+: es → (d.after Device.platform es' w).1.FreesByTag
    (d.after Device.platform es' w).2 (standing es' d w)
  guarded_iff : (∀ es', es' <+: es →
      Guarded (d.after Device.platform es' w) (ofErrands es' d w)) ↔
    TagsDistinct (d.transcript Device.platform es w)
  guarded : OneSource es d w →
    ∀ es', es' <+: es → Guarded (d.after Device.platform es' w) (ofErrands es' d w)

theorem custody_by_tags (hr : loader.registry.OnlyPosix) (hw : w.libraries.Sound)
    (honest : Honest es { loader, policy } w) : ByTags es { loader, policy } w where
  frees es' _ := freesByTag_after hr policy es' w
  guarded_iff := guarded_iff hr honest
  guarded h := (guarded_iff hr honest).mpr (tagsDistinct_of_oneSource hr hw h)

end Runs

/-! ### Two copies

Two modules of the posix backend both number pools from 1. -/

namespace TwoCopies

/-- A library with the posix backend. -/
def image : ModuleImage := ⟨some ⟨1, "0.3.0", .posix⟩⟩

/-- The library stands in the plugins root under the names of two types. -/
def files : FileSystem :=
  { entries := [(["plugins"], .directory), (["plugins", "px_op.so"], .file image.encode),
      (["plugins", "py_op.so"], .file image.encode)] }

def world : World := { storage := { files }, nextPool := 1 }

def loader : Loader World Device :=
  { root := "/plugins"
    registry := Device.registry
    settings := {} }

def dispatcher : Dispatcher World Device := { loader, policy := .warn }

/-- An ordinary buffer of bytes. -/
def like : Buffer := ⟨0, .u8, 0, none⟩

/-- The first buffer of the first module's device. -/
def earlier : Buffer := ⟨0, .u8, 4, some ⟨1, 1⟩⟩

/-- The first buffer of the second module's device. -/
def later : Buffer := ⟨1, .u8, 4, some ⟨1, 1⟩⟩

/-- A locked buffer from the first module, a switch to the second, and a locked
buffer from there. -/
def errands : List Errand :=
  [.load "px", .visit (.newLocked 4 like), .load "py", .visit (.newLocked 4 like)]

theorem onlyPosix : loader.registry.OnlyPosix := fun _ _ => Device.create_of_registry

/-- Splitting a text in a bounded number of steps. -/
def splitWithin (s sep : String) :
    Nat → String.Pos.Raw → String.Pos.Raw → String.Pos.Raw → List String → Option (List String)
  | 0, _, _, _, _ => none
  | n + 1, b, i, j, r =>
    if i.atEnd s then some ((b.extract s i :: r).reverse)
    else if i.get s == j.get sep then
      if (j.next sep).atEnd sep then
        splitWithin s sep n (i.next s) (i.next s) 0
          (b.extract s ((i.next s).unoffsetBy (j.next sep)) :: r)
      else splitWithin s sep n b (i.next s) (j.next sep) r
    else splitWithin s sep n b ((i.unoffsetBy j).next s) 0 r

theorem splitOnAux_eq {s sep : String} {n : Nat} {b i j : String.Pos.Raw} {r out : List String}
    (h : splitWithin s sep n b i j r = some out) : String.splitOnAux s sep b i j r = out := by
  induction n generalizing b i j r with
  | zero => cases h
  | succ n ih =>
    unfold splitWithin at h
    unfold String.splitOnAux
    split at h
    · rw [if_pos ‹_›]
      exact Option.some.inj h
    rw [if_neg ‹_›]
    split at h
    · rw [if_pos ‹_›]
      split at h
      · rw [if_pos ‹_›]
        exact ih h
      · rw [if_neg ‹_›]
        exact ih h
    · rw [if_neg ‹_›]
      exact ih h

/-- The library is read back from its file. -/
theorem decode_image : ModuleImage.decode? image.encode = some image := by
  have htext : String.fromUTF8? ⟨image.encode.toArray⟩ =
      some "loadable device module\n1\n0.3.0\nposix" := by decide +kernel
  have hlines : splitWithin "loadable device module\n1\n0.3.0\nposix" "\n" 40 0 0 0 [] =
      some ["loadable device module", "1", "0.3.0", "posix"] := by decide +kernel
  have himage : ModuleImage.ofLines? ["loadable device module", "1", "0.3.0", "posix"] =
      some image := by cbv
  rw [ModuleImage.decode?, htext]
  show ModuleImage.ofLines? (String.splitOnAux _ "\n" 0 0 0 []) = some image
  rw [splitOnAux_eq hlines, himage]

/-- A module's copy of the library, while its device is active. -/
def copy (number : Nat) (name : String) : LibraryCopy where
  number := number
  path := "/plugins/" ++ name
  file := ["plugins", name]
  image := image
  holders := 1
  nextPool := 2

/-- What loading the first module leaves of the libraries, and loading the second. -/
def firstOpen : Libraries := ⟨[copy 0 "px_op.so"], 1⟩

def bothOpen : Libraries := ⟨[copy 0 "px_op.so", copy 1 "py_op.so"], 2⟩

/-- A posix device with the first pool number. -/
def device (t path : String) (library : Nat) : LoadedDevice Device :=
  ⟨.posix ⟨{}, .idle {}, ⟨1, 1, []⟩⟩, t, .module path library⟩

theorem load_first : loader.load Device.platform "px" world =
    (.ok (device "px" "/plugins/px_op.so" 0), { world with libraries := firstOpen }) := by
  have hpath : loader.modulePath "px" = "/plugins/px_op.so" := by decide +kernel
  have hread : files.openRead "/plugins/px_op.so" = .ok ⟨["plugins", "px_op.so"]⟩ := by
    decide +kernel
  have hopen : Libraries.openPath {} {} files "/plugins/px_op.so" = .ok _ :=
    Libraries.openPath_new rfl (by decide +kernel) (by decide +kernel) hread rfl decode_image
  have hget : loader.registry.get? "px" = none := rfl
  simp only [Loader.load, hget, hpath, Loader.loadModule, Device.platform, Device.openLibrary,
    world, hopen]
  rfl

/-- The second module is another file, so it is another copy. -/
theorem load_second {w : World} (hfiles : w.storage.files = files)
    (hlibraries : w.libraries = firstOpen) (hhost : w.host = {}) :
    loader.load Device.platform "py" w =
      (.ok (device "py" "/plugins/py_op.so" 1), { w with libraries := bothOpen }) := by
  have hpath : loader.modulePath "py" = "/plugins/py_op.so" := by decide +kernel
  have hread : files.openRead "/plugins/py_op.so" = .ok ⟨["plugins", "py_op.so"]⟩ := by
    decide +kernel
  have hopen : firstOpen.openPath {} files "/plugins/py_op.so" = .ok _ :=
    Libraries.openPath_new (by decide +kernel) (by decide +kernel) (by decide +kernel) hread
      (by decide +kernel) decode_image
  have hget : loader.registry.get? "py" = none := rfl
  obtain ⟨⟨fs, memory⟩, libraries, nextPool, board, host⟩ := w
  obtain rfl : fs = files := hfiles
  obtain rfl : libraries = firstOpen := hlibraries
  obtain rfl : host = {} := hhost
  simp only [Loader.load, hget, hpath, Loader.loadModule, Device.platform, Device.openLibrary,
    hopen]
  rfl

/-- The first module's device is active, and its first buffer is handed out. -/
def before : Dispatcher World Device × World :=
  Dispatcher.after Device.platform [.visit (.newLocked 4 like)]
    (dispatcher.install (device "px" "/plugins/px_op.so" 0)) { world with libraries := firstOpen }

theorem attend_load_first : dispatcher.attend Device.platform (.load "px") world =
    (.ok .done, dispatcher.install (device "px" "/plugins/px_op.so" 0),
      { world with libraries := firstOpen }) := by
  have hdrain : dispatcher.drainCurrent Device.platform world = (.ok (), dispatcher, world) := rfl
  have hcheck : dispatcher.checkOutstanding = .ok () := rfl
  have hload : dispatcher.loader.load Device.platform "px" world = _ := load_first
  simp only [Dispatcher.attend, Dispatcher.load, hdrain, hcheck, hload]
  rfl

/-- The switch to the second module. -/
theorem attend_load_second : before.1.attend Device.platform (.load "py") before.2 =
    (.ok .done, before.1.install (device "py" "/plugins/py_op.so" 1),
      before.1.close Device.platform { before.2 with libraries := bothOpen }) := by
  have hcalm : before.1.Calm := ((Dispatcher.calm_start loader .warn).install _).after _ _
  have hdrain : before.1.drainCurrent Device.platform before.2 = (.ok (), before) := rfl
  have hcheck : before.1.checkOutstanding = .ok () := rfl
  have hload : before.1.loader.load Device.platform "py" before.2 = _ := load_second rfl rfl rfl
  simp only [Dispatcher.attend, Dispatcher.load, hdrain, hcheck, hload, hcalm.activate]
  rfl

theorem attendAll_errands (es : List Errand) :
    Dispatcher.attendAll Device.platform (errands ++ es) dispatcher world =
      let rest := Dispatcher.attendAll Device.platform (.visit (.newLocked 4 like) :: es)
        (before.1.install (device "py" "/plugins/py_op.so" 1))
        (before.1.close Device.platform { before.2 with libraries := bothOpen })
      (.ok .done :: .ok (.buffer earlier) :: .ok .done :: rest.1, rest.2) := by
  have hbefore : (dispatcher.install (device "px" "/plugins/px_op.so" 0)).attend Device.platform
      (.visit (.newLocked 4 like)) { world with libraries := firstOpen } =
        (.ok (.buffer earlier), before) := rfl
  rw [show errands ++ es =
      .load "px" :: .visit (.newLocked 4 like) :: .load "py" :: .visit (.newLocked 4 like) :: es
      from rfl,
    Dispatcher.attendAll_cons, attend_load_first, Dispatcher.attendAll_cons, hbefore,
    Dispatcher.attendAll_cons, attend_load_second]

end TwoCopies

open TwoCopies

/-- After the switch the earlier buffer is gone and the later one is live, but
freeing the earlier one succeeds, and the later one cannot be freed any more. -/
theorem not_guarded_two_copies :
    ofErrands errands dispatcher world = ⟨[later], [earlier]⟩ ∧
      (Dispatcher.attendAll Device.platform
          (errands ++ [.visit (.freeLocked earlier), .visit (.freeLocked later)])
          dispatcher world).1 =
        [.ok .done, .ok (.buffer earlier), .ok .done, .ok (.buffer later), .ok .done,
          .error (.lifecycle (.unknown 1))] ∧
      ¬ Guarded (Dispatcher.after Device.platform errands dispatcher world)
        (ofErrands errands dispatcher world) := by
  have hrun := attendAll_errands []
  rw [List.append_nil] at hrun
  have hcustody : ofErrands errands dispatcher world = ⟨[later], [earlier]⟩ := by
    rw [ofErrands, Dispatcher.transcript, hrun]
    rfl
  refine ⟨hcustody, ?_, fun h => ?_⟩
  · rw [attendAll_errands]
    rfl
  · rw [hcustody] at h
    obtain ⟨tag, -, hrefused⟩ := h.gone earlier (List.mem_singleton_self _)
    rw [Dispatcher.after, hrun] at hrefused
    cases congrArg Prod.fst hrefused

theorem custody_by_tags_two_copies :
    loader.registry.OnlyPosix ∧ world.libraries.Sound ∧
      Honest (errands ++ [.visit (.freeLocked earlier)]) dispatcher world ∧
      ByTags (errands ++ [.visit (.freeLocked earlier)]) dispatcher world := by
  have honest : Honest (errands ++ [.visit (.freeLocked earlier)]) dispatcher world := by
    rintro es' b ⟨rest, h⟩
    obtain ⟨rfl, rfl⟩ : es' = errands ∧ b = earlier := by
      rcases es' with _ | ⟨_, _ | ⟨_, _ | ⟨_, _ | ⟨_, _ | _⟩⟩⟩⟩ <;> simp_all [errands]
    have hrun := attendAll_errands []
    rw [List.append_nil] at hrun
    right
    rw [Dispatcher.transcript, hrun]
    exact List.mem_cons_self ..
  exact ⟨onlyPosix, Libraries.sound_empty, honest,
    custody_by_tags onlyPosix Libraries.sound_empty honest⟩

end Custody
end BlockTransfer
