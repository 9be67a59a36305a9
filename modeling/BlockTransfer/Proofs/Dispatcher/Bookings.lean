import BlockTransfer.Proofs.Device.Loading
import BlockTransfer.Proofs.Dispatcher.Standing
/-!
# The pool and the set of an activation

The locked buffers of an activation are booked twice, in the pool of its device
and in the set of the dispatcher. With one caller, and backends that are posix or
bare devices, both books agree at all times (`Activation.Booked`), so the device
takes back what the set lists, and the set alone decides what can be freed
(`Dispatcher.FreesByTag`).

Key definitions: `LockedPool.Lists`, `Activation.Booked`, `Dispatcher.BookedEnd`,
`Dispatcher.FreesByTag`.
Key theorem: `Dispatcher.Booked.freesByTag`.
-/

namespace BlockTransfer

open Switching (Errand Visit Reply)

/-! ### Pools -/

namespace LockedPool

variable {p p' : LockedPool} {b : Buffer} {tag : PinTag}

/-- Every live number was given out once. -/
structure Sound (p : LockedPool) : Prop where
  nodup : p.live.Nodup
  below : ∀ id ∈ p.live, id < p.nextId

/-- Whether the pool has handed out a buffer under that tag and not taken it
back. -/
def Lists (p : LockedPool) (tag : PinTag) : Prop := tag.pool = p.number ∧ tag.id ∈ p.live

theorem sound_new (number : Nat) : Sound ⟨number, 1, []⟩ := ⟨List.nodup_nil, nofun⟩

theorem Sound.advance (h : p.Sound) : p.advance.Sound :=
  ⟨h.nodup, fun id hid => Nat.lt_succ_of_lt (h.below id hid)⟩

theorem Sound.not_lists_nextTag (h : p.Sound) : ¬ p.Lists p.nextTag :=
  fun hl => Nat.lt_irrefl _ (h.below _ hl.2)

theorem Sound.enlist (h : p.Sound) : (p.advance.enlist p.nextId).Sound := by
  refine ⟨h.nodup.insert, fun id hid => ?_⟩
  rcases List.mem_insert_iff.mp hid with rfl | hid
  · exact Nat.lt_succ_self _
  · exact Nat.lt_succ_of_lt (h.below id hid)

theorem lists_enlist : (p.advance.enlist p.nextId).Lists tag ↔ tag = p.nextTag ∨ p.Lists tag := by
  obtain ⟨pool, id⟩ := tag
  simp only [Lists, enlist, advance, nextTag, List.mem_insert_iff, PinTag.mk.injEq]
  tauto

/-- What an allocation does to the pool. -/
theorem allocate_eq (p : LockedPool) (m : Memory) (type : ElementType) (count : Nat) :
    (∃ e, p.allocate m type count = (.error e, p.advance)) ∨
      ∃ b m', b.pin = some p.nextTag ∧
        p.allocate m type count = (.ok (b, m'), p.advance.enlist p.nextId) := by
  unfold allocate Memory.locked? Memory.zeroedWith?
  cases m.reserveElements (some p.nextTag) type count with
  | error fault => exact .inl ⟨_, rfl⟩
  | ok len => exact .inr ⟨_, _, rfl, rfl⟩

/-- The pool without one of its numbers. -/
def strike (p : LockedPool) (id : Nat) : LockedPool := { p with live := p.live.erase id }

theorem Sound.strike (h : p.Sound) (id : Nat) : (p.strike id).Sound :=
  ⟨h.nodup.erase id, fun _ hid => h.below _ (List.mem_of_mem_erase hid)⟩

theorem Sound.lists_strike (h : p.Sound) {t : PinTag} (hl : p.Lists t) :
    (p.strike t.id).Lists tag ↔ tag ≠ t ∧ p.Lists tag := by
  obtain ⟨pool, id⟩ := tag
  obtain ⟨pool', id'⟩ := t
  obtain ⟨rfl, -⟩ := hl
  simp only [Lists, LockedPool.strike, h.nodup.mem_erase_iff, ne_eq, PinTag.mk.injEq]
  tauto

/-- Taking a buffer back uses up no number. -/
theorem release_counters (h : p.release b = .ok p') :
    p'.number = p.number ∧ p'.nextId = p.nextId := by
  unfold release at h
  split at h
  · cases h
  · split at h
    · cases h
    · split at h <;> cases h
      exact ⟨rfl, rfl⟩

/-- The pool takes back what it lists. -/
theorem release_eq (hb : b.pin = some tag) (hl : p.Lists tag) :
    p.release b = .ok (p.strike tag.id) := by
  simp [release, hb, hl.1, hl.2, strike]

end LockedPool

/-! ### Posix devices -/

namespace PosixDevice

variable {p : PosixDevice} {s : Storage}

/-- Only requests about locked buffers turn to the pool. -/
theorem pool_serve (p : PosixDevice) (s : Storage) (r : Request) :
    (p.serve s r).2.1.pool = p.pool ∨ (∃ count like, r = .newLocked count like) ∨
      ∃ b, r = .freeLocked b := by
  have htransfer : ∀ order mode, (p.transfer order mode s).2.1.pool = p.pool := by
    intro order mode
    unfold transfer
    split
    · rfl
    · split
      · split <;> rfl
      · rfl
  cases r with
  | newLocked count like => exact .inr (.inl ⟨count, like, rfl⟩)
  | freeLocked b => exact .inr (.inr ⟨b, rfl⟩)
  | read | write | pread | pwrite => exact .inl (htransfer ..)
  | memcpy | wait =>
    refine .inl ?_
    simp only [serve]
    split <;> rfl
  | _ => exact .inl rfl

theorem pool_serve_call (p : PosixDevice) (s : Storage) (c : Call) :
    (p.serve s c.request).2.1.pool = p.pool := by
  obtain h | ⟨count, like, h⟩ | ⟨b, h⟩ := p.pool_serve s c.request
  · exact h
  · cases c <;> cases h
  · cases c <;> cases h

theorem serve_newLocked (p : PosixDevice) (s : Storage) (count : Nat) (like : Buffer) :
    (∃ e, p.serve s (.newLocked count like) =
        (.error (.transfer e), { p with pool := p.pool.advance }, s)) ∨
      ∃ b s', b.pin = some p.pool.nextTag ∧ p.serve s (.newLocked count like) =
        (.ok (.buffer b), { p with pool := p.pool.advance.enlist p.pool.nextId }, s') := by
  obtain ⟨e, h⟩ | ⟨b, m, hb, h⟩ := p.pool.allocate_eq s.memory like.elementType count
  · exact .inl ⟨e, by simp only [serve, h]⟩
  · exact .inr ⟨b, { s with memory := m }, hb, by simp only [serve, h]⟩

theorem serve_freeLocked {b : Buffer} {tag : PinTag} (hb : b.pin = some tag)
    (hl : p.pool.Lists tag) :
    p.serve s (.freeLocked b) = (.ok .done, { p with pool := p.pool.strike tag.id }, s) := by
  simp only [serve, LockedPool.release_eq hb hl]

end PosixDevice

theorem Device.serve_posix {r : Request} {p p' : PosixDevice} {w : World}
    {answer : Except DeviceError Answer} {storage : Storage}
    (h : p.serve w.storage r = (answer, p', storage)) :
    Device.serve r (.posix p) w = (answer, .posix p', { w with storage }) := by
  simp only [Device.serve, h]

/-- The registry offers the posix backend, under any names, and nothing else. -/
def Registry.OnlyPosix (r : Registry World Device) : Prop :=
  ∀ t create, r.get? t = some create → create = Device.createPosix

/-! ### Activations -/

namespace Activation

variable {a : Activation Device} {w : World}

/-- The device is a posix device whose pool lists what the activation's set
holds, or a bare device, and the set is empty. -/
inductive Booked (a : Activation Device) : Prop where
  | bare {name} (device : a.loaded.device = .bare name) (tags : a.locked.tags = [])
  | posix {p} (device : a.loaded.device = .posix p) (sound : p.pool.Sound)
      (nodup : a.locked.tags.Nodup) (tags : ∀ tag, tag ∈ a.locked.tags ↔ p.pool.Lists tag)

theorem booked_create {host : Host} {settings : DeviceSettings} {number : Nat} {p : PosixDevice}
    (h : PosixDevice.create host settings number = .ok p) (deviceType : String) (origin : Origin)
    (generation : Nat) :
    Booked { loaded := ⟨.posix p, deviceType, origin⟩, generation } := by
  obtain ⟨-, rfl⟩ := PosixDevice.eq_of_create h
  exact .posix rfl (LockedPool.sound_new number) List.nodup_nil fun tag => by
    simp [LockedPool.Lists]

/-- A forwarded call leaves the books alone. -/
theorem Booked.call (h : a.Booked) (c : Call) (w : World) :
    (a.setDevice (Device.serve c.request a.loaded.device w).2.1).Booked := by
  cases h with
  | bare device tags => exact .bare (by rw [device]; rfl) tags
  | @posix p device sound nodup tags =>
    have hpool := p.pool_serve_call w.storage c
    refine .posix (p := (p.serve w.storage c.request).2.1) (by rw [device]; rfl) ?_ nodup
      fun tag => ?_
    · rwa [hpool]
    · rw [hpool]
      exact tags tag

/-- A request for a locked buffer either hands one out under a tag that the set
does not hold, or leaves both books alone. -/
theorem Booked.newLocked (h : a.Booked) (count : Nat) (like : Buffer) (w : World) :
    (∃ e device w', Device.serve (.newLocked count like) a.loaded.device w =
        (.error e, device, w') ∧ (a.setDevice device).Booked) ∨
      ∃ b tag device w', Device.serve (.newLocked count like) a.loaded.device w =
          (.ok (.buffer b), device, w') ∧ b.pin = some tag ∧ tag ∉ a.locked.tags ∧
        ((a.setDevice device).mapLocked (·.insert tag)).Booked := by
  cases h with
  | bare device tags =>
    rw [device]
    exact .inl ⟨_, _, _, rfl, .bare rfl tags⟩
  | @posix p device sound nodup tags =>
    rw [device]
    obtain ⟨e, hserve⟩ | ⟨b, s', hb, hserve⟩ := p.serve_newLocked w.storage count like
    · exact .inl ⟨_, _, _, Device.serve_posix hserve, .posix rfl sound.advance nodup tags⟩
    · have hnew : p.pool.nextTag ∉ a.locked.tags :=
        fun htag => sound.not_lists_nextTag ((tags _).mp htag)
      refine .inr ⟨b, p.pool.nextTag, _, _, Device.serve_posix hserve, hb, hnew,
        .posix rfl sound.enlist nodup.insert fun tag => ?_⟩
      rw [LockedPool.lists_enlist, ← tags]
      exact List.mem_insert_iff

/-- What the set lists, the device takes back. -/
theorem Booked.freeLocked (h : a.Booked) {b : Buffer} {tag : PinTag}
    (hcheck : a.checkOwned b = .ok tag) (w : World) :
    ∃ device, Device.serve (.freeLocked b) a.loaded.device w = (.ok .done, device, w) ∧
      ((a.setDevice device).mapLocked (·.erase tag)).Booked := by
  obtain ⟨hb, htag⟩ := Dispatcher.checkOwned_eq_ok_iff.mp hcheck
  replace htag := List.contains_iff_mem.mp htag
  cases h with
  | bare _ tags =>
    rw [tags] at htag
    cases htag
  | @posix p device sound nodup tags =>
    have hl := (tags tag).mp htag
    rw [device]
    refine ⟨_, Device.serve_posix (PosixDevice.serve_freeLocked hb hl),
      .posix rfl (sound.strike tag.id) (nodup.erase tag) fun t => ?_⟩
    rw [sound.lists_strike hl, ← tags]
    exact nodup.mem_erase_iff

end Activation

namespace Dispatcher

variable {d d' : Dispatcher World Device} {w w' : World} {loader : Loader World Device}
  {a : Activation Device} {s : Standing}

/-! ### Runs -/

/-- The active device's books agree. -/
def Booked (d : Dispatcher World Device) : Prop := ∀ a, d.slot = some a → a.Booked

theorem booked_setSlot (h : a.Booked) (d : Dispatcher World Device) : (d.setSlot a).Booked := by
  rintro _ ⟨⟩
  exact h

theorem Booked.forward (h : d.Booked) (c : Call) (w : World) :
    (d.forward Device.platform c w).2.1.Booked := by
  cases hslot : d.slot with
  | none => simpa only [Dispatcher.forward, serveActive, hslot] using h
  | some a =>
    rw [Dispatcher.forward, serveActive_eq hslot rfl]
    exact booked_setSlot ((h a hslot).call c w) d

theorem Booked.drainCurrent (h : d.Booked) (w : World) :
    (d.drainCurrent Device.platform w).2.1.Booked := by
  rw [drainCurrent_eq_wait]
  exact h.forward .wait w

theorem booked_install (hr : loader.registry.OnlyPosix) {t : String}
    {loaded : LoadedDevice Device} (h : Device.Loaded loader t w loaded w')
    (d : Dispatcher World Device) : (d.install loaded).Booked := by
  rintro _ ⟨⟩
  cases h with
  | bare => exact .bare rfl rfl
  | posix _ make => exact Activation.booked_create make ..
  | builtin get make =>
    cases hr _ _ get
    unfold Device.createPosix at make
    split at make <;> cases make
    exact Activation.booked_create ‹_› ..

/-- How a visit ends if the books agree: they agree afterwards, what is handed
out has a tag that the set did not hold, and what the set holds is freed. -/
inductive BookedEnd (d : Dispatcher World Device) (a : Activation Device) (w : World) :
    Visit → Reply × Dispatcher World Device × World → Prop where
  | forwarded {call answer device w'}
      (serve : Device.serve call.request a.loaded.device w = (answer, device, w'))
      (booked : (a.setDevice device).Booked) :
    BookedEnd d a w (.forward call)
      (answer.mapError .device, d.setSlot (a.setDevice device), w')
  | withheld {count like e device w'}
      (serve : Device.serve (.newLocked count like) a.loaded.device w = (.error e, device, w'))
      (booked : (a.setDevice device).Booked) :
    BookedEnd d a w (.newLocked count like)
      (.error (.device e), d.setSlot (a.setDevice device), w')
  | handedOut {count like b tag device w'}
      (serve : Device.serve (.newLocked count like) a.loaded.device w =
        (.ok (.buffer b), device, w'))
      (pin : b.pin = some tag) (new : tag ∉ a.locked.tags)
      (booked : ((a.setDevice device).mapLocked (·.insert tag)).Booked) :
    BookedEnd d a w (.newLocked count like)
      (.ok (.buffer b), d.setSlot ((a.setDevice device).mapLocked (·.insert tag)), w')
  | disowned {b e} (check : a.checkOwned b = .error e) :
    BookedEnd d a w (.freeLocked b) (.error (.lifecycle e), d, w)
  | freed {b tag device} (check : a.checkOwned b = .ok tag)
      (serve : Device.serve (.freeLocked b) a.loaded.device w = (.ok .done, device, w))
      (booked : ((a.setDevice device).mapLocked (·.erase tag)).Booked) :
    BookedEnd d a w (.freeLocked b)
      (.ok .done, d.setSlot ((a.setDevice device).mapLocked (·.erase tag)), w)

theorem bookedEnd_attend (h : a.Booked) (hslot : d.slot = some a) (v : Visit) (w : World) :
    BookedEnd d a w v (d.attend Device.platform (.visit v) w) := by
  have hend := visitEnd_attend (P := Device.platform) hslot v w
  generalize d.attend Device.platform (.visit v) w = out at hend ⊢
  cases hend with
  | @forwarded call _ _ _ serve =>
    have hbooked := h.call call w
    rw [show Device.serve _ _ _ = _ from serve] at hbooked
    exact .forwarded serve hbooked
  | @withheld count like _ _ _ serve =>
    obtain ⟨_, _, _, hserve, hbooked⟩ | ⟨_, _, _, _, hserve, -⟩ := h.newLocked count like w <;>
      cases serve.symm.trans hserve
    exact .withheld hserve hbooked
  | @untagged count like _ _ _ serve pin =>
    obtain ⟨_, _, _, hserve, -⟩ | ⟨b, tag, _, _, hserve, hb, -⟩ := h.newLocked count like w <;>
      cases serve.symm.trans hserve
    cases (pin b rfl).symm.trans hb
  | @handedOut count like _ _ _ _ serve pin =>
    obtain ⟨_, _, _, hserve, -⟩ | ⟨b, tag, _, _, hserve, hb, hnew, hbooked⟩ :=
      h.newLocked count like w <;> cases serve.symm.trans hserve
    cases pin.symm.trans hb
    exact .handedOut hserve hb hnew hbooked
  | disowned check => exact .disowned check
  | kept check serve =>
    obtain ⟨_, hserve, -⟩ := h.freeLocked check w
    cases serve.symm.trans hserve
  | freed check serve =>
    obtain ⟨_, hserve, hbooked⟩ := h.freeLocked check w
    cases serve.symm.trans hserve
    exact .freed check hserve hbooked

/-- An errand leaves the books in agreement. -/
theorem Booked.attend (h : d.Booked) (hcalm : d.Calm) (hr : d.loader.registry.OnlyPosix)
    (e : Errand) (w : World) : (d.attend Device.platform e w).2.1.Booked := by
  cases e with
  | load t =>
    have hdrain := h.drainCurrent w
    have hloader := (drainCurrent_same (P := Device.platform) d w).1
    have hend := loadEnd_attend (P := Device.platform) hcalm t w
    generalize d.attend Device.platform (.load t) w = out at hend ⊢
    cases hend with
    | undrained drain => rwa [drain] at hdrain
    | refused drain => rwa [drain] at hdrain
    | unresolved drain => rwa [drain] at hdrain
    | switched drain _ load =>
      rw [drain] at hloader
      rw [← hloader] at hr
      exact booked_install hr (Device.loaded_load load) _
  | visit v =>
    cases hslot : d.slot with
    | none => rwa [attend_noDevice hslot]
    | some a =>
      have hend := bookedEnd_attend (h a hslot) hslot v w
      generalize d.attend Device.platform (.visit v) w = out at hend ⊢
      cases hend with
      | disowned => exact h
      | forwarded _ booked => exact booked_setSlot booked d
      | withheld _ booked => exact booked_setSlot booked d
      | handedOut _ _ _ booked => exact booked_setSlot booked d
      | freed _ _ booked => exact booked_setSlot booked d

theorem Booked.after (h : d.Booked) (hcalm : d.Calm) (hr : d.loader.registry.OnlyPosix)
    (es : List Errand) (w : World) : (after Device.platform es d w).1.Booked := by
  induction es generalizing d w with
  | nil => exact h
  | cons e es ih =>
    refine ih (h.attend hcalm hr e w) (hcalm.attend e w) ?_ _
    rwa [(hcalm.attend_same (P := Device.platform) e w).1]

/-! ### What the books decide -/

end Dispatcher

/-- What freeing a buffer comes to, by its tag alone. -/
def Standing.replyToFree (s : Standing) (b : Buffer) : Reply :=
  match s.active? with
  | none => .error (.noDevice "free_locked_buffer")
  | some a =>
    match b.pin with
    | none => .error (.lifecycle .notLocked)
    | some tag => if tag ∈ a.tags then .ok .done else .error (.lifecycle (.unknown tag.id))

namespace Dispatcher

variable {d : Dispatcher World Device} {w : World}

/-- Which buffers can be freed is decided by their tags, and a buffer that is
refused leaves everything as it was. -/
structure FreesByTag (d : Dispatcher World Device) (w : World) (s : Standing) : Prop where
  reply : ∀ b, (d.attend Device.platform (.visit (.freeLocked b)) w).1 = s.replyToFree b
  refused : ∀ b e, s.replyToFree b = .error e →
    (d.attend Device.platform (.visit (.freeLocked b)) w).2 = (d, w)

theorem Booked.freesByTag (h : d.Booked) (w : World) : FreesByTag d w d.standing := by
  suffices ∀ b, ∃ out, d.attend Device.platform (.visit (.freeLocked b)) w = out ∧
      out.1 = d.standing.replyToFree b ∧
      ∀ e, d.standing.replyToFree b = .error e → out.2 = (d, w) from
    ⟨fun b => by obtain ⟨_, rfl, heq, -⟩ := this b; exact heq,
      fun b e he => by obtain ⟨_, rfl, -, heq⟩ := this b; exact heq e he⟩
  intro b
  cases hslot : d.slot with
  | none =>
    refine ⟨_, attend_noDevice hslot _ w, ?_, fun _ _ => rfl⟩
    simp only [Standing.replyToFree, standing, hslot, Option.map_none, Visit.operation]
  | some a =>
    have hend := bookedEnd_attend (h a hslot) hslot (.freeLocked b) w
    refine ⟨_, rfl, ?_⟩
    have hrefused : ∀ e, a.checkOwned b = .error e →
        d.standing.replyToFree b = .error (.lifecycle e) := fun e check => by
      simp only [Activation.checkOwned, LockedSet.contains] at check
      simp only [Standing.replyToFree, standing, hslot, Option.map_some]
      cases hpin : b.pin with
      | none => simpa [hpin] using check
      | some tag => by_cases htag : tag ∈ a.locked.tags <;> simp_all
    have hdone : ∀ tag, a.checkOwned b = .ok tag →
        d.standing.replyToFree b = .ok .done := fun tag check => by
      obtain ⟨hpin, htag⟩ := checkOwned_eq_ok_iff.mp check
      have hmem : tag ∈ a.locked.tags := List.contains_iff_mem.mp htag
      simp [Standing.replyToFree, standing, hslot, hpin, hmem]
    generalize d.attend Device.platform (.visit (.freeLocked b)) w = out at hend ⊢
    cases hend with
    | disowned check => exact ⟨(hrefused _ check).symm, fun _ _ => rfl⟩
    | freed check =>
      rw [hdone _ check]
      exact ⟨rfl, by rintro _ ⟨⟩⟩

end Dispatcher
end BlockTransfer
