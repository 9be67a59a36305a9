import BlockTransfer.Proofs.Dispatcher.Sources
import BlockTransfer.Proofs.Fleet.Balance
/-!
# Releasing locked buffers among several devices

Any number of posix devices of one copy of the backend are asked for locked
buffers and to free buffers, in any order, whichever device a buffer is from. A
device takes back exactly what it handed out and has not taken back; and of what
it refuses, its error tells a buffer that was never locked from one of another
device and from one that it has taken back already (`Fleet.Verdict`).

Whatever is asked, the pools and the journal keep the balance
(`Fleet.Kept.step`), so it holds after every run (`Fleet.kept_of_run?`).

A number is used up by every request for a locked buffer, and by nothing else: a
counter of 64 bits gives out the same numbers for as long as there are fewer than
2⁶⁴ such requests.

Key definitions: `Fleet.Kept`, `Fleet.Verdict`, `Fleet.Exact`.
Key theorems: `Fleet.Kept.step`, `Fleet.kept_of_run?`, `Fleet.exact_of_run?`.
-/

namespace BlockTransfer

/-! ### The factory -/

/-- The world after a source's next pool number is used up. -/
def World.usePoolOf (w : World) : Option Nat → World
  | none => { w with nextPool := w.nextPool + 1 }
  | some library => { w with libraries := w.libraries.usePool library }

theorem Device.createFrom_eq (source : Option Nat) (settings : DeviceSettings) (w : World) :
    createFrom source settings w =
      match PosixDevice.create w.host settings (w.nextPoolOf source) with
      | .error fault => (.error fault, w)
      | .ok d => (.ok (.posix d), w.usePoolOf source) := by
  cases source <;> rfl

theorem World.nextPoolOf_usePoolOf {w : World} {source : Option Nat} (h : w.HasSource source) :
    (w.usePoolOf source).nextPoolOf source = w.nextPoolOf source + 1 := by
  cases source with
  | none => rfl
  | some library => exact Libraries.nextPool_usePool h

theorem World.HasSource.usePoolOf {w : World} {source : Option Nat} (h : w.HasSource source) :
    (w.usePoolOf source).HasSource source := by
  cases source with
  | none => trivial
  | some library => exact Libraries.has_usePool.mpr h

theorem World.hasSource_storage (w : World) (storage : Storage) (source : Option Nat) :
    World.HasSource { w with storage } source ↔ w.HasSource source := by
  cases source <;> exact Iff.rfl

theorem World.nextPoolOf_storage (w : World) (storage : Storage) (source : Option Nat) :
    World.nextPoolOf { w with storage } source = w.nextPoolOf source := by
  cases source <;> rfl

namespace Fleet

variable {f f' : Fleet} {i : Nat} {b : Buffer} {r : Request}

/-- Replacing an element by itself changes nothing. -/
theorem set_of_getElem? {α : Type} {l : List α} {a : α} (h : l[i]? = some a) : l.set i a = l := by
  obtain ⟨hlt, rfl⟩ := List.getElem?_eq_some_iff.mp h
  exact List.set_getElem_self hlt

/-! ### Every act -/

/-- The devices of a fleet are posix devices with the pools `pools`, and the
source numbers their pools from `first` on. -/
structure Kept (first : Nat) (pools : List LockedPool) (f : Fleet) : Prop where
  posix : f.devices.map Device.pool? = pools.map some
  present : f.world.HasSource f.source
  next : f.world.nextPoolOf f.source = first + pools.length
  balanced : Balanced first pools f.journal

theorem Recipe.pin_of_make? {recipe : Recipe} {m m' : Memory} (h : recipe.make? m = some (b, m')) :
    b.pin = none := by
  cases recipe with
  | zeroed type count | zeroedPlain type count =>
    simp only [make?, Memory.zeroedPlain?, Memory.zeroed?, Memory.zeroedWith?] at h
    split at h <;> cases h
    rfl
  | ofBytes type data =>
    simp only [make?, Memory.ofBytes?] at h
    split at h <;> cases h
    rfl

namespace Kept

variable {first : Nat} {pools : List LockedPool} {d : Device}

theorem device (h : Kept first pools f) (hd : f.devices[i]? = some d) :
    ∃ p, d = .posix p ∧ pools[i]? = some p.pool := by
  have hpool : (f.devices.map Device.pool?)[i]? = (pools.map some)[i]? := by rw [h.posix]
  rw [List.getElem?_map, List.getElem?_map, hd, Option.map_some] at hpool
  obtain ⟨pool, hi, heq⟩ := Option.map_eq_some_iff.mp hpool.symm
  cases d with
  | posix p =>
    cases heq
    exact ⟨p, rfl, hi⟩
  | bare | probe => cases heq

/-- Every pool is that of a device. -/
theorem pool (h : Kept first pools f) {pool : LockedPool} (hi : pools[i]? = some pool) :
    ∃ p, f.devices[i]? = some (.posix p) ∧ p.pool = pool := by
  have hlt : i < f.devices.length := by
    have hlength := congrArg List.length h.posix
    rw [List.length_map, List.length_map] at hlength
    rw [hlength]
    exact (List.getElem?_eq_some_iff.mp hi).1
  obtain ⟨p, hd, hi'⟩ := h.device (List.getElem?_eq_getElem hlt)
  exact ⟨p, by rw [List.getElem?_eq_getElem hlt, hd], Option.some.inj (hi'.symm.trans hi)⟩

theorem create (h : Kept first pools f) (settings : DeviceSettings) :
    ∃ pools', Kept first pools' (f.create settings) := by
  unfold Fleet.create
  rw [Device.createFrom_eq]
  cases hcreate : PosixDevice.create f.world.host settings (f.world.nextPoolOf f.source) with
  | error e =>
    refine ⟨pools, h.posix, h.present, h.next, ?_⟩
    exact h.balanced.note nofun ⟨fun _ => rfl, fun _ => rfl, fun _ => rfl⟩
  | ok p =>
    have hpool : p.pool = ⟨first + pools.length, 1, []⟩ := by
      rw [(PosixDevice.eq_of_create hcreate).2, h.next]
    refine ⟨pools ++ [p.pool], ?_, h.present.usePoolOf, ?_, ?_⟩
    · show (f.devices ++ [Device.posix p]).map Device.pool? = _
      rw [List.map_append, List.map_append, h.posix]
      rfl
    · show (f.world.usePoolOf f.source).nextPoolOf f.source = _
      rw [World.nextPoolOf_usePoolOf h.present, h.next, List.length_append]
      rfl
    · rw [hpool]
      exact h.balanced.created

theorem make (h : Kept first pools f) (recipe : Recipe) : Kept first pools (f.make recipe) := by
  have hquiet {o : Occurrence} (ho : o = .notMade ∨ ∃ b, o = .made b) : o.Quiet := by
    obtain rfl | ⟨b, rfl⟩ := ho <;> exact ⟨fun _ => rfl, fun _ => rfl, fun _ => rfl⟩
  unfold Fleet.make
  split
  · exact ⟨h.posix, h.present, h.next, h.balanced.note nofun (hquiet (.inl rfl))⟩
  · rename_i b memory hmake
    refine ⟨h.posix, (World.hasSource_storage ..).mpr h.present,
      (World.nextPoolOf_storage ..).trans h.next,
      h.balanced.note ?_ (hquiet (.inr ⟨b, rfl⟩))⟩
    rintro _ ⟨⟩
    exact Recipe.pin_of_make? hmake

/-- A request turns to no counter of the source; what is left is what it does to
the pool. -/
theorem answered (h : Kept first pools f) {p : PosixDevice} {r : Request}
    {answer : Except DeviceError Answer} {p' : PosixDevice} {storage : Storage}
    (hserve : p.serve f.world.storage r = (answer, p', storage))
    (hbalanced : Balanced first (pools.set i p'.pool) (f.journal ++ [.answered i r answer])) :
    Kept first (pools.set i p'.pool) (f.ask i (.posix p) r) := by
  unfold Fleet.ask
  rw [Device.serve_posix hserve]
  refine ⟨?_, (World.hasSource_storage ..).mpr h.present, ?_, hbalanced⟩
  · show (f.devices.set i (Device.posix p')).map Device.pool? = _
    rw [List.map_set, List.map_set, h.posix]
    rfl
  · rw [List.length_set, ← h.next]
    exact World.nextPoolOf_storage ..

theorem newLocked (h : Kept first pools f) {p : PosixDevice} (hi : pools[i]? = some p.pool)
    (count : Nat) (like : Buffer) :
    ∃ pools', Kept first pools' (f.ask i (.posix p) (.newLocked count like)) := by
  have hsound := h.balanced.sound _ (List.mem_of_getElem? hi)
  obtain ⟨e, hserve⟩ | ⟨b, storage, hpin, hserve⟩ := p.serve_newLocked f.world.storage count like
  · refine ⟨_, h.answered hserve ?_⟩
    refine h.balanced.failed hi rfl hsound.advance rfl ?_ fun j hji => ?_
    · simp [Occurrence.asks, LockedPool.advance]
    · simpa [Occurrence.asks] using hji.symm
  · refine ⟨_, h.answered hserve ?_⟩
    have hhere : (Occurrence.answered i (.newLocked count like) (.ok (.buffer b))).handedOut? i =
        some b := if_pos rfl
    refine h.balanced.turn hi rfl hsound.enlist ?_ (fun j hji => ⟨if_neg hji.symm, rfl, ?_⟩)
      ?_ ?_ ?_ ?_
    · simp [Occurrence.asks, LockedPool.advance, LockedPool.enlist]
    · simpa [Occurrence.asks] using hji.symm
    · rintro _ ⟨⟩
      exact hhere
    · rw [hhere]
      rintro _ ⟨⟩
      exact ⟨_, hpin, ⟨rfl, Nat.lt_succ_self _⟩, fun hissued => hissued.ne_nextTag rfl⟩
    · rintro _ ⟨⟩
    · have htags : (p.pool.advance.enlist p.pool.nextId).tags = p.pool.nextTag :: p.pool.tags :=
        LockedPool.tags_enlist (show p.pool.nextTag.pool = p.pool.advance.number from rfl)
          fun hmem => hsound.not_lists_nextTag (LockedPool.mem_tags.mp hmem)
      rw [hhere, htags]
      show (b.pin :: p.pool.tags.map some).Perm (some p.pool.nextTag :: p.pool.tags.map some ++ [])
      rw [hpin, List.append_nil]

theorem freeLocked (h : Kept first pools f) {p : PosixDevice} (hi : pools[i]? = some p.pool)
    (hb : b ∈ buffers f.journal) :
    ∃ pools', Kept first pools' (f.ask i (.posix p) (.freeLocked b)) := by
  have hsound := h.balanced.sound _ (List.mem_of_getElem? hi)
  have hcases := h.balanced.releases hi hb
  cases hrelease : p.pool.release b with
  | error e =>
    have hserve : p.serve f.world.storage (.freeLocked b) =
        (.error (.lifecycle e), p, f.world.storage) := by
      simp only [PosixDevice.serve, hrelease]
    refine ⟨_, h.answered hserve ?_⟩
    exact h.balanced.failed hi rfl hsound rfl rfl fun _ _ => rfl
  | ok pool =>
    rw [hrelease] at hcases
    cases hcases with
    | @done tag hpin hout hback hlisted =>
      have hserve := PosixDevice.serve_freeLocked (s := f.world.storage) hpin hlisted
      have hhere : (Occurrence.answered i (.freeLocked b) (.ok .done)).takenBack? i = some b :=
        if_pos rfl
      refine ⟨_, h.answered hserve ?_⟩
      refine h.balanced.turn hi rfl (hsound.strike _) rfl
        (fun j hji => ⟨rfl, if_neg hji.symm, rfl⟩) ?_ ?_ ?_ ?_
      · rintro _ ⟨⟩
      · rintro _ ⟨⟩
      · rw [hhere]
        rintro _ ⟨⟩
        exact hout
      · -- The tag moves from the live numbers to the buffers taken back.
        have hperm := List.perm_cons_erase (LockedPool.mem_tags.mpr hlisted)
        rw [← LockedPool.tags_erase hlisted.1] at hperm
        rw [hhere]
        show (p.pool.tags.map some).Perm ((p.pool.strike tag.id).tags.map some ++ [b.pin])
        rw [hpin]
        exact (hperm.map some).trans (List.perm_append_singleton _ _).symm

/-- Every act keeps what is kept. -/
theorem step (h : Kept first pools f) {act : Act} (hstep : f.step? act = some f') :
    ∃ pools', Kept first pools' f' := by
  cases act with
  | create settings =>
    cases hstep
    exact h.create settings
  | make recipe =>
    cases hstep
    exact ⟨pools, h.make recipe⟩
  | ask i r =>
    simp only [step?] at hstep
    split at hstep
    · cases hstep
    rename_i d hd
    split at hstep <;> cases hstep
    rename_i hbuffers
    obtain ⟨p, rfl, hi⟩ := h.device hd
    by_cases hnew : ∃ count like, r = .newLocked count like
    · obtain ⟨count, like, rfl⟩ := hnew
      exact h.newLocked hi count like
    by_cases hfree : ∃ b, r = .freeLocked b
    · obtain ⟨b, rfl⟩ := hfree
      exact h.freeLocked hi (hbuffers (List.mem_singleton_self b))
    · -- Any other request leaves the pool alone.
      have hpool := ((p.pool_serve f.world.storage r).resolve_right fun h => h.elim hnew hfree)
      obtain ⟨hquiet, hbuffer⟩ := Occurrence.quiet_answered
        (fun count like hr => hnew ⟨count, like, hr⟩) (fun b hr => hfree ⟨b, hr⟩) i
        (p.serve f.world.storage r).1
      generalize hserve : p.serve f.world.storage r = out at hpool hquiet hbuffer
      obtain ⟨answer, p', storage⟩ := out
      refine ⟨_, h.answered hserve ?_⟩
      rw [show p'.pool = p.pool from hpool, set_of_getElem? hi]
      refine h.balanced.note (fun b hb => ?_) hquiet
      rw [hbuffer] at hb
      cases hb

end Kept

/-- A fleet without devices. -/
def start (source : Option Nat) (w : World) : Fleet := { source, world := w }

theorem kept_of_run? {source : Option Nat} {w : World} {acts : List Act} (hw : w.HasSource source)
    (h : (start source w).run? acts = some f) :
    ∃ pools, Kept (w.nextPoolOf source) pools f := by
  refine foldlM_induction (P := fun _ f => ∃ pools, Kept (w.nextPoolOf source) pools f) ?_ ?_ h
  · exact ⟨[], rfl, hw, rfl, .nil _⟩
  · rintro _ f _ f' - ⟨pools, hf⟩ hstep
    exact hf.step hstep

/-! ### What the devices answer -/

/-- The live numbers of every device. -/
def live (f : Fleet) : List (Option (List Nat)) :=
  f.devices.map fun d => d.pool?.map LockedPool.live

/-- What a device answers if it is to free a buffer. -/
def answerToFree (f : Fleet) (p : PosixDevice) (b : Buffer) : Except DeviceError Answer :=
  (Device.serve (.freeLocked b) (.posix p) f.world).1

theorem answerToFree_eq (f : Fleet) (p : PosixDevice) (b : Buffer) :
    f.answerToFree p b =
      match p.pool.release b with
      | .error e => .error (.lifecycle e)
      | .ok _ => .ok .done := by
  simp only [answerToFree, Device.serve, PosixDevice.serve]
  cases p.pool.release b <;> rfl

/-- The answers of the device at place `i` to a buffer that is to be freed tell
what happened to the buffer before. -/
structure Verdict (f : Fleet) (i : Nat) (p : PosixDevice) (b : Buffer) : Prop where
  done : f.answerToFree p b = .ok .done ↔
    b ∈ handedOut f.journal i ∧ b ∉ takenBack f.journal i
  notLocked : f.answerToFree p b = .error (.lifecycle .notLocked) ↔ b.pin = none
  foreign : (∃ id owner pool, f.answerToFree p b = .error (.lifecycle (.foreign id owner pool))) ↔
    ∃ j, j ≠ i ∧ b ∈ handedOut f.journal j
  /-- The error names the buffer, the pool that it is from, and the pool asked. -/
  foreignNames : ∀ id owner pool,
    f.answerToFree p b = .error (.lifecycle (.foreign id owner pool)) →
      b.pin = some ⟨owner, id⟩ ∧ pool = p.pool.number ∧
        ∃ j q, f.devices[j]? = some (.posix q) ∧ b ∈ handedOut f.journal j ∧
          owner = q.pool.number
  unknown : (∃ id, f.answerToFree p b = .error (.lifecycle (.unknown id))) ↔
    b ∈ handedOut f.journal i ∧ b ∈ takenBack f.journal i
  unknownNames : ∀ id, f.answerToFree p b = .error (.lifecycle (.unknown id)) →
    b.pin = some ⟨p.pool.number, id⟩

/-- How the devices of a fleet stand to what they handed out and took back, if
the pool of the first of them has the number `first`. -/
structure Exact (first : Nat) (f : Fleet) : Prop where
  posix : ∀ i d, f.devices[i]? = some d → ∃ p, d = .posix p ∧ p.pool.number = first + i
  /-- Every buffer that was handed out has a tag of its own. -/
  once : ∀ i, ((handedOut f.journal i).map Buffer.pin).Nodup
  carries : ∀ i b, b ∈ handedOut f.journal i → ∃ tag, b.pin = some tag ∧
    tag.pool = first + i ∧ tag.id ≤ f.journal.countP (Occurrence.asks i)
  /-- No buffer is taken back twice. -/
  freedOnce : ∀ i, (takenBack f.journal i).Nodup
  verdict : ∀ i p b, f.devices[i]? = some (.posix p) → b ∈ buffers f.journal → f.Verdict i p b
  outstanding : ∀ i p, f.devices[i]? = some (.posix p) →
    p.outstanding + (takenBack f.journal i).length = (handedOut f.journal i).length
  /-- A device that fails to do what it is asked changes no device's live numbers. -/
  failing : ∀ i d r e, f.devices[i]? = some d → (d.serve r f.world).1 = .error e →
    (f.ask i d r).live = f.live

theorem live_serve {d : Device} {w : World} {e : DeviceError} (h : (d.serve r w).1 = .error e) :
    (d.serve r w).2.1.pool?.map LockedPool.live = d.pool?.map LockedPool.live := by
  cases d with
  | bare | probe => rfl
  | posix p =>
    replace h : (p.serve w.storage r).1 = .error e := h
    show some (p.serve w.storage r).2.1.pool.live = some p.pool.live
    obtain heq | ⟨count, like, rfl⟩ | ⟨b, rfl⟩ := p.pool_serve w.storage r
    · rw [heq]
    · obtain ⟨e', hserve⟩ | ⟨b, s, -, hserve⟩ := p.serve_newLocked w.storage count like <;>
        rw [hserve] at h ⊢
      · rfl
      · cases h
    · simp only [PosixDevice.serve] at h ⊢
      split at h
      · rfl
      · cases h

theorem live_ask {d : Device} {e : DeviceError} (hd : f.devices[i]? = some d)
    (h : (d.serve r f.world).1 = .error e) : (f.ask i d r).live = f.live := by
  show (f.devices.set i (d.serve r f.world).2.1).map _ = f.devices.map _
  rw [List.map_set, live_serve h]
  exact set_of_getElem? (by rw [List.getElem?_map, hd, Option.map_some])

namespace Kept

variable {first : Nat} {pools : List LockedPool} {p : PosixDevice}

theorem verdict (h : Kept first pools f) (hd : f.devices[i]? = some (.posix p))
    (hb : b ∈ buffers f.journal) : f.Verdict i p b := by
  obtain ⟨_, heq, hi⟩ := h.device hd
  cases heq
  have hanswer := answerToFree_eq f p b
  have hnumber := h.balanced.numbers hi
  have hcases := h.balanced.releases hi hb
  generalize p.pool.release b = out at hanswer hcases
  cases hcases with
  | ordinary pin nowhere =>
    constructor <;> simp [hanswer, pin, nowhere]
  | @foreign j tag pin other out owner =>
    have hhere : b ∉ handedOut f.journal i := fun hmem =>
      other (h.balanced.handedOut_unique out hmem)
    have hthere : ∃ j, j ≠ i ∧ b ∈ handedOut f.journal j := ⟨j, other, out⟩
    obtain ⟨pool, tag', hj, hpin, hissued⟩ := h.balanced.carries out
    cases pin.symm.trans hpin
    obtain ⟨q, hq, rfl⟩ := h.pool hj
    constructor
    case done => simp [hanswer, hhere]
    case notLocked => simp [hanswer, pin]
    case foreign => simp [hanswer, hthere]
    case foreignNames =>
      rintro id owner pool hfree
      cases hanswer.symm.trans hfree
      exact ⟨pin, rfl, j, q, hq, out, hissued.1⟩
    case unknown => simp [hanswer, hhere]
    case unknownNames => simp [hanswer]
  | @unknown tag pin out back =>
    have hthere : ¬ ∃ j, j ≠ i ∧ b ∈ handedOut f.journal j := fun ⟨j, other, hj⟩ =>
      other (h.balanced.handedOut_unique hj out)
    obtain ⟨pool, tag', hi', hpin, hissued⟩ := h.balanced.carries out
    cases pin.symm.trans hpin
    cases hi.symm.trans hi'
    constructor
    case done => simp [hanswer, back]
    case notLocked => simp [hanswer, pin]
    case foreign => simpa [hanswer] using hthere
    case foreignNames => simp [hanswer]
    case unknown => simp [hanswer, out, back]
    case unknownNames =>
      rintro id hfree
      cases hanswer.symm.trans hfree
      rw [pin, ← hissued.1]
  | @done tag pin out back listed =>
    have hthere : ¬ ∃ j, j ≠ i ∧ b ∈ handedOut f.journal j := fun ⟨j, other, hj⟩ =>
      other (h.balanced.handedOut_unique hj out)
    constructor
    case done => simp [hanswer, out, back]
    case notLocked => simp [hanswer, pin]
    case foreign => simpa [hanswer] using hthere
    case foreignNames => simp [hanswer]
    case unknown => simp [hanswer, back]
    case unknownNames => simp [hanswer]

theorem outstanding (h : Kept first pools f) (hd : f.devices[i]? = some (.posix p)) :
    p.outstanding + (takenBack f.journal i).length = (handedOut f.journal i).length := by
  obtain ⟨_, heq, hi⟩ := h.device hd
  cases heq
  have hlength := (h.balanced.balance hi).length_eq
  simp only [LockedPool.tags, List.length_append, List.length_map] at hlength
  exact hlength.symm

end Kept

/-- Whatever is asked of the devices that one copy of the backend makes, and in
whatever order, each of them takes back exactly the buffers that it handed out
and has not taken back, and refuses every other for the right reason. -/
theorem exact_of_run? {source : Option Nat} {w : World} {acts : List Act} (hw : w.HasSource source)
    (h : (start source w).run? acts = some f) : Exact (w.nextPoolOf source) f := by
  obtain ⟨pools, hf⟩ := kept_of_run? hw h
  refine
    { posix := fun i d hd => ?_
      once := hf.balanced.once
      carries := fun i b hb => ?_
      freedOnce := fun i => ?_
      verdict := fun i p b => hf.verdict
      outstanding := fun i p => hf.outstanding
      failing := fun i d r e => live_ask }
  · obtain ⟨p, rfl, hi⟩ := hf.device hd
    exact ⟨p, rfl, hf.balanced.numbers hi⟩
  · obtain ⟨p, tag, hi, hpin, hissued⟩ := hf.balanced.carries hb
    have hids := hf.balanced.ids i
    rw [hi, Option.map_some, Option.getD_some] at hids
    have hlt := hissued.2
    exact ⟨tag, hpin, hissued.1.trans (hf.balanced.numbers hi), by omega⟩
  · cases hback : takenBack f.journal i with
    | nil => exact List.nodup_nil
    | cons b bs =>
      obtain ⟨p, tag, hi, -⟩ := hf.balanced.carries
        (hf.balanced.returned (hback ▸ List.mem_cons_self : b ∈ takenBack f.journal i))
      have hnodup := (hf.balanced.balance hi).nodup_iff.mp (hf.balanced.once i)
      rw [← hback]
      exact (List.nodup_append'.mp hnodup).2.1.of_map

namespace TwoDevices

/-- A buffer that is not locked. -/
def ordinary : Buffer := ⟨0, .u8, 4, none⟩

/-- The buffer that the first device hands out. -/
def first : Buffer := ⟨1, .u8, 4, some ⟨1, 1⟩⟩

/-- The buffer that the second device hands out, after it could not make one. -/
def second : Buffer := ⟨2, .u8, 8, some ⟨2, 2⟩⟩

/-- Two devices hand out a buffer each; in between, a third is not to be had. The
first device's buffer is given to the second, to the first twice, and once more
to the second. -/
def acts : List Act :=
  [.create {}, .make (.zeroed .u8 4), .ask 0 (.newLocked 4 ordinary), .create { blockSize := 0 },
    .create {}, .ask 1 (.newLocked Word.count ordinary), .ask 1 (.newLocked 8 ordinary),
    .ask 1 (.freeLocked first), .ask 0 (.freeLocked first), .ask 0 (.freeLocked first),
    .ask 1 (.freeLocked first), .ask 0 (.freeLocked ordinary)]

/-- What comes of it. -/
def happened : List Occurrence :=
  [.created, .made ordinary, .answered 0 (.newLocked 4 ordinary) (.ok (.buffer first)),
    .notCreated (.failed (.invalidSettings (.blockSize 0))), .created,
    .answered 1 (.newLocked Word.count ordinary)
      (.error (.transfer (.invalidBuffer (.overflow Word.count .u8)))),
    .answered 1 (.newLocked 8 ordinary) (.ok (.buffer second)),
    .answered 1 (.freeLocked first) (.error (.lifecycle (.foreign 1 1 2))),
    .answered 0 (.freeLocked first) (.ok .done),
    .answered 0 (.freeLocked first) (.error (.lifecycle (.unknown 1))),
    .answered 1 (.freeLocked first) (.error (.lifecycle (.foreign 1 1 2))),
    .answered 0 (.freeLocked ordinary) (.error (.lifecycle .notLocked))]

end TwoDevices

open TwoDevices in
/-- Both devices hand out buffers from number 1 on, and still neither takes the
other's for its own. -/
theorem exact_of_run?_two_devices : ∃ f, (start none { nextPool := 1 }).run? acts = some f ∧
    f.journal = happened ∧ f.live = [some [], some [2]] ∧ Exact 1 f := by
  have hend : ((start none { nextPool := 1 }).run? acts).map (fun f => (f.journal, f.live)) =
      some (happened, [some [], some [2]]) := rfl
  obtain ⟨f, hf, heq⟩ := Option.map_eq_some_iff.mp hend
  obtain ⟨hjournal, hlive⟩ := Prod.mk.inj heq
  have hsource : World.HasSource { nextPool := 1 } none := trivial
  exact ⟨f, hf, hjournal, hlive, exact_of_run? hsource hf⟩

end Fleet
end BlockTransfer
