import BlockTransfer.Proofs.Traffic.Tracking
/-!
# What will have become of the storage

Where a caller stands and which operations are under way tell what the storage
will be once all of it has ended: the operations carry their whole ranges, then
the one in the caller's hands carries its own. A write in the caller's hands has
emptied its file already, so whatever an earlier operation still writes there
will not be seen: that operation is buried.

No move of a worker changes this outlook, and a caller's moves turn it into the
outlook of the next order carried out at once.

Key definitions: `Stage.pending`, `Stage.buries`, `Stage.finish`,
`Stage.opening`, `Stage.view`.
Key theorems: `Operation.carryAll_bury`, `Stage.finish_of_write`,
`Traffic.perform_eq`.
-/

namespace BlockTransfer

namespace Operation

variable {o : Operation} {ops : List Operation} {s : Storage}

theorem Located.carryAll (ho : o.Located s) (hr : ∀ q ∈ ops, q.Ready s) :
    o.Located (carryAll ops s) := by
  induction ops generalizing s with
  | nil => exact ho
  | cons p ops ih =>
    have hp := hr p List.mem_cons_self
    refine ih (ho.carry hp.toLocated _ (Nat.le_refl _)) fun q hq => ?_
    exact (hr q (List.mem_cons_of_mem _ hq)).carry hp (Nat.le_refl _)

theorem Ready.carryAll (ho : o.Ready s) (hr : ∀ q ∈ ops, q.Ready s) :
    o.Ready (carryAll ops s) := by
  induction ops generalizing s with
  | nil => exact ho
  | cons p ops ih =>
    have hp := hr p List.mem_cons_self
    refine ih (ho.carry hp (Nat.le_refl _)) fun q hq => ?_
    exact (hr q (List.mem_cons_of_mem _ hq)).carry hp (Nat.le_refl _)

/-- Before a file is set, writes to it need not be carried. -/
theorem carryAll_bury {h : FileSystem.Handle} (hg : ∀ q ∈ ops, q.Grounded s)
    (hw : ∀ q ∈ ops, q.handle = h → q.direction = .write) (data : Bytes) :
    (carryAll ops s).putFile h.at_ data =
      carryAll (ops.filter fun q => q.handle ≠ h) (s.putFile h.at_ data) := by
  induction ops generalizing s with
  | nil => rfl
  | cons q ops ih =>
    have hq := hg q List.mem_cons_self
    rw [carryAll_cons, ih (fun p hp => (hg p (List.mem_cons_of_mem _ hp)).carry q _)
      fun p hp => hw p (List.mem_cons_of_mem _ hp)]
    by_cases hh : q.handle = h
    · rw [List.filter_cons_of_neg (by simpa using hh), carry_write (hw q List.mem_cons_self hh), hh,
        Storage.putFile_putFile]
    · have hat : q.handle.at_ ≠ h.at_ := fun hat => hh (congrArg FileSystem.Handle.mk hat)
      rw [List.filter_cons_of_pos (by simpa using hh), carryAll_cons, carry_putFile_of_ne hq hat]

end Operation

namespace Traffic

open Operation

/-! ### Stages -/

namespace Stage

/-- The operation that a caller has in its hands before it starts it. -/
def pending : Stage → Option Operation
  | .located o | .opened o | .admitted o => some o
  | _ => none

/-- Whether the file of an operation has been given up to a write in the
caller's hands. -/
def buries (st : Stage) (q : Operation) : Bool :=
  match st.pending with
  | some o => decide (o.direction = .write ∧ q.handle = o.handle)
  | none => false

/-- The operations that are not buried. -/
def live (st : Stage) (ops : List Operation) : List Operation := ops.filter fun q => !st.buries q

/-- The storage after the operations under way have ended. -/
def view (st : Stage) (ops : List Operation) (s : Storage) : Storage := carryAll (st.live ops) s

/-- The storage after the operation in the caller's hands has ended, too. -/
def finish (st : Stage) (s : Storage) : Storage :=
  match st with
  | .located o =>
    match o.fit s with
    | .ok s => o.carry o.whole s
    | .error _ => s
  | .opened o | .admitted o => o.carry o.whole s
  | _ => s

/-- What opening the file comes to for the operation in the caller's hands. -/
def opening (st : Stage) (s : Storage) : List (Except TransferError Operation) :=
  match st with
  | .located o => [(o.fit s).map fun _ => o]
  | .opened o | .admitted o => [.ok o]
  | _ => []

/-- The operation in the caller's hands has its file. -/
def Sound (s : Storage) : Stage → Prop
  | .located o => o.Located s
  | .opened o | .admitted o => o.Ready s
  | _ => True

variable {st : Stage} {o q : Operation} {ops : List Operation} {s : Storage}

theorem pending_launched (n len : Nat) (ranges : List ByteRange) :
    (Stage.launched n len ranges).pending = none := by
  cases ranges <;> rfl

theorem buries_of_pending_none (h : st.pending = none) (q : Operation) : st.buries q = false := by
  rw [buries, h]

theorem buries_iff (h : st.pending = some o) :
    st.buries q = true ↔ o.direction = .write ∧ q.handle = o.handle := by
  rw [buries, h]
  exact decide_eq_true_iff

theorem exists_pending_of_buries (h : st.buries q = true) : ∃ o, st.pending = some o := by
  cases hp : st.pending with
  | none => simp [buries, hp] at h
  | some o => exact ⟨o, rfl⟩

/-- What is apart from the operation in hand is not buried by it. -/
theorem not_buries_of_apart (h : st.pending = some o) (ha : q.Apart o) : ¬st.buries q = true := by
  intro hbur
  obtain ⟨hd, hh⟩ := (buries_iff h).mp hbur
  rw [(ha.file hh).2] at hd
  cases hd

theorem live_of_pending_none (h : st.pending = none) (ops : List Operation) : st.live ops = ops :=
  List.filter_eq_self.mpr fun q _ => by rw [buries_of_pending_none h q]; rfl

theorem live_of_read (h : st.pending = some o) (hd : o.direction = .read) (ops : List Operation) :
    st.live ops = ops :=
  List.filter_eq_self.mpr fun q _ => by simp [buries, h, hd]

theorem live_of_write (h : st.pending = some o) (hd : o.direction = .write)
    (ops : List Operation) : st.live ops = ops.filter fun q => q.handle ≠ o.handle :=
  List.filter_congr fun q _ => by simp [buries, h, hd]

theorem mem_live : q ∈ st.live ops ↔ q ∈ ops ∧ ¬st.buries q = true := by
  simp [live]

theorem sound_of_pending_none (h : st.pending = none) (s : Storage) : st.Sound s := by
  cases st <;> trivial

/-- The operation in hand has its file also once the others have ended. -/
theorem Sound.view (h : st.Sound s) (hr : ∀ q ∈ st.live ops, q.Ready s) :
    st.Sound (st.view ops s) := by
  cases st with
  | located o => exact Located.carryAll h hr
  | opened o => exact Ready.carryAll h hr
  | admitted o => exact Ready.carryAll h hr
  | _ => trivial

theorem Sound.located (h : st.Sound s) (hp : st.pending = some o) : o.Located s := by
  cases st <;> cases hp
  · exact h
  · exact h.toLocated
  · exact h.toLocated

/-- A write in hand will set its file to the bytes of its buffer, whatever the
file holds till then. -/
theorem finish_of_write (hp : st.pending = some o) (hd : o.direction = .write) (h : st.Sound s) :
    st.finish s = s.putFile o.handle.at_ (s.memory.bytes o.buffer) := by
  have hready : ∀ {s}, o.Ready s →
      o.carry o.whole s = s.putFile o.handle.at_ (s.memory.bytes o.buffer) := fun hr =>
    carry_whole_write hd hr.holds (Nat.le_of_eq (hr.target hd))
  cases st <;> cases hp
  · have hr := ready_of_fit h (fit_write hd s)
    simp only [finish, fit_write hd, hready hr, Storage.putFile_putFile, Storage.memory_putFile]
  · exact hready h
  · exact hready h

theorem opening_of_write (hp : st.pending = some o) (hd : o.direction = .write) (s : Storage) :
    st.opening s = [.ok o] := by
  cases st <;> cases hp
  · simp only [opening, fit_write hd]
    rfl
  · rfl
  · rfl

/-- Nothing will be seen of bytes that are set in the file of a write in hand. -/
theorem finish_putFile (hp : st.pending = some o) (hd : o.direction = .write) {data : Bytes}
    (h : st.Sound s) (h' : st.Sound (s.putFile o.handle.at_ data)) :
    st.finish (s.putFile o.handle.at_ data) = st.finish s := by
  rw [finish_of_write hp hd h, finish_of_write hp hd h', Storage.putFile_putFile,
    Storage.memory_putFile]

end Stage

/-! ### Workers do not change the outlook -/

variable {first t : Traffic} {schedule : List Event} {st : Stage}

/-- What opening the file in a caller's hands comes to, and what the storage will
be once everything under way and in its hands has ended. -/
def outlook (t : Traffic) (st : Stage) : List (Except TransferError Operation) × Storage :=
  let s := st.view t.ground.engine.operations t.ground.storage
  (st.opening s, st.finish s)

/-- The storage once everything under way has ended. -/
def ahead (t : Traffic) : Storage := carryAll t.ground.engine.operations t.ground.storage

/-- With no file in the caller's hands nothing is buried, and nothing is to come. -/
theorem outlook_of_pending_none (h : st.pending = none) : t.outlook st = ([], t.ahead) := by
  have hview : st.view t.ground.engine.operations t.ground.storage = t.ahead := by
    rw [Stage.view, Stage.live_of_pending_none h, ahead]
  simp only [outlook, hview]
  cases st <;> first | rfl | cases h

/-- The operations under way are kept track of, the one in the caller's hands has
its file, and what is buried is no longer than what buries it. -/
structure Prospect (first t : Traffic) (st : Stage) : Prop where
  stage : st.Sound t.ground.storage
  sound : Sound first (st.buries · = true) t
  within : ∀ o, st.pending = some o → ∀ q ∈ t.ground.engine.operations, st.buries q = true →
    q.buffer.len ≤ o.buffer.len

namespace Prospect

theorem ready_of_live (h : Prospect first t st) :
    ∀ q ∈ st.live t.ground.engine.operations, q.Ready t.ground.storage := by
  intro q hq
  obtain ⟨hmem, hlive⟩ := Stage.mem_live.mp hq
  exact h.sound.ready q hmem hlive

section Carry

variable (h : Prospect first t st) {n : Nat} {q : Operation} {r : ByteRange}
  (hq : t.ground.engine.operation? n = some q) (hn : r.stop ≤ q.buffer.len)

include h hq hn

/-- The operation in hand keeps its file while others carry their ranges. -/
theorem stage_carry : st.Sound (q.carry r t.ground.storage) := by
  have hmem := Engine.mem_operations hq
  have hl := h.sound.located q hmem
  have hready : ∀ {o}, st.pending = some o → o.Ready t.ground.storage →
      o.Ready (q.carry r t.ground.storage) := by
    intro o hp ho
    refine ho.carry_of_le hl hn fun hd hat => ?_
    have hh : o.handle = q.handle := congrArg FileSystem.Handle.mk hat
    by_cases hburied : st.buries q = true
    · rw [ho.target ((Stage.buries_iff hp).mp hburied).1]
      exact Nat.le_trans hn (h.within o hp q hmem hburied)
    · rw [hh, (h.sound.ready q hmem hburied).target hd]
      exact hn
  have hstage := h.stage
  cases st with
  | located o => exact hstage.carry hl r hn
  | opened o => exact hready rfl hstage
  | admitted o => exact hready rfl hstage
  | _ => trivial

theorem outlook_carry (hb : Balanced t) (hr : r.start ≤ r.stop) {g : Ground}
    (hg : g.storage = q.carry r t.ground.storage)
    (hops : g.engine.operations = t.ground.engine.operations) :
    outlook { t with ground := g } st = t.outlook st := by
  have hmem := Engine.mem_operations hq
  have hgrounded : ∀ p ∈ st.live t.ground.engine.operations, p.Grounded t.ground.storage :=
    fun p hp => (h.ready_of_live p hp).grounded
  simp only [outlook, hg, hops]
  by_cases hburied : st.buries q = true
  · -- the bytes go to a file that the operation in hand will set
    obtain ⟨o, hp⟩ := Stage.exists_pending_of_buries hburied
    obtain ⟨hd, hh⟩ := (Stage.buries_iff hp).mp hburied
    have hcarry := carry_write (h.sound.write q hmem hburied) r t.ground.storage
    have hview := h.stage.view h.ready_of_live
    have hview' : st.Sound (st.view t.ground.engine.operations (q.carry r t.ground.storage)) := by
      refine (h.stage_carry hq hn).view fun p hp => ?_
      obtain ⟨hmem', hlive⟩ := Stage.mem_live.mp hp
      exact h.sound.ready_carry hq hn hb hmem' hlive
    have hne : ∀ p ∈ st.live t.ground.engine.operations, p.handle.at_ ≠ o.handle.at_ := by
      intro p hpl hat
      obtain ⟨-, hlive⟩ := Stage.mem_live.mp hpl
      exact hlive ((Stage.buries_iff hp).mpr ⟨hd, congrArg FileSystem.Handle.mk hat⟩)
    have hswap : ∀ data, st.view t.ground.engine.operations
        (t.ground.storage.putFile o.handle.at_ data) =
          (st.view t.ground.engine.operations t.ground.storage).putFile o.handle.at_ data :=
      carryAll_putFile hgrounded hne
    rw [hcarry, hh, hswap] at hview' ⊢
    rw [Stage.finish_putFile hp hd hview hview', Stage.opening_of_write hp hd,
      Stage.opening_of_write hp hd]
  · have hlive : q ∈ st.live t.ground.engine.operations := Stage.mem_live.mpr ⟨hmem, hburied⟩
    have hview : st.view t.ground.engine.operations (q.carry r t.ground.storage) =
        st.view t.ground.engine.operations t.ground.storage :=
      carryAll_carry (h.sound.apart.sublist List.filter_sublist) hgrounded hlive hr hn
    rw [hview]

end Carry

/-- An operation that is reported has nothing left to carry, or is buried. -/
theorem view_report (h : Prospect first t st) (hb : Balanced t) (hs : Setting first) {n : Nat}
    (hn : n ∈ t.closing) (result : Except TransferError Unit) :
    st.view (t.ground.engine.report n result).operations t.ground.storage =
      st.view t.ground.engine.operations t.ground.storage := by
  obtain ⟨f, hf, -⟩ := hb.flight_of_closing hn
  have hq := Engine.operation?_of_flight? hf
  obtain ⟨ops₁, ops₂, hops, hrest⟩ := Engine.operations_report hf hb.nodup_numbers result
  have hapart := h.sound.apart.sublist (List.filter_sublist (p := fun q => !st.buries q))
  have hready : ∀ q ∈ st.live t.ground.engine.operations, q.Grounded t.ground.storage :=
    fun q hq => (h.ready_of_live q hq).grounded
  rw [hrest]
  rw [hops] at hapart hready ⊢
  simp only [Stage.view, Stage.live, List.filter_append] at hapart hready ⊢
  by_cases hburied : st.buries f.operation = true
  · rw [List.filter_cons_of_neg (by simp [hburied])]
  · rw [List.filter_cons_of_pos (by simp [hburied])] at hapart hready ⊢
    have hwhole := h.sound.inPlace_whole hs (hb.not_waiting_of_closing hn).1 hq hburied
    exact carryAll_erase hapart hready hwhole

section Worker

variable {i : Nat} {w w' : Worker} {g : Ground} (h : Prospect first t st) (hs : Setting first)
  (hrec : Recorded first schedule t) (hw : t.workers[i]? = some w)
  (hmove : w.Move i t.ground w' g)

include h hs hrec hw hmove

theorem workerMove : Prospect first (t.moveWorker i w' g) st := by
  have hsound := h.sound.workerMove hs hrec hw hmove
  cases h.sound.effect_of_workerMove hs hrec hw hmove with
  | none storage operations =>
    exact ⟨storage.symm ▸ h.stage, hsound, fun o hp q hq => h.within o hp q (operations ▸ hq)⟩
  | block hj hq hr hstop hn storage operations =>
    exact ⟨storage.symm ▸ h.stage_carry hq hn, hsound,
      fun o hp q hq => h.within o hp q (operations ▸ hq)⟩
  | reported n result closing ground =>
    subst ground
    exact ⟨h.stage, hsound, fun o hp q hq =>
      h.within o hp q ((Engine.operations_report_sublist _ _ _).mem hq)⟩

theorem outlook_workerMove : (t.moveWorker i w' g).outlook st = t.outlook st := by
  cases h.sound.effect_of_workerMove hs hrec hw hmove with
  | none storage operations => simp only [outlook, moveWorker, storage, operations]
  | block hj hq hr hstop hn storage operations =>
    exact h.outlook_carry hq hn hrec.balanced (Nat.le_of_lt hr) storage operations
  | reported n result closing ground =>
    subst ground
    have hview := h.view_report hrec.balanced hs closing result
    simp only [outlook, moveWorker, Ground.report, Ground.run, Ground.log, hview]

end Worker

end Prospect

/-! ### An order carried out at once, in two moves -/

theorem perform_eq {c : Order} {blockSize : Nat} {s : Storage} (hb : 0 < blockSize)
    (hm : s.memory.Holds c.buffer) :
    c.perform blockSize s = match locate c blockSize s with
      | .error e => (.error e, s)
      | .ok (o, s') => ((o.fit s').map fun _ => o, (Stage.located o).finish s') := by
  unfold Order.perform openFile
  cases hl : locate c blockSize s with
  | error e => rfl
  | ok x =>
    obtain ⟨o, s'⟩ := x
    cases hf : o.fit s' with
    | ok s₁ =>
      simp only [hf, Except.map, Stage.finish]
      rfl
    | error e =>
      have hread := (locate_spec hb hm hl).read (read_of_fit_error hf)
      simp only [hf, Except.map, Stage.finish]
      rw [hread]

theorem perform_of_locate_write {c : Order} {blockSize : Nat} {s s' : Storage} {o : Operation}
    (hl : locate c blockSize s = .ok (o, s')) (hd : o.direction = .write) :
    (c.perform blockSize s).1 = .ok o := by
  simp only [Order.perform, openFile, hl, fit_write hd, Except.map]

end Traffic
end BlockTransfer
