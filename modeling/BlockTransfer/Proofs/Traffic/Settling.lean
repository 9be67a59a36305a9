import BlockTransfer.Proofs.Traffic.Alone
/-!
# How the orders of one caller end

A caller comes with a list of orders and a wait to a device at rest. After every
schedule it stands somewhere in the list, or its wait is answered and no one can
move any more (`Traffic.alone_or_settled_of_run?`). Then the device is at rest
again, the storage is what the orders leave when they are carried out at once,
and so are the answers.

Key definitions: `Traffic.startAlone`.
Key theorems: `Traffic.alone_or_settled_of_run?`, `Traffic.Settled.stuck`.
-/

namespace BlockTransfer
namespace Traffic

open Operation

/-- One caller comes with orders, and waits for all of them at the end. -/
def startAlone (d : PosixDevice) (s : Storage) (calls : List Order) : Traffic :=
  start d s [calls.map .transfer ++ [.wait]]

variable {d : PosixDevice} {s : Storage} {calls rest : List Order} {first t t' : Traffic}
  {schedule : List Event} {c : Caller} {past : List (Except TransferError Operation)}

theorem setting_startAlone (hd : d.AtRest) (hlt : d.settings.blockSize < Word.count) :
    Setting (startAlone d s calls) where
  blockSize_pos := hd.blockSize_pos
  blockSize_lt := hlt
  workers := by
    show 0 < d.engine.workerCount
    rw [hd.workerCount]
    exact hd.valid.threadCount

/-- At the start the caller has everything before it. -/
theorem alone_start (hd : d.AtRest) (hm : ∀ order ∈ calls, s.memory.Holds order.buffer) :
    Alone (startAlone d s calls) calls (startAlone d s calls)
      { errands := calls.map .transfer ++ [.wait] } [] calls := by
  have hops : (startAlone d s calls).ground.engine.operations = [] := by
    show d.engine.operations = []
    rw [Engine.operations, hd.flights]
    rfl
  have hnone : ∀ n q, (startAlone d s calls).ground.engine.operation? n ≠ some q := by
    intro n q hq
    have hmem := Engine.mem_operations hq
    rw [hops] at hmem
    cases hmem
  have hahead : (startAlone d s calls).ahead = s := by
    rw [ahead, hops]
    rfl
  have hmem : ∀ q, q ∉ (startAlone d s calls).ground.engine.operations := by
    rw [hops]
    exact fun q => List.not_mem_nil
  refine
    { callers := rfl
      errands := rfl
      holds := hm
      directories := .refl _
      prospect := ⟨trivial, ?_, fun o ho => by cases ho⟩
      outlook := ?_
      empty := fun n q hq => absurd hq (hnone n q)
      under := hops ▸ .refl _
      last := fun _ => hops ▸ ⟨List.nil_suffix, Nat.zero_le 1⟩
      admitted := fun o ho => by cases ho
      answers := rfl
      launched := rfl
      undrained := fun _ => List.not_mem_nil }
  · refine ⟨hops ▸ .nil, fun q hq => absurd hq (hmem q), fun q hq => absurd hq (hmem q),
      fun q hq => absurd hq (hmem q), fun q hq => absurd hq (hmem q),
      fun n q hq => absurd hq (hnone n q), fun w hw => ?_⟩
    rw [(List.mem_replicate.mp hw).2]
    trivial
  · rw [outlook_of_pending_none rfl, hahead]
    rfl

/-- A caller that has not been answered the wait is not through. -/
theorem Alone.not_isOver (h : Alone first calls t c past rest) : ¬t.isOver = true := by
  have herr := h.errands
  simp [isOver, h.callers, herr]

/-- Once the wait is answered no one can move. -/
theorem Settled.stuck (h : Settled first calls t) (hb : Balanced t) (e : Event) :
    t.step? e = none := by
  cases e with
  | caller i =>
    by_contra hne
    obtain ⟨t', hstep⟩ := Option.ne_none_iff_exists'.mp hne
    obtain ⟨c, c', g, hc, hmove, rfl⟩ := caller_of_step? hstep
    obtain ⟨answer, journal, hcallers, -⟩ := h.answered
    rw [hcallers] at hc
    have hmem := List.mem_of_getElem? hc
    rw [List.mem_singleton.mp hmem] at hmove
    cases hmove
  | worker i => exact hb.step?_worker_eq_none h.idle i

/-- The device is at rest again. -/
theorem Settled.atRest (h : Settled first calls t) (hd : d.AtRest) (hb : Balanced t)
    (hsame : t.ground.engine.SameSettings d.engine) :
    PosixDevice.AtRest { d with engine := t.ground.engine } := by
  have hflights : t.ground.engine.flights = [] := List.map_eq_nil_iff.mp h.idle
  have hlen : t.ground.engine.inboxes.length = d.settings.threadCount :=
    hsame.workers.trans hd.workerCount
  exact
    { valid := hd.valid
      queueDepth := hsame.queueDepth.trans hd.queueDepth
      singleSubmit := hsame.singleSubmit.trans hd.singleSubmit
      overlapEvents := hsame.overlapEvents.trans hd.overlapEvents
      inboxes := List.eq_replicate_iff.mpr ⟨hlen, hb.inboxes_eq_nil h.idle⟩
      flights := hflights
      completion := h.completion }

theorem blockSize_of_run? (hrun : first.run? schedule = some t) :
    t.blockSize = first.blockSize := by
  refine run_induction (P := fun _ u => u.blockSize = first.blockSize) rfl ?_ hrun
  intro before u e u' _ hu hstep
  cases e with
  | caller i =>
    obtain ⟨c, c', g, -, -, rfl⟩ := caller_of_step? hstep
    exact hu
  | worker i =>
    obtain ⟨w, w', g, -, -, rfl⟩ := worker_of_step? hstep
    exact hu

/-- The books of a single caller are in order after every schedule. -/
theorem recorded_startAlone (hd : d.AtRest)
    (hrun : (startAlone d s calls).run? schedule = some t) :
    Recorded (startAlone d s calls) schedule t := by
  refine recorded_of_run? (Balanced.of_start hd _ _) rfl hd.completion ?_ hrun
  simp [verdicts, startAlone, start, Stage.verdict, List.flatMap_replicate, Worker.verdict]

/-- No schedule goes on for ever. -/
theorem exists_bound (hd : d.AtRest) : ∃ bound, ∀ schedule t,
    (startAlone d s calls).run? schedule = some t → schedule.length ≤ bound := by
  refine ⟨(startAlone d s calls).work, fun schedule t hrun => ?_⟩
  exact Nat.le_trans (Nat.le_add_right _ _)
    (length_add_work_le (Balanced.of_start hd s _) (regular_start hd s _) hrun)

/-- No one is stuck before the caller is through. -/
theorem isOver_of_stuck (hd : d.AtRest) (hrun : (startAlone d s calls).run? schedule = some t)
    (hstuck : ∀ e, t.step? e = none) : t.isOver = true :=
  (done_of_stuck hstuck (recorded_startAlone hd hrun).balanced
    ((regular_start hd s _).run (Balanced.of_start hd s _) hrun)).1

/-- The caller stands somewhere in its list, or its wait is answered. -/
theorem alone_or_settled_of_run? (hd : d.AtRest) (hlt : d.settings.blockSize < Word.count)
    (hm : ∀ order ∈ calls, s.memory.Holds order.buffer)
    (hclear : Clear d.settings.overlapEvents
      (accepted (Order.performAll d.settings.blockSize calls s).1))
    (hrun : (startAlone d s calls).run? schedule = some t) :
    (∃ c past rest, Alone (startAlone d s calls) calls t c past rest) ∨
      Settled (startAlone d s calls) calls t := by
  have hs : Setting (startAlone d s calls) := setting_startAlone hd hlt
  refine run_induction (P := fun _ u => (∃ c past rest, Alone (startAlone d s calls) calls u c past
    rest) ∨ Settled (startAlone d s calls) calls u) ?_ ?_ hrun
  · exact .inl ⟨_, _, _, alone_start hd hm⟩
  · intro before u e u' hu h hstep
    have hrec := recorded_startAlone hd hu
    have hreg := (regular_start hd s _).run (Balanced.of_start hd s _) hu
    rcases h with ⟨c, past, rest, h⟩ | h
    · cases e with
      | caller i =>
        obtain ⟨c₀, c', g, hc, hmove, rfl⟩ := caller_of_step? hstep
        obtain ⟨rfl, rfl⟩ := eq_of_single_caller h.callers hc
        have hover : (startAlone d s calls).ground.engine.overlapEvents =
          d.settings.overlapEvents := hd.overlapEvents
        rcases h.callerMove hs hrec hreg (blockSize_of_run? hu) (sameSettings_of_run? hu)
          (hover ▸ hclear) hmove with ⟨past', rest', h'⟩ | h'
        · exact .inl ⟨c', past', rest', h'⟩
        · exact .inr h'
      | worker i =>
        obtain ⟨w, w', g, hw, hmove, rfl⟩ := worker_of_step? hstep
        exact .inl ⟨c, past, rest, h.workerMove hs hrec hw hmove⟩
    · rw [h.stuck hrec.balanced e] at hstep
      cases hstep

end Traffic
end BlockTransfer
