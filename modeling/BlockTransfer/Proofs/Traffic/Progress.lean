import BlockTransfer.Proofs.Traffic.Ledger
import Mathlib.Algebra.GroupWithZero.Nat
/-!
# Schedules end, and end well

A schedule cannot go on for ever: every move uses up some of the work that is
left (`Traffic.work`). And where no one can move, nothing is left to do: a worker
with something in its inbox or its hands can move, so all jobs have ended; then
whoever has an end to report can move, so nothing is in flight; then no caller
has to wait. So there is no deadlock, however small the inboxes are.

Key definitions: `Traffic.Regular`, `Traffic.work`.
Key theorems: `Traffic.Regular.run`, `Traffic.work_lt_of_step?`,
`Traffic.length_add_work_le`, `Traffic.done_of_stuck`.
-/

namespace BlockTransfer

/-! ### What never changes -/

namespace Engine

/-- The engines have the same settings and as many workers. -/
structure SameSettings (e e' : Engine) : Prop where
  queueDepth : e.queueDepth = e'.queueDepth
  singleSubmit : e.singleSubmit = e'.singleSubmit
  overlapEvents : e.overlapEvents = e'.overlapEvents
  workers : e.inboxes.length = e'.inboxes.length

variable {e e' : Engine}

theorem SameSettings.refl (e : Engine) : e.SameSettings e := ⟨rfl, rfl, rfl, rfl⟩

theorem SameSettings.trans {e'' : Engine} (h : e.SameSettings e') (h' : e'.SameSettings e'') :
    e.SameSettings e'' :=
  ⟨h.queueDepth.trans h'.queueDepth, h.singleSubmit.trans h'.singleSubmit,
    h.overlapEvents.trans h'.overlapEvents, h.workers.trans h'.workers⟩

/-- So they cut an operation into the same jobs. -/
theorem SameSettings.plan (h : e.SameSettings e') (o : Operation) : e.plan o = e'.plan o := by
  simp only [Engine.plan, workerCount, h.workers, h.singleSubmit]

theorem put?_sameSettings {worker : Nat} {j : Job} (h : e.put? worker j = some e') :
    e'.SameSettings e := by
  unfold put? at h
  split at h
  · cases h
  · split at h
    · cases h
      exact ⟨rfl, rfl, rfl, List.length_set⟩
    · cases h

theorem take?_sameSettings {worker : Nat} {j : Job} (h : e.take? worker = some (j, e')) :
    e'.SameSettings e := by
  unfold take? at h
  split at h
  · cases h
    exact ⟨rfl, rfl, rfl, List.length_set⟩
  · cases h

/-- No inbox holds more jobs than its depth allows. -/
def Roomy (e : Engine) : Prop := ∀ inbox ∈ e.inboxes, inbox.length ≤ e.queueDepth

theorem Roomy.congr (h : e.Roomy) (hd : e'.queueDepth = e.queueDepth)
    (hi : e'.inboxes = e.inboxes) : e'.Roomy := by
  unfold Roomy
  rw [hd, hi]
  exact h

theorem Roomy.put? {worker : Nat} {j : Job} (hr : e.Roomy) (h : e.put? worker j = some e') :
    e'.Roomy := by
  unfold Engine.put? at h
  split at h
  · cases h
  · split at h
    · rename_i inbox _ hlt
      cases h
      intro b hb
      rcases List.mem_or_eq_of_mem_set hb with hb | rfl
      · exact hr b hb
      · rw [List.length_append]
        exact hlt
    · cases h

theorem Roomy.take? {worker : Nat} {j : Job} (hr : e.Roomy) (h : e.take? worker = some (j, e')) :
    e'.Roomy := by
  unfold Engine.take? at h
  split at h
  · rename_i k inbox hi
    cases h
    intro b hb
    rcases List.mem_or_eq_of_mem_set hb with hb | rfl
    · exact hr b hb
    · exact Nat.le_of_succ_le (hr _ (List.mem_of_getElem? hi))
  · cases h

theorem note_sameSettings (e : Engine) (n : Nat) (error : TransferError) :
    (e.note n error).SameSettings e := by
  unfold note
  split <;> exact ⟨rfl, rfl, rfl, rfl⟩

theorem retire_sameSettings (e : Engine) (n : Nat) : (e.retire n).2.SameSettings e := by
  unfold retire
  split <;> exact ⟨rfl, rfl, rfl, rfl⟩

end Engine

namespace Traffic

theorem Caller.Move.sameSettings {blockSize : Nat} {c c' : Caller} {g g' : Ground}
    (h : c.Move blockSize g c' g') : g'.engine.SameSettings g.engine := by
  cases h with
  | placed h => exact Engine.put?_sameSettings h
  | _ => exact ⟨rfl, rfl, rfl, rfl⟩

theorem Worker.Move.sameSettings {index : Nat} {w w' : Worker} {g g' : Ground}
    (h : w.Move index g w' g') : g'.engine.SameSettings g.engine := by
  cases h with
  | taken h => exact Engine.take?_sameSettings h
  | failed => exact Engine.note_sameSettings _ _ _
  | retired => exact Engine.retire_sameSettings _ _
  | _ => exact ⟨rfl, rfl, rfl, rfl⟩

theorem Caller.Move.roomy {blockSize : Nat} {c c' : Caller} {g g' : Ground}
    (h : c.Move blockSize g c' g') (hr : g.engine.Roomy) : g'.engine.Roomy := by
  cases h with
  | placed h => exact hr.put? h
  | _ => exact hr.congr rfl rfl

theorem Worker.Move.roomy {index : Nat} {w w' : Worker} {g g' : Ground}
    (h : w.Move index g w' g') (hr : g.engine.Roomy) : g'.engine.Roomy := by
  cases h with
  | taken h => exact hr.take? h
  | failed => exact hr.congr (Engine.note_sameSettings _ _ _).queueDepth (Engine.inboxes_note _ _ _)
  | retired =>
    exact hr.congr (Engine.retire_sameSettings _ _).queueDepth (Engine.inboxes_retire _ _)
  | _ => exact hr.congr rfl rfl

theorem sameSettings_of_step? {t t' : Traffic} {e : Event} (h : t.step? e = some t') :
    t'.ground.engine.SameSettings t.ground.engine := by
  cases e with
  | caller i =>
    obtain ⟨c, c', g, -, hmove, rfl⟩ := caller_of_step? h
    exact hmove.sameSettings
  | worker i =>
    obtain ⟨w, w', g, -, hmove, rfl⟩ := worker_of_step? h
    exact hmove.sameSettings

theorem sameSettings_of_run? {t t' : Traffic} {schedule : List Event}
    (h : t.run? schedule = some t') : t'.ground.engine.SameSettings t.ground.engine :=
  run_induction (P := fun _ u => u.ground.engine.SameSettings t.ground.engine) (.refl _)
    (fun _ _ _ _ _ hu hstep => (sameSettings_of_step? hstep).trans hu) h

/-! ### Traffic of one device -/

/-- The stage suits a device with that block size and that many workers. -/
def Stage.Regular (blockSize workers : Nat) : Stage → Prop
  | .located o | .opened o | .admitted o => o.blockSize = blockSize
  | .placing _ _ worker _ _ => worker < workers
  | _ => True

/-- There are workers, each with an inbox of a depth that is kept to, and all
operations have the device's block size. -/
structure Regular (t : Traffic) : Prop where
  workers : t.ground.engine.inboxes.length = t.workers.length
  workers_pos : 0 < t.workers.length
  room : 0 < t.ground.engine.queueDepth
  roomy : t.ground.engine.Roomy
  operations : ∀ o ∈ t.ground.engine.operations, o.blockSize = t.blockSize
  callers : ∀ c ∈ t.callers, c.stage.Regular t.blockSize t.workers.length

variable {t t' : Traffic}

theorem regular_start {d : PosixDevice} (hd : d.AtRest) (s : Storage)
    (errands : List (List Errand)) : Regular (start d s errands) := by
  have hcount : d.engine.inboxes.length = d.settings.threadCount := hd.workerCount
  refine
    { workers := ?workers, workers_pos := ?workers_pos, room := ?room, roomy := ?roomy,
      operations := ?operations, callers := ?callers }
  case workers => simp [start, Engine.workerCount]
  case workers_pos =>
    simp only [start, Engine.workerCount, List.length_replicate, hcount]
    exact hd.valid.threadCount
  case room =>
    simp only [start, hd.queueDepth]
    exact hd.valid.queueDepth
  case roomy =>
    intro inbox hi
    have hi : inbox ∈ d.engine.inboxes := hi
    rw [hd.inboxes] at hi
    rw [(List.mem_replicate.mp hi).2]
    exact Nat.zero_le _
  case operations =>
    intro o ho
    simp [start, Engine.operations, hd.flights] at ho
  case callers =>
    intro c hc
    obtain ⟨errands, -, rfl⟩ := List.mem_map.mp hc
    trivial

/-- What is located is what was ordered. -/
theorem of_locate {c : Order} {blockSize : Nat} {s s' : Storage} {o : Operation}
    (h : Operation.locate c blockSize s = .ok (o, s')) :
    o.buffer = c.buffer ∧ o.blockSize = blockSize := by
  unfold Operation.locate at h
  split at h
  · split at h
    · cases h
    · cases h
      exact ⟨rfl, rfl⟩
  · split at h
    · cases h
    · cases h
      exact ⟨rfl, rfl⟩

/-- Every operation under way was so before, or it was admitted. -/
theorem Caller.Move.operations {blockSize : Nat} {c c' : Caller} {g g' : Ground}
    (h : c.Move blockSize g c' g') : ∀ o ∈ g'.engine.operations,
      o ∈ g.engine.operations ∨ c.stage = .admitted o := by
  have hsame : ∀ {e : Engine}, e.flights = g.engine.flights → ∀ o ∈ e.operations,
      o ∈ g.engine.operations ∨ c.stage = .admitted o := by
    intro e he o ho
    rw [Engine.operations, he] at ho
    exact .inl ho
  cases h with
  | placed h => exact hsame (put?_same h).1
  | @launched o es as =>
    intro o' ho'
    obtain ⟨x, hx, rfl⟩ := List.mem_map.mp ho'
    rcases List.mem_append.mp hx with hx | hx
    · exact .inl (List.mem_map.mpr ⟨x, hx, rfl⟩)
    · rw [List.mem_singleton.mp hx]
      exact .inr rfl
  | @reported n result es as =>
    intro o ho
    obtain ⟨x, hx, rfl⟩ := List.mem_map.mp ho
    exact .inl (List.mem_map.mpr ⟨x, (List.mem_filter.mp hx).1, rfl⟩)
  | _ => exact hsame rfl

theorem Worker.Move.operations {index : Nat} {w w' : Worker} {g g' : Ground}
    (h : w.Move index g w' g') (hn : g.engine.numbers.Nodup) :
    ∀ o ∈ g'.engine.operations, o ∈ g.engine.operations := by
  have hsame : ∀ {e : Engine}, e.flights = g.engine.flights → ∀ o ∈ e.operations,
      o ∈ g.engine.operations := by
    intro e he o ho
    rwa [Engine.operations, he] at ho
  cases h with
  | taken h hf => exact hsame (take?_same h).1
  | @failed j e =>
    intro o ho
    have hops := Engine.operations_note g.engine j.flight e hn
    exact hops ▸ ho
  | @retired n =>
    intro o ho
    have hops := Engine.operations_retire g.engine n hn
    exact hops ▸ ho
  | @reported n result =>
    intro o ho
    obtain ⟨x, hx, rfl⟩ := List.mem_map.mp ho
    exact List.mem_map.mpr ⟨x, (List.mem_filter.mp hx).1, rfl⟩
  | _ => exact hsame rfl

theorem Caller.Move.regular {blockSize workers : Nat} {c c' : Caller} {g g' : Ground}
    (h : c.Move blockSize g c' g') (hw : g.engine.inboxes.length = workers) (hpos : 0 < workers)
    (hc : c.stage.Regular blockSize workers) : c'.stage.Regular blockSize workers := by
  cases h with
  | located h => exact (of_locate h).2
  | fitted h => exact hc
  | admitted h => exact hc
  | turned =>
    subst hw
    exact Nat.mod_lt _ hpos
  | launched =>
    unfold Stage.launched
    split <;> trivial
  | _ => trivial

namespace Regular

theorem step (hb : Balanced t) (h : Regular t) {e : Event} (hstep : t.step? e = some t') :
    Regular t' := by
  cases e with
  | caller i =>
    obtain ⟨c, c', g, hc, hmove, rfl⟩ := caller_of_step? hstep
    have hsame := hmove.sameSettings
    have hmem := List.mem_of_getElem? hc
    refine
      { workers := hsame.workers.trans h.workers, workers_pos := h.workers_pos,
        room := hsame.queueDepth.symm ▸ h.room, roomy := hmove.roomy h.roomy,
        operations := ?operations, callers := ?callers }
    case operations =>
      intro o ho
      rcases hmove.operations o ho with ho | hstage
      · exact h.operations o ho
      · have := h.callers c hmem
        rw [hstage] at this
        exact this
    case callers =>
      intro d hd
      rcases List.mem_or_eq_of_mem_set hd with hd | rfl
      · exact h.callers d hd
      · exact hmove.regular h.workers h.workers_pos (h.callers c hmem)
  | worker i =>
    obtain ⟨w, w', g, hw, hmove, rfl⟩ := worker_of_step? hstep
    have hsame := hmove.sameSettings
    have hlen : (t.workers.set i w').length = t.workers.length := List.length_set
    refine
      { workers := (hsame.workers.trans h.workers).trans hlen.symm,
        workers_pos := hlen.symm ▸ h.workers_pos, room := hsame.queueDepth.symm ▸ h.room,
        roomy := hmove.roomy h.roomy, operations := fun o ho => ?operations,
        callers := fun c hc => ?callers }
    case operations => exact h.operations o (hmove.operations hb.nodup_numbers o ho)
    case callers =>
      show c.stage.Regular t.blockSize (t.workers.set i w').length
      rw [hlen]
      exact h.callers c hc

theorem run (hb : Balanced t) (h : Regular t) {schedule : List Event}
    (hrun : t.run? schedule = some t') : Regular t' :=
  (run_induction (P := fun _ u => Balanced u ∧ Regular u) ⟨hb, h⟩
    (fun _ _ _ _ _ hu hstep => ⟨hu.1.deed (deed_of_step? hstep), hu.2.step hu.1 hstep⟩) hrun).2

end Regular

/-! ### Where no one can move, all is done -/

section Stuck

variable (hstuck : ∀ e, t.step? e = none)

include hstuck

theorem caller_stuck {i : Nat} {c : Caller} (hc : t.callers[i]? = some c) :
    c.step? t.blockSize t.ground = none := by
  have h := hstuck (.caller i)
  simp only [step?, hc, Option.bind_eq_bind, Option.bind_some, Option.bind_eq_none_iff] at h
  cases hs : c.step? t.blockSize t.ground with
  | none => rfl
  | some x => exact absurd (h x hs) (by simp)

theorem worker_stuck {i : Nat} {w : Worker} (hw : t.workers[i]? = some w) :
    w.step? i t.ground = none := by
  have h := hstuck (.worker i)
  simp only [step?, hw, Option.bind_eq_bind, Option.bind_some, Option.bind_eq_none_iff] at h
  cases hs : w.step? i t.ground with
  | none => rfl
  | some x => exact absurd (h x hs) (by simp)

/-- A worker that cannot move is idle and has an empty inbox. -/
theorem idle_of_stuck (hb : Balanced t) (hr : Regular t) {i : Nat} {w : Worker}
    (hw : t.workers[i]? = some w) : w = .idle ∧ t.ground.engine.inboxes[i]? = some [] := by
  have hnone := worker_stuck hstuck hw
  have hmem := List.mem_of_getElem? hw
  have hheld : ∀ {j : Job}, j ∈ w.held → ∃ f, t.ground.engine.flight? j.flight = some f := by
    intro j hj
    obtain ⟨f, hf, -⟩ := hb.flight_of_waiting (mem_waiting_of_held hmem hj)
    exact ⟨f, hf⟩
  cases w with
  | idle =>
    refine ⟨rfl, ?_⟩
    have hi : i < t.ground.engine.inboxes.length := by
      rw [hr.workers]
      exact (List.getElem?_eq_some_iff.mp hw).1
    cases hin : t.ground.engine.inboxes[i] with
    | nil => rw [List.getElem?_eq_getElem hi, hin]
    | cons j inbox =>
      have hget : t.ground.engine.inboxes[i]? = some (j :: inbox) := by
        rw [List.getElem?_eq_getElem hi, hin]
      have hwait : j ∈ t.waiting := mem_waiting_of_inbox
        (List.mem_flatten.mpr ⟨_, List.mem_of_getElem? hget, List.mem_cons_self⟩)
      obtain ⟨f, hf, -⟩ := hb.flight_of_waiting hwait
      have hf' : t.ground.engine.flights.lookup j.flight = some f := hf
      simp [Worker.step?, Engine.take?, hget, Engine.flight?, hf'] at hnone
  | moving j blocks =>
    cases blocks with
    | nil => cases hnone
    | cons block blocks =>
      obtain ⟨f, hf⟩ := hheld (List.mem_singleton_self j)
      simp [Worker.step?, hf] at hnone
  | failed j e => cases hnone
  | done n => cases hnone
  | ending n => cases hnone
  | reporting n result => cases hnone

/-- A caller that cannot move, while the inboxes are empty, has no errand left,
or it waits until nothing is in flight. -/
theorem stage_of_stuck (hr : Regular t) (hempty : ∀ inbox ∈ t.ground.engine.inboxes, inbox = [])
    {c : Caller} (hc : c ∈ t.callers) :
    (c.stage = .free ∧ (c.errands = [] ∨ t.ground.engine.completion.isIdle = false)) ∨
      ∃ o, c.stage = .opened o ∧ t.ground.engine.completion.isIdle = false := by
  obtain ⟨i, hi⟩ := List.getElem?_of_mem hc
  have hnone := caller_stuck hstuck hi
  have hreg := hr.callers c hc
  obtain ⟨errands, stage, answers⟩ := c
  cases stage with
  | free =>
    refine .inl ⟨rfl, ?_⟩
    cases errands with
    | nil => exact .inl rfl
    | cons errand errands =>
      right
      cases errand with
      | wait =>
        by_contra hidle
        simp [Caller.step?, Caller.begin?, hidle] at hnone
      | transfer order =>
        simp only [Caller.step?, Caller.begin?] at hnone
        split at hnone <;> cases hnone
  | located o =>
    simp only [Caller.step?] at hnone
    split at hnone <;> cases hnone
  | opened o =>
    refine .inr ⟨o, rfl, ?_⟩
    by_contra hidle
    simp [Caller.step?, hidle] at hnone
  | admitted o => cases hnone
  | dealing n len ranges => cases ranges <;> cases hnone
  | placing n len worker range ranges =>
    have hlt : worker < t.ground.engine.inboxes.length := hr.workers ▸ hreg
    have hin := hempty _ (List.getElem_mem hlt)
    have hget : t.ground.engine.inboxes[worker]? = some [] := by
      rw [List.getElem?_eq_getElem hlt, hin]
    have hroom : ([] : List Job).length < t.ground.engine.queueDepth := hr.room
    simp only [Caller.step?, Engine.put?, hget, if_pos hroom] at hnone
    cases hnone
  | ending n => cases hnone
  | reporting n result => cases hnone

/-- No one can move only when every caller is through, no job is on its way and
nothing is in flight. -/
theorem done_of_stuck (hb : Balanced t) (hr : Regular t) :
    t.isOver = true ∧ t.waiting = [] ∧ t.ground.engine.numbers = [] := by
  have hworkers : ∀ w ∈ t.workers, w = .idle := by
    intro w hw
    obtain ⟨i, hi⟩ := List.getElem?_of_mem hw
    exact (idle_of_stuck hstuck hb hr hi).1
  have hempty : ∀ inbox ∈ t.ground.engine.inboxes, inbox = [] := by
    intro inbox hin
    obtain ⟨i, hi⟩ := List.getElem?_of_mem hin
    have hlt : i < t.workers.length := hr.workers ▸ (List.getElem?_eq_some_iff.mp hi).1
    have := (idle_of_stuck hstuck hb hr (List.getElem?_eq_getElem hlt)).2
    rw [hi] at this
    exact Option.some.inj this
  have hcallers := fun c (hc : c ∈ t.callers) => stage_of_stuck hstuck hr hempty hc
  have hwaiting : t.waiting = [] := by
    simp only [waiting, List.append_eq_nil_iff, List.flatMap_eq_nil_iff, List.flatten_eq_nil_iff]
    refine ⟨⟨fun c hc => ?_, hempty⟩, fun w hw => ?_⟩
    · rcases hcallers c hc with ⟨hs, -⟩ | ⟨o, hs, -⟩ <;> rw [hs] <;> rfl
    · rw [hworkers w hw]
      rfl
  have hspent : t.spent = [] := List.flatMap_eq_nil_iff.mpr fun w hw => by
    rw [hworkers w hw]
    rfl
  have hclosing : t.closing = [] := by
    simp only [closing, List.append_eq_nil_iff, List.flatMap_eq_nil_iff]
    refine ⟨fun c hc => ?_, fun w hw => ?_⟩
    · rcases hcallers c hc with ⟨hs, -⟩ | ⟨o, hs, -⟩ <;> rw [hs] <;> rfl
    · rw [hworkers w hw]
      rfl
  have hnumbers := hb.numbers_eq_nil hwaiting hspent hclosing
  have hidle : t.ground.engine.completion.isIdle = true := by
    have := hb.inFlight
    rw [hnumbers] at this
    rw [Completion.isIdle, this]
    rfl
  refine ⟨List.all_eq_true.mpr fun c hc => ?_, hwaiting, hnumbers⟩
  rcases hcallers c hc with ⟨hs, he | he⟩ | ⟨o, -, he⟩
  · rw [hs, he]
    rfl
  · rw [hidle] at he
    cases he
  · rw [hidle] at he
    cases he

end Stuck

/-! ### The work that is left -/

/-- The work that a range in an inbox asks for. -/
def moveCost (blockSize : Nat) (r : ByteRange) : Nat := (r.blocks blockSize).length + 5

/-- The work that ranges to be dealt ask for. -/
def dealCost (blockSize : Nat) (ranges : List ByteRange) : Nat :=
  (ranges.map fun r => moveCost blockSize r + 2).sum

/-- The work that the inboxes ask for. -/
def inboxCost (blockSize : Nat) (e : Engine) : Nat :=
  (e.inboxes.flatten.map fun j => moveCost blockSize j.range).sum

/-- The work that a worker has in its hands. -/
def Worker.cost : Worker → Nat
  | .idle => 0
  | .moving _ blocks => blocks.length + 4
  | .failed _ _ => 4
  | .done _ => 3
  | .ending _ => 2
  | .reporting _ _ => 1

/-- The work that is left of an errand under way, given how operations are cut
into jobs. -/
def Stage.cost (blockSize : Nat) (plan : Nat → List ByteRange) : Stage → Nat
  | .free => 0
  | .located o => 5 + dealCost blockSize (plan o.buffer.len)
  | .opened o => 4 + dealCost blockSize (plan o.buffer.len)
  | .admitted o => 3 + dealCost blockSize (plan o.buffer.len)
  | .dealing _ _ ranges => 1 + dealCost blockSize ranges
  | .placing _ _ _ range ranges =>
    2 + moveCost blockSize range + dealCost blockSize ranges
  | .ending _ => 2
  | .reporting _ _ => 1

/-- The work that an errand to come asks for. -/
def Errand.cost (blockSize : Nat) (plan : Nat → List ByteRange) : Errand → Nat
  | .transfer c => 6 + dealCost blockSize (plan c.buffer.len)
  | .wait => 1

/-- The work that a caller has left. -/
def Caller.cost (blockSize : Nat) (plan : Nat → List ByteRange) (c : Caller) : Nat :=
  (c.errands.map (Errand.cost blockSize plan)).sum + c.stage.cost blockSize plan

/-- The jobs of a buffer of that length. -/
def cut (t : Traffic) (len : Nat) : List ByteRange :=
  Plan.jobs len t.blockSize t.ground.engine.workerCount t.ground.engine.singleSubmit

/-- All the work that is left. -/
def work (t : Traffic) : Nat :=
  (t.callers.map (Caller.cost t.blockSize t.cut)).sum + inboxCost t.blockSize t.ground.engine +
    (t.workers.map Worker.cost).sum

theorem cut_congr {u : Traffic} (hb : u.blockSize = t.blockSize)
    (h : u.ground.engine.SameSettings t.ground.engine) : u.cut = t.cut := by
  funext len
  simp only [cut, Engine.workerCount, hb, h.workers, h.singleSubmit]

theorem inboxCost_put? (blockSize : Nat) {worker : Nat} {j : Job} {e e' : Engine}
    (h : e.put? worker j = some e') :
    inboxCost blockSize e' = moveCost blockSize j.range + inboxCost blockSize e := by
  have := ((flatten_of_put? h).map fun j => moveCost blockSize j.range).sum_nat
  simpa [inboxCost] using this

theorem inboxCost_take? (blockSize : Nat) {worker : Nat} {j : Job} {e e' : Engine}
    (h : e.take? worker = some (j, e')) :
    inboxCost blockSize e = moveCost blockSize j.range + inboxCost blockSize e' := by
  have := ((flatten_of_take? h).map fun j => moveCost blockSize j.range).sum_nat
  simpa [inboxCost] using this

theorem inboxCost_congr (blockSize : Nat) {e e' : Engine} (h : e'.inboxes = e.inboxes) :
    inboxCost blockSize e' = inboxCost blockSize e := by
  simp only [inboxCost, h]

/-- A caller's move uses up some of the work that it has left. -/
theorem Caller.Move.cost_lt {blockSize workers : Nat} {c c' : Caller} {g g' : Ground}
    (h : c.Move blockSize g c' g') (plan : Nat → List ByteRange)
    (hplan : ∀ o, o.blockSize = blockSize → g.engine.plan o = plan o.buffer.len)
    (hr : c.stage.Regular blockSize workers) :
    c'.cost blockSize plan + inboxCost blockSize g'.engine <
      c.cost blockSize plan + inboxCost blockSize g.engine := by
  cases h with
  | drained idle =>
    have hin : inboxCost blockSize g.drain.engine = inboxCost blockSize g.engine := rfl
    simp only [Caller.cost, Stage.cost, Errand.cost, List.map_cons, List.sum_cons, hin]
    omega
  | refused h =>
    simp only [Caller.cost, Stage.cost, Errand.cost, List.map_cons, List.sum_cons]
    omega
  | @located c es as _ o s h =>
    have hin : inboxCost blockSize (g.store s).engine = inboxCost blockSize g.engine := rfl
    simp only [Caller.cost, Stage.cost, Errand.cost, List.map_cons, List.sum_cons, hin,
      (of_locate h).1]
    omega
  | misfit h =>
    simp only [Caller.cost, Stage.cost]
    omega
  | @fitted o es as _ s h =>
    have hin : inboxCost blockSize (g.store s).engine = inboxCost blockSize g.engine := rfl
    simp only [Caller.cost, Stage.cost, hin]
    omega
  | admitted h =>
    simp only [Caller.cost, Stage.cost]
    omega
  | @launched o es as =>
    have hin : inboxCost blockSize (g.launch o).engine = inboxCost blockSize g.engine := rfl
    rw [hplan o hr]
    unfold Stage.launched
    split
    · simp only [Caller.cost, Stage.cost, hin]
      omega
    · simp only [Caller.cost, Stage.cost, hin]
      omega
  | dealt =>
    simp only [Caller.cost, Stage.cost]
    omega
  | @turned n len r rs es as =>
    have hin : inboxCost blockSize (g.run g.engine.turn.2).engine = inboxCost blockSize g.engine :=
      rfl
    simp only [Caller.cost, Stage.cost, dealCost, List.map_cons, List.sum_cons, hin]
    omega
  | @placed n len worker r rs es as _ engine h =>
    have hin := inboxCost_put? blockSize h
    simp only [Caller.cost, Stage.cost, Ground.run, hin]
    omega
  | judged =>
    simp only [Caller.cost, Stage.cost]
    omega
  | @reported n result es as =>
    have hin : inboxCost blockSize (g.report n result).engine = inboxCost blockSize g.engine := rfl
    simp only [Caller.cost, Stage.cost, hin]
    omega

/-- A worker's move uses up some of the work that it has, or finds in its inbox. -/
theorem Worker.Move.cost_lt {blockSize index : Nat} {w w' : Worker} {g g' : Ground}
    (h : w.Move index g w' g') (ho : ∀ o ∈ g.engine.operations, o.blockSize = blockSize) :
    w'.cost + inboxCost blockSize g'.engine < w.cost + inboxCost blockSize g.engine := by
  cases h with
  | @taken _ j engine f h hf =>
    have hin := inboxCost_take? blockSize h
    have hflight : g.engine.flight? j.flight = some f := by
      rw [← Engine.flight?_congr (take?_same h).1]
      exact hf
    have hsize := ho f.operation (Engine.mem_operations_of_flight? hflight)
    simp only [Worker.cost, Ground.run, hin, moveCost, Operation.blocks, hsize]
    omega
  | @ran j =>
    simp only [Worker.cost, Ground.log, List.length_nil]
    omega
  | moved hf h =>
    simp only [Worker.cost, Ground.store, List.length_cons]
    omega
  | stumbled hf h =>
    simp only [Worker.cost, Ground.store, List.length_cons]
    omega
  | @failed j e =>
    have hin := inboxCost_congr blockSize (Engine.inboxes_note g.engine j.flight e)
    simp only [Worker.cost, Ground.log, Ground.run, hin]
    omega
  | @retired n =>
    have hin := inboxCost_congr blockSize (Engine.inboxes_retire g.engine n)
    simp only [Ground.run, hin]
    split <;> simp only [Worker.cost] <;> omega
  | judged =>
    simp only [Worker.cost]
    omega
  | @reported n result =>
    have hin : inboxCost blockSize (g.report n result).engine = inboxCost blockSize g.engine := rfl
    simp only [Worker.cost, hin]
    omega

/-- Every step uses up some of the work that is left. -/
theorem work_lt_of_step? (hr : Regular t) {e : Event} (hstep : t.step? e = some t') :
    t'.work < t.work := by
  cases e with
  | caller i =>
    obtain ⟨c, c', g, hc, hmove, rfl⟩ := caller_of_step? hstep
    have hcut : (t.moveCaller i c' g).cut = t.cut := cut_congr rfl hmove.sameSettings
    have hcost := hmove.cost_lt t.cut (fun o ho => by rw [cut, ← ho]; rfl)
      (hr.callers c (List.mem_of_getElem? hc))
    have hsum := sum_map_set (Caller.cost t.blockSize t.cut) hc c'
    simp only [work, hcut]
    simp only [moveCaller]
    omega
  | worker i =>
    obtain ⟨w, w', g, hw, hmove, rfl⟩ := worker_of_step? hstep
    have hcut : (t.moveWorker i w' g).cut = t.cut := cut_congr rfl hmove.sameSettings
    have hcost := hmove.cost_lt hr.operations
    have hsum := sum_map_set Worker.cost hw w'
    simp only [work, hcut]
    simp only [moveWorker]
    omega

/-- A schedule is no longer than the work that there was. -/
theorem length_add_work_le (hb : Balanced t) (hr : Regular t) {schedule : List Event}
    (hrun : t.run? schedule = some t') : schedule.length + t'.work ≤ t.work := by
  refine (run_induction (P := fun before u => (Balanced u ∧ Regular u) ∧
    before.length + u.work ≤ t.work) ⟨⟨hb, hr⟩, by simp⟩ ?_ hrun).2
  intro before u e u' _ hu hstep
  obtain ⟨⟨hbu, hru⟩, hle⟩ := hu
  refine ⟨⟨hbu.deed (deed_of_step? hstep), hru.step hbu hstep⟩, ?_⟩
  have hlt := work_lt_of_step? hru hstep
  rw [List.length_append, List.length_singleton]
  omega

end Traffic
end BlockTransfer
