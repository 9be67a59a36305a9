import BlockTransfer.Proofs.Traffic.Reach
import BlockTransfer.Proofs.Traffic.Settling
/-!
# The schedule in which the workers are slow

A device that answers its requests itself lets a worker carry out a job only
when the worker's inbox has no room, or when a caller waits. That is one of the
schedules of a caller and the workers: after some schedule the caller has been
answered all its calls and the wait as the device answers them, and the engine
and the storage are the same (`Traffic.exists_slow_schedule`). So what holds
after every schedule holds of `PosixDevice.serve`.

Key definitions: `Traffic.Visits`.
Key theorem: `Traffic.exists_slow_schedule`.
-/

namespace BlockTransfer

namespace Engine

variable {e : Engine} {i : Nat} {j : Job} {inbox : List Job} {s : Storage}

/-! ### Inboxes -/

theorem inboxes_execute (e : Engine) (j : Job) (s : Storage) :
    (e.execute j s).1.inboxes = e.inboxes := by
  unfold execute
  split
  · rfl
  · split
    · rfl
    · exact inboxes_note _ _ _

theorem take?_of_inbox (h : e.inboxes[i]? = some (j :: inbox)) :
    e.take? i = some (j, { e with inboxes := e.inboxes.set i inbox }) := by
  simp only [take?, h]

theorem work_of_empty (h : e.inboxes[i]? = some []) (s : Storage) : e.work i s = (e, s) := by
  have htake : e.take? i = none := by simp only [take?, h]
  simp only [work, htake]

/-- A worker takes the oldest job out of its inbox. -/
theorem inboxes_work (h : e.inboxes[i]? = some (j :: inbox)) (s : Storage) :
    (e.work i s).1.inboxes = e.inboxes.set i inbox := by
  simp only [work, take?_of_inbox h]
  split
  · show ((Engine.retire _ _).2).inboxes = _
    rw [inboxes_retire, inboxes_execute]
  · rw [inboxes_retire, inboxes_execute]

/-- A full inbox has room after one job. -/
theorem exists_put?_work (s : Storage) (hroomy : e.Roomy) (hroom : 0 < e.queueDepth)
    (hi : i < e.workerCount) (hdepth : (e.work i s).1.queueDepth = e.queueDepth)
    (hput : e.put? i j = none) : ∃ e', (e.work i s).1.put? i j = some e' := by
  have hi : i < e.inboxes.length := hi
  have hget : e.inboxes[i]? = some e.inboxes[i] := List.getElem?_eq_getElem hi
  have hfull : ¬e.inboxes[i].length < e.queueDepth := by
    intro hlt
    simp only [put?, hget, if_pos hlt] at hput
    cases hput
  have hle := hroomy _ (List.getElem_mem hi)
  cases hin : e.inboxes[i] with
  | nil =>
    rw [hin] at hfull
    exact absurd hroom hfull
  | cons k inbox =>
    rw [hin, List.length_cons] at hle
    rw [hin] at hget
    have hafter : (e.work i s).1.inboxes[i]? = some inbox := by
      rw [inboxes_work hget, List.getElem?_set_self hi]
    have hlt : inbox.length < (e.work i s).1.queueDepth := by omega
    simp only [put?, hafter, if_pos hlt]
    exact ⟨_, rfl⟩

theorem inboxes_workMany : ∀ (n : Nat) {inbox : List Job} {e : Engine} {s : Storage},
    e.inboxes[i]? = some inbox → (workMany i n (e, s)).1.inboxes = e.inboxes.set i (inbox.drop n)
  | 0, inbox, e, s, h => by
    obtain ⟨hi, hin⟩ := List.getElem?_eq_some_iff.mp h
    rw [List.drop_zero, ← hin, List.set_getElem_self]
    rfl
  | n + 1, [], e, s, h => by
    rw [workMany, work_of_empty h, inboxes_workMany n h, List.drop_nil, List.drop_nil]
  | n + 1, j :: inbox, e, s, h => by
    have hwork := inboxes_work h s
    have hi := (List.getElem?_eq_some_iff.mp h).1
    have hnext : (e.work i s).1.inboxes[i]? = some inbox := by
      rw [hwork, List.getElem?_set_self hi]
    rw [workMany, inboxes_workMany n hnext, hwork, List.set_set, List.drop_succ_cons]

/-- After the first `k` workers have emptied their inboxes, these are empty. -/
theorem inboxes_settle_range (e : Engine) (s : Storage) : ∀ {k : Nat} {e' : Engine} {s' : Storage},
    k ≤ e.inboxes.length →
    (List.range k).foldl (fun (es : Engine × Storage) worker =>
      workMany worker ((es.1.inboxes[worker]?.map List.length).getD 0) es) (e, s) = (e', s') →
    e'.inboxes.length = e.inboxes.length ∧ ∀ i < k, e'.inboxes[i]? = some [] := by
  intro k
  induction k with
  | zero =>
    intro e' s' _ h
    cases h
    exact ⟨rfl, fun i hi => absurd hi (Nat.not_lt_zero i)⟩
  | succ k ih =>
    intro e'' s'' hk h
    rw [List.range_succ, List.foldl_append] at h
    generalize hes : (List.range k).foldl (fun (es : Engine × Storage) worker =>
      workMany worker ((es.1.inboxes[worker]?.map List.length).getD 0) es) (e, s) = es at h
    obtain ⟨e', s'⟩ := es
    obtain ⟨hlen, hempty⟩ := ih (Nat.le_of_succ_le hk) hes
    have hlt : k < e'.inboxes.length := by omega
    have hget : e'.inboxes[k]? = some e'.inboxes[k] := List.getElem?_eq_getElem hlt
    have hafter := inboxes_workMany e'.inboxes[k].length (s := s') hget
    rw [List.drop_length] at hafter
    simp only [List.foldl_cons, List.foldl_nil, hget, Option.map_some, Option.getD_some] at h
    rw [h] at hafter
    have hafter : e''.inboxes = e'.inboxes.set k [] := hafter
    rw [hafter]
    refine ⟨by rw [List.length_set, hlen], fun i hi => ?_⟩
    by_cases hik : i = k
    · rw [hik, List.getElem?_set_self hlt]
    · rw [List.getElem?_set_ne (Ne.symm hik)]
      exact hempty i (by omega)

/-- Once every worker has emptied its inbox, all inboxes are empty. -/
theorem inboxes_settle (e : Engine) (s : Storage) : ∀ b ∈ (e.settle s).1.inboxes, b = [] := by
  obtain ⟨hlen, hempty⟩ : (e.settle s).1.inboxes.length = e.inboxes.length ∧
      ∀ i < e.inboxes.length, (e.settle s).1.inboxes[i]? = some [] :=
    inboxes_settle_range e s (Nat.le_refl _) rfl
  intro b hb
  obtain ⟨i, hi⟩ := List.getElem?_of_mem hb
  have hlt := (List.getElem?_eq_some_iff.mp hi).1
  rw [hempty i (by omega)] at hi
  exact (Option.some.inj hi).symm

end Engine

namespace Traffic

/-- After some schedule the only caller is `c`, all workers are idle, and the
engine and the storage are these. -/
def Visits (first : Traffic) (c : Caller) (e : Engine) (s : Storage) : Prop :=
  ∃ schedule t, first.run? schedule = some t ∧ t.callers = [c] ∧ (∀ w ∈ t.workers, w = .idle) ∧
    t.ground.engine = e ∧ t.ground.storage = s

variable {first t : Traffic} {before : List Event} {c c' : Caller} {e e' : Engine}
  {s s' : Storage} {i : Nat} {w w' : Worker} {g g' : Ground} {j : Job}

/-! ### A worker carries out a job -/

theorem run?_worker (hrun : first.run? before = some (t.moveWorker i w g))
    (hi : i < t.workers.length) (h : w.step? i g = some (w', g')) :
    first.run? (before ++ [.worker i]) = some (t.moveWorker i w' g') := by
  refine run?_concat hrun ?_
  have hget : (t.moveWorker i w g).workers[i]? = some w := List.getElem?_set_self hi
  have hstep : w.step? i (t.moveWorker i w g).ground = some (w', g') := h
  simp only [step?, hget, Option.bind_eq_bind, Option.bind_some, hstep]
  simp [moveWorker]

/-- A worker moves the blocks of its job, as far as that goes. -/
theorem exists_executed {f : Flight} {blocks : List ByteRange} (hi : i < t.workers.length)
    (hrun : first.run? before = some (t.moveWorker i (.moving j blocks) g))
    (hf : g.engine.flight? j.flight = some f) :
    ∃ schedule g', first.run? schedule = some (t.moveWorker i (.done j.flight) g') ∧
      (g'.engine, g'.storage) =
        match Transfer.moveBlocks f.operation.direction f.operation.endpoints j.range.stop blocks
          g.storage with
        | (.ok (), s) => (g.engine, s)
        | (.error e, s) => (g.engine.note j.flight e, s) := by
  induction blocks generalizing before g with
  | nil => exact ⟨_, _, run?_worker hrun hi rfl, rfl⟩
  | cons block blocks ih =>
    have hstep : Worker.step? i (.moving j (block :: blocks)) g =
        some (match f.operation.moveBlock j.range.stop block g.storage with
          | (.ok (), storage) => (.moving j blocks, g.store storage)
          | (.error e, storage) => (.failed j e, g.store storage)) := by
      simp only [Worker.step?, hf]
      rfl
    unfold Transfer.moveBlocks
    rw [show Transfer.moveBlock f.operation.direction f.operation.endpoints j.range.stop block
      g.storage = f.operation.moveBlock j.range.stop block g.storage from rfl]
    split at hstep
    · rename_i s hmove
      rw [hmove]
      exact ih (run?_worker hrun hi hstep) hf
    · rename_i e s hmove
      rw [hmove]
      have hfailed := run?_worker hrun hi hstep
      exact ⟨_, _, run?_worker hfailed hi rfl, rfl⟩

theorem visits_of_moveWorker (hrun : first.run? before = some (t.moveWorker i .idle g))
    (hc : t.callers = [c]) (hidle : ∀ w ∈ t.workers, w = .idle) :
    Visits first c g.engine g.storage := by
  refine ⟨before, _, hrun, hc, fun w hw => ?_, rfl, rfl⟩
  rcases List.mem_or_eq_of_mem_set hw with hw | rfl
  · exact hidle w hw
  · rfl

/-! ### The caller's moves -/

/-- The only caller makes a move that it can make whatever the journal says. -/
theorem Visits.caller (h : Visits first c e s)
    (hstep : ∀ journal, ∃ g, c.step? first.blockSize ⟨e, s, journal⟩ = some (c', g) ∧
      g.engine = e' ∧ g.storage = s') : Visits first c' e' s' := by
  obtain ⟨before, t, hrun, hc, hidle, rfl, rfl⟩ := h
  obtain ⟨g, hg, hengine, hstorage⟩ := hstep t.ground.journal
  rw [← blockSize_of_run? hrun] at hg
  refine ⟨_, _, run?_concat hrun (step?_caller hc hg), ?_, hidle, hengine, hstorage⟩
  simp [moveCaller, hc]

theorem Visits.sameSettings (h : Visits first c e s) : e.SameSettings first.ground.engine := by
  obtain ⟨before, t, hrun, -, -, rfl, -⟩ := h
  exact sameSettings_of_run? hrun

theorem Visits.admits {o : Operation} {es : List Errand} {as : List (Except TransferError Nat)}
    (h : Visits first ⟨es, .opened o, as⟩ e s)
    (hopen : e.overlapEvents = true ∨ e.completion.isIdle = true) :
    Visits first ⟨es, .admitted o, as⟩ e s := by
  refine h.caller fun journal => ⟨⟨e, s, journal⟩, ?_, rfl, rfl⟩
  simp only [Caller.step?]
  rw [if_pos (by simpa using hopen)]

/-! ### Several jobs -/

section Regular

variable (hb : Balanced first) (hr : Regular first)

include hb

/-- With all inboxes empty and no job or end in the caller's hands nothing is in
flight. -/
theorem Visits.isIdle (h : Visits first c e s) (hempty : ∀ b ∈ e.inboxes, b = [])
    (hundealt : c.stage.undealt = []) (hclosing : c.stage.closing = []) :
    e.completion.isIdle = true := by
  obtain ⟨before, t, hrun, hc, hidle, rfl, -⟩ := h
  have hworkers : ∀ {β : Type} {f : Worker → List β}, f .idle = [] → t.workers.flatMap f = [] :=
    fun hf => List.flatMap_eq_nil_iff.mpr fun w hw => hidle w hw ▸ hf
  have hbal := hb.run hrun
  have hnumbers := hbal.numbers_eq_nil
    (by simp [waiting, hc, hundealt, List.flatten_eq_nil_iff.mpr hempty,
      hworkers (f := Worker.held) rfl])
    (hworkers rfl)
    (by simp [closing, hc, hclosing, hworkers (f := Worker.closing) rfl])
  have := hbal.inFlight
  rw [hnumbers] at this
  rw [Completion.isIdle, this]
  rfl

include hr

theorem Visits.work (h : Visits first c e s) (i : Nat) :
    Visits first c (e.work i s).1 (e.work i s).2 := by
  obtain ⟨before, t, hrun, hc, hidle, rfl, rfl⟩ := h
  unfold Engine.work
  cases htake : t.ground.engine.take? i with
  | none => exact ⟨before, t, hrun, hc, hidle, rfl, rfl⟩
  | some x =>
    obtain ⟨j, e₁⟩ := x
    have hi : i < t.workers.length := by
      rw [← (hr.run hb hrun).workers]
      unfold Engine.take? at htake
      split at htake
      · rename_i hin
        exact (List.getElem?_eq_some_iff.mp hin).1
      · cases htake
    have hw : t.workers[i] = .idle := hidle _ (List.getElem_mem hi)
    have hself : t = t.moveWorker i .idle t.ground := by
      rw [moveWorker, ← hw, List.set_getElem_self]
    have hj := mem_waiting_of_inbox ((flatten_of_take? htake).mem_iff.mpr List.mem_cons_self)
    obtain ⟨f, hf, -⟩ := (hb.run hrun).flight_of_waiting hj
    have hf₁ : e₁.flight? j.flight = some f := by
      rw [Engine.flight?_congr (take?_same htake).1, hf]
    -- the job is taken, its blocks are moved, and it is counted
    have htaken : Worker.step? i .idle t.ground =
        some (.moving j (f.operation.blocks j.range), t.ground.run e₁) := by
      simp only [Worker.step?, htake, Option.bind_some, hf₁, Option.map_some]
      rfl
    rw [hself] at hrun
    obtain ⟨schedule, g, hg, hexecuted⟩ := exists_executed hi (run?_worker hrun hi htaken) hf₁
    have hexecute : e₁.execute j t.ground.storage = (g.engine, g.storage) := by
      rw [hexecuted]
      simp only [Engine.execute, hf₁]
      rfl
    have hretired := run?_worker hg hi (show Worker.step? i (.done j.flight) g =
      some (if (g.engine.retire j.flight).1 then .ending j.flight else .idle,
        g.run (g.engine.retire j.flight).2) from rfl)
    simp only [hexecute]
    cases hlast : (g.engine.retire j.flight).1 with
    | false =>
      rw [hlast] at hretired
      exact visits_of_moveWorker hretired hc hidle
    | true =>
      rw [hlast] at hretired
      have hjudged := run?_worker hretired hi rfl
      exact visits_of_moveWorker (run?_worker hjudged hi rfl) hc hidle

theorem Visits.workMany (i : Nat) : ∀ (n : Nat) {es : Engine × Storage},
    Visits first c es.1 es.2 →
      Visits first c (Engine.workMany i n es).1 (Engine.workMany i n es).2
  | 0, _, h => h
  | n + 1, _, h => Visits.workMany i n (h.work hb hr i)

theorem Visits.settle (h : Visits first c e s) :
    Visits first c (e.settle s).1 (e.settle s).2 := by
  have key : ∀ (workers : List Nat) (es : Engine × Storage), Visits first c es.1 es.2 →
      Visits first c
        (workers.foldl (fun (es : Engine × Storage) worker =>
          Engine.workMany worker ((es.1.inboxes[worker]?.map List.length).getD 0) es) es).1
        (workers.foldl (fun (es : Engine × Storage) worker =>
          Engine.workMany worker ((es.1.inboxes[worker]?.map List.length).getD 0) es) es).2 := by
    intro workers
    induction workers with
    | nil => exact fun es h => h
    | cons worker workers ih => exact fun es h => ih _ (h.workMany hb hr worker _)
  exact key _ (e, s) h

theorem Visits.regular (h : Visits first c e s) : e.Roomy ∧ 0 < e.queueDepth ∧
    c.stage.Regular first.blockSize e.workerCount := by
  obtain ⟨before, t, hrun, hc, -, rfl, -⟩ := h
  have hreg := hr.run hb hrun
  have hstage := hreg.callers c (hc ▸ List.mem_singleton_self c)
  rw [blockSize_of_run? hrun, ← hreg.workers] at hstage
  exact ⟨hreg.roomy, hreg.room, hstage⟩

/-! ### Jobs are dealt -/

section Dealing

variable {n len : Nat} {r : ByteRange} {rs : List ByteRange} {es : List Errand}
  {as : List (Except TransferError Nat)}

theorem Visits.push (h : Visits first ⟨es, .dealing n len (r :: rs), as⟩ e s) :
    Visits first ⟨es, .dealing n len rs, as⟩ (e.push ⟨n, r⟩ s).1 (e.push ⟨n, r⟩ s).2 := by
  have hturned : Visits first ⟨es, .placing n len e.turn.1 r rs, as⟩ e.turn.2 s :=
    h.caller fun journal => ⟨_, rfl, rfl, rfl⟩
  have hplaced : ∀ {e₁ e₂ : Engine} {s₁ : Storage},
      Visits first ⟨es, .placing n len e.turn.1 r rs, as⟩ e₁ s₁ →
      e₁.put? e.turn.1 ⟨n, r⟩ = some e₂ → Visits first ⟨es, .dealing n len rs, as⟩ e₂ s₁ := by
    intro e₁ e₂ s₁ hv hput
    exact hv.caller fun journal => ⟨_, by simp only [Caller.step?, hput]; rfl, rfl, rfl⟩
  unfold Engine.push
  cases hput : e.turn.2.put? e.turn.1 ⟨n, r⟩ with
  | some e' =>
    simp only [hput]
    exact hplaced hturned hput
  | none =>
    have hworked := hturned.work hb hr e.turn.1
    obtain ⟨hroomy, hroom, hworker⟩ := hturned.regular hb hr
    have hdepth := hworked.sameSettings.queueDepth.trans hturned.sameSettings.queueDepth.symm
    obtain ⟨e', he'⟩ := Engine.exists_put?_work s hroomy hroom hworker hdepth hput
    simp only [hput, he', Option.getD_some]
    exact hplaced hworked he'

theorem Visits.pushAll : ∀ (rs : List ByteRange) {es' : Engine × Storage},
    Visits first ⟨es, .dealing n len rs, as⟩ es'.1 es'.2 →
      Visits first ⟨es, .dealing n len [], as⟩ (Engine.pushAll n rs es').1
        (Engine.pushAll n rs es').2
  | [], _, h => h
  | _ :: rs, _, h => Visits.pushAll rs (h.push hb hr)

/-- Without overlap all that is under way ends before an operation starts. -/
theorem Visits.admitAlone {o : Operation} (h : Visits first ⟨es, .opened o, as⟩ e s) :
    Visits first ⟨es, .admitted o, as⟩
      (if e.overlapEvents then (e, s) else e.settle s).1
      (if e.overlapEvents then (e, s) else e.settle s).2 := by
  cases hoverlap : e.overlapEvents with
  | true => exact h.admits (.inl hoverlap)
  | false =>
    have hsettled := h.settle hb hr
    exact hsettled.admits (.inr (hsettled.isIdle hb (Engine.inboxes_settle e s) rfl rfl))

/-- An operation whose file is open is handed to the workers. -/
theorem Visits.submit {o : Operation} (h : Visits first ⟨es, .opened o, as⟩ e s) :
    Visits first ⟨es, .free, as ++ [.ok (e.submit o s).1]⟩ (e.submit o s).2.1
      (e.submit o s).2.2 := by
  have hadmitted := h.admitAlone hb hr
  unfold Engine.submit
  generalize (if e.overlapEvents = true then (e, s) else e.settle s) = x at hadmitted ⊢
  obtain ⟨e₁, s₁⟩ := x
  have hlaunched : Visits first ⟨es, .launched e₁.nextFlight o.buffer.len (e₁.plan o), as⟩
      (e₁.launch o (e₁.plan o).length).2 s₁ := hadmitted.caller fun journal => ⟨_, rfl, rfl, rfl⟩
  cases hplan : e₁.plan o with
  | nil =>
    rw [hplan] at hlaunched
    have hjudged : Visits first ⟨es, .reporting e₁.nextFlight
        ((e₁.launch o 0).2.outcome e₁.nextFlight s₁), as⟩ (e₁.launch o 0).2 s₁ :=
      hlaunched.caller fun journal => ⟨_, rfl, rfl, rfl⟩
    simp only [hplan]
    exact hjudged.caller fun journal => ⟨_, rfl, rfl, rfl⟩
  | cons r rs =>
    rw [hplan] at hlaunched
    have hdealt : Visits first ⟨es, .dealing e₁.nextFlight o.buffer.len [], as⟩
        (Engine.pushAll e₁.nextFlight (r :: rs) ((e₁.launch o (r :: rs).length).2, s₁)).1
        (Engine.pushAll e₁.nextFlight (r :: rs) ((e₁.launch o (r :: rs).length).2, s₁)).2 :=
      Visits.pushAll hb hr (r :: rs) hlaunched
    simp only [hplan]
    exact hdealt.caller fun journal => ⟨_, rfl, rfl, rfl⟩

/-- A wait lets all workers empty their inboxes. -/
theorem Visits.drain (h : Visits first ⟨.wait :: es, .free, as⟩ e s) :
    Visits first ⟨es, .free, as ++ [(e.drain s).1]⟩ (e.drain s).2.1 (e.drain s).2.2 := by
  have hsettled := h.settle hb hr
  have hidle := hsettled.isIdle hb (Engine.inboxes_settle e s) rfl rfl
  have hdrained : Visits first ⟨es, .free, as ++ [(e.settle s).1.completion.drain.1]⟩
      { (e.settle s).1 with completion := (e.settle s).1.completion.drain.2 } (e.settle s).2 := by
    refine hsettled.caller fun journal =>
      ⟨Ground.drain ⟨(e.settle s).1, (e.settle s).2, journal⟩, ?_, rfl, rfl⟩
    simp only [Caller.step?, Caller.begin?]
    rw [if_pos hidle]
    rfl
  exact hdrained

end Dealing

end Regular

/-! ### A whole list of calls -/

/-- What an asynchronous call or a wait answers, as a device puts it. -/
def reply : Except TransferError Nat → Except DeviceError Answer
  | .ok n => .ok (.number n)
  | .error e => .error (.transfer e)

/-- Opening a file and failing leaves the storage alone. -/
theorem Visits.openFile {order : Order} {es : List Errand} {as : List (Except TransferError Nat)}
    (h : Visits first ⟨.transfer order :: es, .free, as⟩ e s) :
    match Operation.openFile order first.blockSize s with
    | .error error => Visits first ⟨es, .free, as ++ [.error error]⟩ e s
    | .ok (o, s') => Visits first ⟨es, .opened o, as⟩ e s' := by
  cases hopen : Operation.openFile order first.blockSize s with
  | error error =>
    rcases Operation.openFile_eq_error hopen with hl | ⟨o, s₁, hl, hf⟩
    · refine h.caller fun journal => ?_
      refine ⟨_, by simp only [Caller.step?, Caller.begin?, hl]; rfl, rfl, rfl⟩
    · obtain rfl := Operation.eq_of_locate_read hl (Operation.read_of_fit_error hf)
      have hlocated : Visits first ⟨es, .located o, as⟩ e s₁ :=
        h.caller fun journal => ⟨_, by simp only [Caller.step?, Caller.begin?, hl]; rfl, rfl, rfl⟩
      exact hlocated.caller fun journal => ⟨_, by simp only [Caller.step?, hf]; rfl, rfl, rfl⟩
  | ok x =>
    obtain ⟨o, s'⟩ := x
    obtain ⟨s₁, hl, hf⟩ := Operation.openFile_eq_ok hopen
    have hlocated : Visits first ⟨es, .located o, as⟩ e s₁ :=
      h.caller fun journal => ⟨_, by simp only [Caller.step?, Caller.begin?, hl]; rfl, rfl, rfl⟩
    exact hlocated.caller fun journal => ⟨_, by simp only [Caller.step?, hf]; rfl, rfl, rfl⟩

theorem Visits.serve (hb : Balanced first) (hr : Regular first) {d : PosixDevice} {order : Order}
    {es : List Errand} {as : List (Except TransferError Nat)}
    (h : Visits first ⟨.transfer order :: es, .free, as⟩ d.engine s)
    (hsize : d.settings.blockSize = first.blockSize) : ∃ a engine,
      d.serve s (order.request .async) =
        (reply a, { d with engine }, (d.serve s (order.request .async)).2.2) ∧
      Visits first ⟨es, .free, as ++ [a]⟩ engine (d.serve s (order.request .async)).2.2 := by
  have hopened := h.openFile
  rw [PosixDevice.serve_request, PosixDevice.transfer, hsize]
  cases hopen : Operation.openFile order first.blockSize s with
  | error error =>
    rw [hopen] at hopened
    exact ⟨.error error, d.engine, rfl, hopened⟩
  | ok x =>
    rw [hopen] at hopened
    exact ⟨.ok _, _, rfl, hopened.submit hb hr⟩

theorem Visits.serveAll (hb : Balanced first) (hr : Regular first) :
    ∀ (calls : List Order) {d : PosixDevice} {s : Storage} {as : List (Except TransferError Nat)},
    Visits first ⟨calls.map .transfer ++ [.wait], .free, as⟩ d.engine s →
    d.settings.blockSize = first.blockSize → ∃ answers engine storage,
      d.serveAll (calls.map (·.request .async) ++ [.wait]) s =
        (answers.map reply, { d with engine }, storage) ∧
      Visits first ⟨[], .free, as ++ answers⟩ engine storage
  | [], d, s, as, h, _ => by
    have hdrained := h.drain hb hr
    refine ⟨[(d.engine.drain s).1], _, _, ?_, hdrained⟩
    simp only [List.map_nil, List.nil_append, PosixDevice.serveAll, PosixDevice.serve]
    generalize d.engine.drain s = x
    obtain ⟨answer, e, s'⟩ := x
    cases answer <;> rfl
  | order :: calls, d, s, as, h, hsize => by
    obtain ⟨a, engine, hserve, hnext⟩ := h.serve hb hr hsize
    obtain ⟨answers, engine', storage, hall, hend⟩ :=
      Visits.serveAll hb hr calls (d := { d with engine }) hnext hsize
    refine ⟨a :: answers, engine', storage, ?_, ?_⟩
    · rw [List.map_cons, List.cons_append, PosixDevice.serveAll, hserve]
      simp only [hall, List.map_cons]
    · rwa [List.append_assoc] at hend

/-- The answers of a device, its engine and the storage are those after one of
the schedules. -/
theorem exists_slow_schedule {d : PosixDevice} (hd : d.AtRest) (calls : List Order) (s : Storage) :
    ∃ schedule t, (startAlone d s calls).run? schedule = some t ∧ t.isOver = true ∧
      d.serveAll (calls.map (·.request .async) ++ [.wait]) s =
        ((t.answers 0).map reply, { d with engine := t.ground.engine }, t.ground.storage) := by
  have hstart : Visits (startAlone d s calls) ⟨calls.map .transfer ++ [.wait], .free, []⟩
      d.engine s :=
    ⟨[], _, rfl, rfl, fun w hw => (List.mem_replicate.mp hw).2, rfl, rfl⟩
  obtain ⟨answers, engine, storage, hall, schedule, t, hrun, hc, -, rfl, rfl⟩ :=
    Visits.serveAll (Balanced.of_start hd s _) (regular_start hd s _) calls hstart rfl
  refine ⟨schedule, t, hrun, by simp [isOver, hc], ?_⟩
  rw [hall, Traffic.answers, hc]
  rfl

end Traffic
end BlockTransfer
