import BlockTransfer.Proofs.Traffic.Progress
/-!
# Every operation is finished exactly once

A journal is `Lawful` if a job ends no more often than it was planned, an
operation is finished once and only with all its jobs ended, the count of what
is in flight never drops below zero, and a wait is answered only when all that
has begun is finished. Every schedule of callers and workers leads to a lawful
journal, whatever the settings, the errands and the storage are.

How an operation ended is found out some moves before it is reported. By then
all its jobs had ended, so the first failure among them stands, and otherwise
the comparison of its file at that moment decides (`Traffic.Attested`).

Key definitions: `Traffic.Lawful`, `Traffic.Attested`, `Traffic.ExactlyOnce`.
Key theorem: `Traffic.exactly_once`.
-/

namespace BlockTransfer
namespace Traffic

/-- A journal that keeps the rules, and the count of completions that it leads
to. -/
inductive Lawful : List Occurrence → Completion → Prop where
  | nil : Lawful [] {}
  /-- An operation begins under a number of its own. -/
  | started {journal c c'} (n : Nat) (o : Operation) (ranges : List ByteRange)
      (h : Lawful journal c) (new : n ∉ begun journal)
      (count : c.step? .begin = some (none, c')) : Lawful (journal ++ [.started n o ranges]) c'
  /-- A job ends that was planned and has not ended. -/
  | ran {journal c} (j : Job) (result : Except TransferError Unit) (h : Lawful journal c)
      (planned : (ended journal).count j < (planned journal).count j) :
      Lawful (journal ++ [.ran j result]) c
  /-- An operation is finished that has begun, is not finished, and has no job
  left; the first failure of a job is its failure. -/
  | reported {journal c c'} (n : Nat) (result : Except TransferError Unit) (h : Lawful journal c)
      (begun : n ∈ begun journal) (new : n ∉ finished journal)
      (jobs : ∀ j : Job, j.flight = n → (ended journal).count j = (planned journal).count j)
      (failure : ∀ e, (failures n journal).head? = some e → result = .error e)
      (count : c.step? (.finish result) = some (none, c')) :
      Lawful (journal ++ [.reported n result]) c'
  /-- A wait is answered when all that has begun is finished and all that was
  planned has ended. -/
  | drained {journal c c'} (answer : Except TransferError Nat) (h : Lawful journal c)
      (all : (begun journal).Perm (finished journal))
      (jobs : (planned journal).Perm (ended journal))
      (count : c.step? .drain = some (some answer, c')) :
      Lawful (journal ++ [.drained answer]) c'

/-- At some moment of the schedule all jobs of the operation had ended, and the
result is what it came to then: the first failure of a job, or else what the
comparison of its file told. -/
def Attested (first : Traffic) (schedule : List Event) (n : Nat)
    (result : Except TransferError Unit) : Prop :=
  ∃ before after u o ranges, schedule = before ++ after ∧ first.run? before = some u ∧
    .started n o ranges ∈ u.ground.journal ∧ n ∉ finished u.ground.journal ∧
    (∀ j : Job, j.flight = n →
      (ended u.ground.journal).count j = (planned u.ground.journal).count j) ∧
    result = match (failures n u.ground.journal).head? with
      | some e => .error e
      | none => o.validateIfAsked u.ground.storage

/-- What holds after a schedule that leads from one traffic to another. -/
structure ExactlyOnce (first : Traffic) (schedule : List Event) (t : Traffic) : Prop where
  /-- What happened so far keeps the rules, and the completions are counted. -/
  lawful : Lawful t.ground.journal t.ground.engine.completion
  /-- An operation is cut into the jobs of its plan. -/
  plan : ∀ n o ranges, .started n o ranges ∈ t.ground.journal → ranges = first.ground.engine.plan o
  /-- No job is lost: it waits or has ended. -/
  jobs : (planned t.ground.journal).Perm (t.waiting ++ ended t.ground.journal)
  /-- No inbox holds more jobs than its depth allows. -/
  room : ∀ inbox ∈ t.ground.engine.inboxes, inbox.length ≤ first.ground.engine.queueDepth
  /-- No operation is finished twice. -/
  once : (finished t.ground.journal).Nodup
  /-- What has begun and is not finished is in flight. -/
  inFlight : (begun t.ground.journal).length =
    (finished t.ground.journal).length + t.ground.engine.completion.inFlight
  /-- Every reported result is the operation's own. -/
  verdict : ∀ n result, .reported n result ∈ t.ground.journal → Attested first schedule n result
  /-- Where no one can move, the callers are through, every job has ended and
  every operation is finished. -/
  done : (∀ e, t.step? e = none) → t.isOver = true ∧
    (planned t.ground.journal).Perm (ended t.ground.journal) ∧
    (begun t.ground.journal).Perm (finished t.ground.journal)

variable {first t t' : Traffic} {schedule : List Event} {n : Nat}
  {result : Except TransferError Unit}

/-! ### Ends that are about to be reported -/

theorem closing_of_verdict {x : Nat × Except TransferError Unit} (h : x ∈ t.verdicts) :
    x.1 ∈ t.closing := by
  rcases List.mem_append.mp h with h | h
  · obtain ⟨c, hc, hx⟩ := List.mem_flatMap.mp h
    refine List.mem_append_left _ (List.mem_flatMap.mpr ⟨c, hc, ?_⟩)
    cases hs : c.stage <;> simp only [hs, Stage.verdict, List.not_mem_nil, List.mem_singleton] at hx
    rw [hx]
    exact List.mem_singleton_self _
  · obtain ⟨w, hw, hx⟩ := List.mem_flatMap.mp h
    refine List.mem_append_right _ (List.mem_flatMap.mpr ⟨w, hw, ?_⟩)
    cases w <;> simp only [Worker.verdict, List.not_mem_nil, List.mem_singleton] at hx
    rw [hx]
    exact List.mem_singleton_self _

/-- An operation whose end is to be reported does not change. -/
theorem Balanced.flight?_of_closing (h : Balanced t) (hd : Deed t t') (hn : n ∈ t.closing)
    (hn' : n ∈ t'.closing) : t'.ground.engine.flight? n = t.ground.engine.flight? n := by
  obtain ⟨hwait, hspent⟩ := h.not_waiting_of_closing hn
  cases hd with
  | quiet flights => exact Engine.flight?_congr flights n
  | launched o ground =>
    have hne : n ≠ t.ground.engine.nextFlight := by
      rintro rfl
      obtain ⟨f, hf, -⟩ := h.flight_of_closing hn
      rw [h.flight?_nextFlight] at hf
      cases hf
    have := Engine.flight?_launch t.ground.engine o (t.ground.engine.plan o).length n
      h.flight?_nextFlight
    rw [if_neg hne] at this
    rw [ground]
    exact this
  | ran j result ground waiting =>
    have hne : n ≠ j.flight := fun hj =>
      hwait j (waiting.mem_iff.mpr List.mem_cons_self) hj.symm
    rw [ground]
    cases result with
    | ok _ => rfl
    | error e => exact (Engine.flight?_note _ _ n _).trans (if_neg hne)
  | retired m ground waiting spent =>
    have hm : m ∈ t.spent := spent.mem_iff.mpr List.mem_cons_self
    have hne : n ≠ m := fun hnm => hspent (hnm ▸ hm)
    obtain ⟨f, hf, -⟩ := h.flight_of_spent hm
    rw [ground]
    exact (Engine.flight?_retire hf n).trans (if_neg hne)
  | reported m result verdict ground waiting spent closing =>
    have hne : n ≠ m := by
      rintro rfl
      have hcount := closing.count_eq n
      have hpos := List.count_pos_iff.mpr hn'
      have hdue := h.due n
      have hle := t.ground.engine.due_le_one n
      rw [List.count_cons_self] at hcount
      omega
    rw [ground]
    exact (Engine.flight?_report _ _ n _).trans (if_neg hne)
  | drained idle ground =>
    rw [ground]
    rfl

/-- A verdict is there already, or it has just been found. -/
theorem verdict_of_step? {e : Event} (h : t.step? e = some t') {x : Nat × Except TransferError Unit}
    (hx : x ∈ t'.verdicts) :
    x ∈ t.verdicts ∨ x.1 ∈ t.closing ∧ x.2 = t.ground.engine.outcome x.1 t.ground.storage := by
  cases e with
  | caller i =>
    obtain ⟨c, c', g, hc, hmove, rfl⟩ := caller_of_step? h
    rcases List.mem_append.mp hx with hx | hx
    · obtain ⟨d, hd, hxd⟩ := List.mem_flatMap.mp hx
      rcases List.mem_or_eq_of_mem_set hd with hd | rfl
      · exact .inl (List.mem_append_left _ (List.mem_flatMap.mpr ⟨d, hd, hxd⟩))
      · cases hmove with
        | judged =>
          rw [List.mem_singleton.mp hxd]
          refine .inr ⟨List.mem_append_left _ (List.mem_flatMap.mpr
            ⟨_, List.mem_of_getElem? hc, List.mem_singleton_self _⟩), rfl⟩
        | launched =>
          simp only [Stage.launched] at hxd
          split at hxd <;> cases hxd
        | _ => cases hxd
    · exact .inl (List.mem_append_right _ hx)
  | worker i =>
    obtain ⟨w, w', g, hw, hmove, rfl⟩ := worker_of_step? h
    rcases List.mem_append.mp hx with hx | hx
    · exact .inl (List.mem_append_left _ hx)
    · obtain ⟨d, hd, hxd⟩ := List.mem_flatMap.mp hx
      rcases List.mem_or_eq_of_mem_set hd with hd | rfl
      · exact .inl (List.mem_append_right _ (List.mem_flatMap.mpr ⟨d, hd, hxd⟩))
      · cases hmove with
        | judged =>
          rw [List.mem_singleton.mp hxd]
          refine .inr ⟨List.mem_append_right _ (List.mem_flatMap.mpr
            ⟨_, List.mem_of_getElem? hw, List.mem_singleton_self _⟩), rfl⟩
        | retired =>
          split at hxd <;> cases hxd
        | _ => cases hxd

/-- The result was found at a moment of the schedule, and the operation is as it
was then. -/
def Found (first : Traffic) (schedule : List Event) (t : Traffic)
    (x : Nat × Except TransferError Unit) : Prop :=
  ∃ before after u, schedule = before ++ after ∧ first.run? before = some u ∧ x.1 ∈ u.closing ∧
    t.ground.engine.flight? x.1 = u.ground.engine.flight? x.1 ∧
    x.2 = u.ground.engine.outcome x.1 u.ground.storage

theorem found_of_step? (hb : Balanced t) (hrun : first.run? schedule = some t)
    (hfound : ∀ x ∈ t.verdicts, Found first schedule t x) {e : Event}
    (hstep : t.step? e = some t') : ∀ x ∈ t'.verdicts, Found first (schedule ++ [e]) t' x := by
  intro x hx
  have hsame := fun hn => hb.flight?_of_closing (deed_of_step? hstep) hn (closing_of_verdict hx)
  rcases verdict_of_step? hstep hx with hold | ⟨hclosing, houtcome⟩
  · obtain ⟨before, after, u, hs, hu, hc, hf, ho⟩ := hfound x hold
    refine ⟨before, after ++ [e], u, by rw [hs, List.append_assoc], hu, hc, ?_, ho⟩
    rw [hsame (closing_of_verdict hold), hf]
  · exact ⟨schedule, [e], t, rfl, hrun, hclosing, hsame hclosing, houtcome⟩

/-- What was found is what the jobs and the file came to. -/
theorem attested_of_found (hb : ∀ before u, first.run? before = some u → Balanced u)
    (h : Found first schedule t (n, result)) : Attested first schedule n result := by
  obtain ⟨before, after, u, hs, hu, hc, -, ho⟩ := h
  have hbu := hb before u hu
  obtain ⟨f, hf, -⟩ := hbu.flight_of_closing hc
  obtain ⟨ranges, hstarted⟩ := hbu.operation n f hf
  obtain ⟨hnew, hjobs⟩ := hbu.of_closing hc
  refine ⟨before, after, u, f.operation, ranges, hs, hu, hstarted, hnew, hjobs, ho.trans ?_⟩
  have hfailure := hbu.failure n f hf
  cases hnoted : f.failure <;> simp [Engine.outcome, hf, ← hfailure, hnoted]

/-! ### The journal keeps the rules -/

/-- With nothing in flight no job is on its way. -/
theorem Balanced.waiting_eq_nil (h : Balanced t) (hn : t.ground.engine.numbers = []) :
    t.waiting = [] := by
  by_contra hne
  obtain ⟨j, hj⟩ := List.exists_mem_of_ne_nil _ hne
  obtain ⟨f, hf, -⟩ := h.flight_of_waiting hj
  have hmem := Engine.mem_numbers_of_flight? hf
  rw [hn] at hmem
  cases hmem

/-- So every inbox is empty, ... -/
theorem Balanced.inboxes_eq_nil (h : Balanced t) (hn : t.ground.engine.numbers = []) :
    ∀ inbox ∈ t.ground.engine.inboxes, inbox = [] := by
  intro inbox hi
  by_contra hne
  obtain ⟨j, hj⟩ := List.exists_mem_of_ne_nil _ hne
  have hjob := mem_waiting_of_inbox (List.mem_flatten.mpr ⟨inbox, hi, hj⟩)
  rw [h.waiting_eq_nil hn] at hjob
  cases hjob

/-- ... every worker is idle, ... -/
theorem Balanced.worker_eq_idle (h : Balanced t) (hn : t.ground.engine.numbers = []) {w : Worker}
    (hw : w ∈ t.workers) : w = .idle := by
  have hheld : ∀ j, j ∉ w.held := by
    intro j hj
    have hjob := mem_waiting_of_held hw hj
    rw [h.waiting_eq_nil hn] at hjob
    cases hjob
  have hspent : ∀ n, n ∉ w.spent := by
    intro n hspent
    obtain ⟨f, hf, -⟩ := h.flight_of_spent (List.mem_flatMap.mpr ⟨w, hw, hspent⟩)
    have hnum := Engine.mem_numbers_of_flight? hf
    rw [hn] at hnum
    cases hnum
  have hclosing : ∀ n, n ∉ w.closing := by
    intro n hclosing
    have hnum := h.mem_numbers_of_closing (mem_closing_of_worker hw hclosing)
    rw [hn] at hnum
    cases hnum
  cases w with
  | idle => rfl
  | moving j blocks => exact absurd (List.mem_singleton_self j) (hheld j)
  | failed j e => exact absurd (List.mem_singleton_self j) (hheld j)
  | done n => exact absurd (List.mem_singleton_self n) (hspent n)
  | ending n => exact absurd (List.mem_singleton_self n) (hclosing n)
  | reporting n result => exact absurd (List.mem_singleton_self n) (hclosing n)

/-- ... and no worker can move. -/
theorem Balanced.step?_worker_eq_none (h : Balanced t) (hn : t.ground.engine.numbers = [])
    (i : Nat) : t.step? (.worker i) = none := by
  by_contra hne
  obtain ⟨t', hstep⟩ := Option.ne_none_iff_exists'.mp hne
  obtain ⟨w, w', g, hw, hmove, rfl⟩ := worker_of_step? hstep
  obtain rfl := h.worker_eq_idle hn (List.mem_of_getElem? hw)
  cases hmove with
  | taken htake =>
    have hjob := mem_waiting_of_inbox ((flatten_of_take? htake).mem_iff.mpr List.mem_cons_self)
    rw [h.waiting_eq_nil hn] at hjob
    cases hjob

theorem Balanced.numbers_of_idle (h : Balanced t)
    (hidle : t.ground.engine.completion.isIdle = true) : t.ground.engine.numbers = [] := by
  have hzero : t.ground.engine.completion.inFlight = 0 := by simpa [Completion.isIdle] using hidle
  rw [← List.length_eq_zero_iff, ← h.inFlight, hzero]

theorem Balanced.operations_of_idle (h : Balanced t)
    (hidle : t.ground.engine.completion.isIdle = true) : t.ground.engine.operations = [] := by
  have hnumbers := h.numbers_of_idle hidle
  rw [Engine.numbers, List.map_eq_nil_iff] at hnumbers
  rw [Engine.operations, hnumbers]
  rfl

theorem Balanced.all_of_idle (h : Balanced t) (hn : t.ground.engine.numbers = []) :
    (planned t.ground.journal).Perm (ended t.ground.journal) ∧
      (begun t.ground.journal).Perm (finished t.ground.journal) := by
  have hjobs := h.jobs
  have hnumbers := h.numbers
  rw [h.waiting_eq_nil hn] at hjobs
  rw [hn] at hnumbers
  exact ⟨hjobs, hnumbers⟩

/-- Every deed adds to the journal what the rules allow. -/
theorem lawful_of_deed (hb : Balanced t) (hd : Deed t t')
    (hfound : ∀ x ∈ t.verdicts, Found first schedule t x)
    (h : Lawful t.ground.journal t.ground.engine.completion) :
    Lawful t'.ground.journal t'.ground.engine.completion := by
  cases hd with
  | quiet flights next completion journal =>
    rw [journal, completion]
    exact h
  | launched o ground =>
    rw [ground]
    exact .started _ _ _ h (fun hn => Nat.lt_irrefl _ (hb.fresh _ hn)) rfl
  | ran j result ground waiting =>
    have hcompletion := (t.ground.engine.noteResult_same j.flight result).2.2.1
    have hcount := hb.jobs.count_eq j
    have hpos : 0 < t.waiting.count j :=
      List.count_pos_iff.mpr (waiting.mem_iff.mpr List.mem_cons_self)
    rw [List.count_append] at hcount
    have hlt : (ended t.ground.journal).count j < (planned t.ground.journal).count j := by omega
    rw [ground]
    exact hcompletion ▸ .ran j result h hlt
  | retired n ground =>
    have hcompletion := (t.ground.engine.retire_same n).2
    rw [ground]
    exact hcompletion ▸ h
  | reported n result verdict ground waiting spent closing =>
    have hclosing : n ∈ t.closing := closing.mem_iff.mpr List.mem_cons_self
    have hmem := hb.mem_numbers_of_closing hclosing
    obtain ⟨hnew, hjobs⟩ := hb.of_closing hclosing
    have hpos : t.ground.engine.completion.inFlight ≠ 0 := by
      rw [hb.inFlight]
      exact Nat.ne_of_gt (List.length_pos_of_mem hmem)
    rw [ground]
    refine .reported n result h (hb.mem_begun hmem) hnew hjobs (fun e he => ?_) ?_
    · obtain ⟨before, after, u, -, -, hu, hf, ho⟩ := hfound _ verdict
      obtain ⟨f, hft, -⟩ := hb.flight_of_closing hclosing
      have hfail : f.failure = some e := (hb.failure n f hft).trans he
      simp only at ho
      rw [ho, Engine.outcome, ← hf, hft]
      simp only [hfail]
    · simp only [Completion.step?, if_neg hpos]
      rfl
  | drained idle ground =>
    have hzero : t.ground.engine.completion.inFlight = 0 := by simpa [Completion.isIdle] using idle
    obtain ⟨hjobs, hall⟩ := hb.all_of_idle (hb.numbers_of_idle idle)
    rw [ground]
    refine .drained _ h hall hjobs ?_
    simp only [Completion.step?, hzero, ↓reduceIte]
    rfl

/-- What is known of every state that a schedule reaches. -/
structure Recorded (first : Traffic) (schedule : List Event) (t : Traffic) : Prop where
  balanced : Balanced t
  lawful : Lawful t.ground.journal t.ground.engine.completion
  found : ∀ x ∈ t.verdicts, Found first schedule t x
  attested : ∀ n result, .reported n result ∈ t.ground.journal → Attested first schedule n result
  plan : ∀ n o ranges, .started n o ranges ∈ t.ground.journal → ranges = first.ground.engine.plan o

theorem Attested.append (h : Attested first schedule n result) (e : Event) :
    Attested first (schedule ++ [e]) n result := by
  obtain ⟨before, after, u, o, ranges, hs, hrest⟩ := h
  exact ⟨before, after ++ [e], u, o, ranges, by rw [hs, List.append_assoc], hrest⟩

/-- A step adds at most one occurrence: the start of an operation with the jobs
of its plan, the end of one that a verdict was found for, or another. -/
theorem journal_of_step? {e : Event} (h : t.step? e = some t') {x : Occurrence}
    (hx : x ∈ t'.ground.journal) : x ∈ t.ground.journal ∨
      (∃ n o, x = .started n o (t.ground.engine.plan o)) ∨
      (∃ n result, x = .reported n result ∧ (n, result) ∈ t.verdicts) ∨
      (∃ j result, x = .ran j result) ∨ ∃ answer, x = .drained answer := by
  cases deed_of_step? h with
  | quiet flights next completion journal =>
    rw [journal] at hx
    exact .inl hx
  | launched o ground =>
    rw [ground] at hx
    rcases List.mem_append.mp hx with hx | hx
    · exact .inl hx
    · exact .inr (.inl ⟨_, o, List.mem_singleton.mp hx⟩)
  | ran j result ground =>
    rw [ground] at hx
    rcases List.mem_append.mp hx with hx | hx
    · exact .inl hx
    · exact .inr (.inr (.inr (.inl ⟨j, result, List.mem_singleton.mp hx⟩)))
  | retired n ground =>
    rw [ground] at hx
    exact .inl hx
  | reported n result verdict ground =>
    rw [ground] at hx
    rcases List.mem_append.mp hx with hx | hx
    · exact .inl hx
    · exact .inr (.inr (.inl ⟨n, result, List.mem_singleton.mp hx, verdict⟩))
  | drained idle ground =>
    rw [ground] at hx
    rcases List.mem_append.mp hx with hx | hx
    · exact .inl hx
    · exact .inr (.inr (.inr (.inr ⟨_, List.mem_singleton.mp hx⟩)))

theorem recorded_of_run? (hb : Balanced first) (hj : first.ground.journal = [])
    (hc : first.ground.engine.completion = {}) (hv : first.verdicts = [])
    (hrun : first.run? schedule = some t) : Recorded first schedule t := by
  refine run_induction (P := Recorded first) ?_ ?_ hrun
  · exact
      { balanced := hb
        lawful := by
          rw [hj, hc]
          exact .nil
        found := by simp [hv]
        attested := by simp [hj]
        plan := by simp [hj] }
  · intro before u e u' hu h hstep
    have hfound := found_of_step? h.balanced hu h.found hstep
    have hsame := sameSettings_of_run? hu
    refine
      { balanced := h.balanced.deed (deed_of_step? hstep)
        lawful := lawful_of_deed h.balanced (deed_of_step? hstep) h.found h.lawful
        found := hfound
        attested := fun n result hx => ?attested
        plan := fun n o ranges hx => ?plan }
    case attested =>
      rcases journal_of_step? hstep hx with hx | ⟨_, _, hx⟩ | ⟨m, r, hx, hv⟩ | ⟨_, _, hx⟩ | ⟨_, hx⟩
      · exact (h.attested n result hx).append e
      · cases hx
      · cases hx
        exact (attested_of_found (fun _ _ => hb.run) (h.found _ hv)).append e
      · cases hx
      · cases hx
    case plan =>
      rcases journal_of_step? hstep hx with hx | ⟨_, _, hx⟩ | ⟨m, r, hx, hv⟩ | ⟨_, _, hx⟩ | ⟨_, hx⟩
      · exact h.plan n o ranges hx
      · cases hx
        exact hsame.plan o
      · cases hx
      · cases hx
      · cases hx

/-- Any number of callers hand their errands to a device of any settings that
keep the rules. Schedules of callers and workers are bounded, and after each of
them every operation was, or will be, finished exactly once. -/
theorem exactly_once {host : Host} {settings : DeviceSettings} {pool : Nat} {d : PosixDevice}
    (h : PosixDevice.create host settings pool = .ok d) (s : Storage)
    (errands : List (List Errand)) :
    (∃ bound, ∀ schedule t, (start d s errands).run? schedule = some t →
      schedule.length ≤ bound) ∧
    ∀ schedule t, (start d s errands).run? schedule = some t →
      ExactlyOnce (start d s errands) schedule t := by
  obtain ⟨hrest, -⟩ := PosixDevice.atRest_create h
  have hb := Balanced.of_start hrest s errands
  have hr := regular_start hrest s errands
  refine ⟨⟨(start d s errands).work, fun schedule t hrun => ?_⟩, fun schedule t hrun => ?_⟩
  · have := length_add_work_le hb hr hrun
    omega
  · have hv : (start d s errands).verdicts = [] := by
      simp [verdicts, start, List.flatMap_map, List.flatMap_replicate, Stage.verdict,
        Worker.verdict]
    have hrec := recorded_of_run? hb rfl hrest.completion hv hrun
    refine
      { lawful := hrec.lawful
        plan := hrec.plan
        jobs := hrec.balanced.jobs
        room := (sameSettings_of_run? hrun).queueDepth ▸ (hr.run hb hrun).roomy
        once := ?_
        inFlight := ?_
        verdict := hrec.attested
        done := fun hstuck => ?_ }
    · have := hrec.balanced.numbers.nodup_iff.mp hrec.balanced.nodup
      exact (List.nodup_append.mp this).2.1
    · have hlen := hrec.balanced.numbers.length_eq
      rw [List.length_append, ← hrec.balanced.inFlight] at hlen
      omega
    · obtain ⟨hover, -, hnumbers⟩ := done_of_stuck hstuck hrec.balanced (hr.run hb hrun)
      exact ⟨hover, hrec.balanced.all_of_idle hnumbers⟩

/-- Two callers, one with an empty buffer, and two workers with room for one job
each: the empty operation is finished first, and the schedule runs to the end. -/
theorem exactly_once_two_callers : ∃ d s errands schedule t,
    PosixDevice.create {} { blockSize := 1, queueDepth := 1, threadCount := 2 } 0 = .ok d ∧
    (start d s errands).run? schedule = some t ∧ t.isOver = true ∧
    finished t.ground.journal = [1, 0] ∧ ExactlyOnce (start d s errands) schedule t := by
  have hcreate : PosixDevice.create {} { blockSize := 1, queueDepth := 1, threadCount := 2 } 0 =
      .ok ⟨{ blockSize := 1, queueDepth := 1, threadCount := 2 },
        .idle { blockSize := 1, queueDepth := 1, threadCount := 2 }, ⟨0, 1, []⟩⟩ := rfl
  have hend : ((start ⟨{ blockSize := 1, queueDepth := 1, threadCount := 2 },
      .idle { blockSize := 1, queueDepth := 1, threadCount := 2 }, ⟨0, 1, []⟩⟩
      { memory := { regions := [[1, 2], []] } }
      [[.transfer ⟨.write, ⟨0, .u8, 2, none⟩, "p", true⟩, .wait],
        [.transfer ⟨.write, ⟨1, .u8, 0, none⟩, "q", false⟩, .wait]]).run?
      (List.replicate 9 (.caller 0) ++ List.replicate 6 (.caller 1) ++
        List.replicate 4 (.worker 0) ++ List.replicate 6 (.worker 1) ++
        [.caller 1, .caller 0])).map (fun t => (t.isOver, finished t.ground.journal)) =
      some (true, [1, 0]) := by decide
  obtain ⟨t, ht, he⟩ := Option.map_eq_some_iff.mp hend
  exact ⟨_, _, _, _, t, hcreate, ht, congrArg Prod.fst he, congrArg Prod.snd he,
    (exactly_once hcreate _ _).2 _ t ht⟩

end Traffic
end BlockTransfer
