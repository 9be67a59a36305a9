import BlockTransfer.Proofs.Device.Rest
import BlockTransfer.Proofs.Traffic.Deeds
/-!
# The engine's counters agree with the journal

The journal tells which jobs were planned and which have ended, which operations
have begun and which are finished. `Balanced` ties the engine to it: every job
planned waits or has ended, the count of an operation under way is the number of
its jobs that wait or are not counted yet, whoever has the end to report is the
only one to have it, and as many operations are in flight as have begun and are
not finished. Every deed keeps the balance, so every reachable state has it.

Key definitions: `Traffic.planned`, `Traffic.ended`, `Traffic.begun`,
`Traffic.finished`, `Traffic.failures`, `Traffic.Balanced`.
Key theorems: `Traffic.Balanced.deed`, `Traffic.Balanced.run`.
-/

namespace BlockTransfer
namespace Traffic

/-! ### Reading the journal -/

/-- The jobs that an occurrence plans. -/
def Occurrence.planned : Occurrence → List Job
  | .started n _ ranges => ranges.map (⟨n, ·⟩)
  | _ => []

/-- The job that an occurrence ends. -/
def Occurrence.ended : Occurrence → List Job
  | .ran j _ => [j]
  | _ => []

/-- The operation that an occurrence begins. -/
def Occurrence.begun : Occurrence → List Nat
  | .started n _ _ => [n]
  | _ => []

/-- The operation whose end an occurrence reports. -/
def Occurrence.finished : Occurrence → List Nat
  | .reported n _ => [n]
  | _ => []

/-- The failure of a job of that operation. -/
def Occurrence.failures (n : Nat) : Occurrence → List TransferError
  | .ran j (.error e) => if j.flight = n then [e] else []
  | _ => []

/-- The jobs planned so far. -/
def planned (journal : List Occurrence) : List Job := journal.flatMap Occurrence.planned

/-- The jobs that have ended so far. -/
def ended (journal : List Occurrence) : List Job := journal.flatMap Occurrence.ended

/-- The numbers of the operations begun so far. -/
def begun (journal : List Occurrence) : List Nat := journal.flatMap Occurrence.begun

/-- The numbers of the operations finished so far. -/
def finished (journal : List Occurrence) : List Nat := journal.flatMap Occurrence.finished

/-- The failures among the jobs of an operation, in the order in which they came. -/
def failures (n : Nat) (journal : List Occurrence) : List TransferError :=
  journal.flatMap (Occurrence.failures n)

section Journal

variable (journal : List Occurrence) (o : Occurrence)

@[simp] theorem planned_append : planned (journal ++ [o]) = planned journal ++ o.planned := by
  simp [planned]

@[simp] theorem ended_append : ended (journal ++ [o]) = ended journal ++ o.ended := by
  simp [ended]

@[simp] theorem begun_append : begun (journal ++ [o]) = begun journal ++ o.begun := by
  simp [begun]

@[simp] theorem finished_append : finished (journal ++ [o]) = finished journal ++ o.finished := by
  simp [finished]

@[simp] theorem failures_append (n : Nat) :
    failures n (journal ++ [o]) = failures n journal ++ o.failures n := by
  simp [failures]

end Journal

/-- Jobs are planned by operations that begin. -/
theorem flight_mem_begun {journal : List Occurrence} {j : Job} (h : j ∈ planned journal) :
    j.flight ∈ begun journal := by
  obtain ⟨o, ho, hj⟩ := List.mem_flatMap.mp h
  refine List.mem_flatMap.mpr ⟨o, ho, ?_⟩
  cases o with
  | started n operation ranges =>
    obtain ⟨r, -, rfl⟩ := List.mem_map.mp hj
    exact List.mem_singleton_self n
  | ran k result => cases hj
  | reported n result => cases hj
  | drained answer => cases hj

/-- A failure is one of a job that ended with it. -/
theorem exists_ran_of_failures {journal : List Occurrence} {n : Nat} {e : TransferError}
    (h : e ∈ failures n journal) : ∃ j, .ran j (.error e) ∈ journal ∧ j.flight = n := by
  obtain ⟨o, ho, he⟩ := List.mem_flatMap.mp h
  cases o with
  | ran j result =>
    cases result with
    | ok _ => cases he
    | error e' =>
      simp only [Occurrence.failures] at he
      by_cases hj : j.flight = n
      · rw [if_pos hj] at he
        rw [List.mem_singleton.mp he]
        exact ⟨j, ho, hj⟩
      · rw [if_neg hj] at he
        cases he
  | started n operation ranges => cases he
  | reported n result => cases he
  | drained answer => cases he

theorem mem_ended_of_ran {journal : List Occurrence} {j : Job} {result : Except TransferError Unit}
    (h : .ran j result ∈ journal) : j ∈ ended journal :=
  List.mem_flatMap.mpr ⟨_, h, List.mem_singleton_self j⟩

theorem mem_failures_of_ran {journal : List Occurrence} {j : Job} {e : TransferError}
    (h : .ran j (.error e) ∈ journal) : e ∈ failures j.flight journal :=
  List.mem_flatMap.mpr ⟨_, h, by simp [Occurrence.failures]⟩

theorem exists_ran_of_ended {journal : List Occurrence} {j : Job} (h : j ∈ ended journal) :
    ∃ result, .ran j result ∈ journal := by
  obtain ⟨o, ho, hj⟩ := List.mem_flatMap.mp h
  cases o with
  | ran k result =>
    rw [List.mem_singleton.mp hj]
    exact ⟨result, ho⟩
  | started n operation ranges => cases hj
  | reported n result => cases hj
  | drained answer => cases hj

theorem mem_begun_of_started {journal : List Occurrence} {n : Nat} {o : Operation}
    {ranges : List ByteRange} (h : .started n o ranges ∈ journal) : n ∈ begun journal :=
  List.mem_flatMap.mpr ⟨_, h, List.mem_singleton_self n⟩

theorem mem_planned_of_started {journal : List Occurrence} {n : Nat} {o : Operation}
    {ranges : List ByteRange} {r : ByteRange} (h : .started n o ranges ∈ journal)
    (hr : r ∈ ranges) : ⟨n, r⟩ ∈ planned journal :=
  List.mem_flatMap.mpr ⟨_, h, List.mem_map.mpr ⟨r, hr, rfl⟩⟩

/-- The operation of a number that begins is started under it. -/
theorem exists_started_of_begun {journal : List Occurrence} {n : Nat} (h : n ∈ begun journal) :
    ∃ o ranges, .started n o ranges ∈ journal := by
  obtain ⟨x, hx, hn⟩ := List.mem_flatMap.mp h
  cases x with
  | started m o ranges =>
    rw [List.mem_singleton.mp hn]
    exact ⟨o, ranges, hx⟩
  | ran j result => cases hn
  | reported m result => cases hn
  | drained answer => cases hn

/-- Operations that begin under different numbers are not mixed up. -/
theorem started_unique {n : Nat} {o o' : Operation} {ranges ranges' : List ByteRange} :
    ∀ {journal : List Occurrence}, (begun journal).Nodup → .started n o ranges ∈ journal →
      .started n o' ranges' ∈ journal → o = o' ∧ ranges = ranges'
  | [], _, h, _ => by cases h
  | x :: journal, hn, h, h' => by
    have hn : (x.begun ++ begun journal).Nodup := hn
    obtain ⟨-, htail, hdisj⟩ := List.nodup_append.mp hn
    rcases List.mem_cons.mp h with hx | htl
    · rcases List.mem_cons.mp h' with hx' | htl'
      · rw [← hx] at hx'
        cases hx'
        exact ⟨rfl, rfl⟩
      · subst hx
        exact absurd rfl (hdisj n (List.mem_singleton_self n) n (mem_begun_of_started htl'))
    · rcases List.mem_cons.mp h' with hx' | htl'
      · subst hx'
        exact absurd rfl (hdisj n (List.mem_singleton_self n) n (mem_begun_of_started htl))
      · exact started_unique htail htl htl'

/-- Operations that begin under different numbers plan different jobs. -/
theorem nodup_planned : ∀ {journal : List Occurrence}, (begun journal).Nodup →
    (∀ n o ranges, .started n o ranges ∈ journal → ranges.Nodup) → (planned journal).Nodup
  | [], _, _ => List.nodup_nil
  | x :: journal, hn, hr => by
    have hn : (x.begun ++ begun journal).Nodup := hn
    obtain ⟨-, htail, hdisj⟩ := List.nodup_append.mp hn
    have ih := nodup_planned htail fun n o ranges ho => hr n o ranges (List.mem_cons_of_mem _ ho)
    show (x.planned ++ planned journal).Nodup
    cases x with
    | started n o ranges =>
      refine List.nodup_append.mpr ⟨?_, ih, fun j hj k hk hjk => ?_⟩
      · exact (hr n o ranges List.mem_cons_self).map fun a b hab => congrArg Job.range hab
      · obtain ⟨r, -, rfl⟩ := List.mem_map.mp hj
        exact hdisj n (List.mem_singleton_self n) _ (flight_mem_begun hk) (congrArg Job.flight hjk)
    | ran j result => exact ih
    | reported n result => exact ih
    | drained answer => exact ih

/-- The jobs that are planned together are all of one operation. -/
theorem countP_flight_map (ranges : List ByteRange) (n m : Nat) :
    (ranges.map fun r => (⟨m, r⟩ : Job)).countP (fun j => decide (j.flight = n)) =
      if n = m then ranges.length else 0 := by
  rw [List.countP_map]
  split
  · rename_i hn
    exact List.countP_eq_length.mpr fun r _ => by simp [hn]
  · rename_i hn
    exact List.countP_eq_zero.mpr fun r _ => by simpa using Ne.symm hn

/-! ### The balance -/

/-- The engine's counters, the jobs on their way and the journal agree. -/
structure Balanced (t : Traffic) : Prop where
  jobs : (planned t.ground.journal).Perm (t.waiting ++ ended t.ground.journal)
  owed : ∀ n, t.ground.engine.owed n = t.waiting.countP (·.flight = n) + t.spent.count n
  due : ∀ n, t.ground.engine.due n = t.closing.count n
  numbers : (begun t.ground.journal).Perm (t.ground.engine.numbers ++ finished t.ground.journal)
  fresh : ∀ n ∈ begun t.ground.journal, n < t.ground.engine.nextFlight
  nodup : (begun t.ground.journal).Nodup
  inFlight : t.ground.engine.completion.inFlight = t.ground.engine.numbers.length
  failure : ∀ n f, t.ground.engine.flight? n = some f →
    f.failure = (failures n t.ground.journal).head?
  operation : ∀ n f, t.ground.engine.flight? n = some f →
    ∃ ranges, .started n f.operation ranges ∈ t.ground.journal

variable {t t' : Traffic}

namespace Balanced

theorem mem_begun (h : Balanced t) {n : Nat} (hn : n ∈ t.ground.engine.numbers) :
    n ∈ begun t.ground.journal :=
  h.numbers.mem_iff.mpr (List.mem_append_left _ hn)

theorem nodup_numbers (h : Balanced t) : t.ground.engine.numbers.Nodup :=
  (List.nodup_append.mp (h.numbers.nodup_iff.mp h.nodup)).1

/-- The next number is not taken. -/
theorem flight?_nextFlight (h : Balanced t) :
    t.ground.engine.flight? t.ground.engine.nextFlight = none :=
  Engine.flight?_eq_none_iff.mpr fun hn => Nat.lt_irrefl _ (h.fresh _ (h.mem_begun hn))

/-- No job of the next number has ended, so none has failed. -/
theorem failures_nextFlight (h : Balanced t) :
    failures t.ground.engine.nextFlight t.ground.journal = [] := by
  by_contra hne
  obtain ⟨e, he⟩ := List.exists_mem_of_ne_nil _ hne
  obtain ⟨j, hran, hflight⟩ := exists_ran_of_failures he
  have hj := mem_ended_of_ran hran
  have hmem := flight_mem_begun (h.jobs.mem_iff.mpr (List.mem_append_right _ hj))
  exact Nat.lt_irrefl _ (hflight ▸ h.fresh _ hmem)

/-- A job that is planned once is in one place at most. -/
theorem nodup_waiting (h : Balanced t)
    (hr : ∀ n o ranges, .started n o ranges ∈ t.ground.journal → ranges.Nodup) :
    t.waiting.Nodup :=
  (List.nodup_append.mp (h.jobs.nodup_iff.mp (nodup_planned h.nodup hr))).1

/-- The operation of a job on its way is under way. -/
theorem flight_of_waiting (h : Balanced t) {j : Job} (hj : j ∈ t.waiting) :
    ∃ f, t.ground.engine.flight? j.flight = some f ∧ 0 < f.remaining := by
  refine Engine.flight?_of_owed_pos ?_
  rw [h.owed]
  have : 0 < t.waiting.countP (·.flight = j.flight) :=
    List.countP_pos_iff.mpr ⟨j, hj, by simp⟩
  omega

/-- No job on its way is of the next operation. -/
theorem flight_ne_nextFlight (h : Balanced t) {j : Job} (hj : j ∈ t.waiting) :
    j.flight ≠ t.ground.engine.nextFlight := by
  intro hflight
  obtain ⟨f, hf, -⟩ := h.flight_of_waiting hj
  rw [hflight, h.flight?_nextFlight] at hf
  cases hf

/-- An operation has no job on its way once as many have ended as were planned. -/
theorem not_waiting_of_ended (h : Balanced t) {n : Nat} (hended : ∀ j : Job, j.flight = n →
      (ended t.ground.journal).count j = (planned t.ground.journal).count j) :
    ∀ j ∈ t.waiting, j.flight ≠ n := by
  intro j hj hjn
  have hcount := h.jobs.count_eq j
  have hpos := List.count_pos_iff.mpr hj
  have heq := hended j hjn
  rw [List.count_append] at hcount
  omega

theorem flight_of_spent (h : Balanced t) {n : Nat} (hn : n ∈ t.spent) :
    ∃ f, t.ground.engine.flight? n = some f ∧ 0 < f.remaining := by
  refine Engine.flight?_of_owed_pos ?_
  rw [h.owed]
  have := List.count_pos_iff.mpr hn
  omega

theorem flight_of_closing (h : Balanced t) {n : Nat} (hn : n ∈ t.closing) :
    ∃ f, t.ground.engine.flight? n = some f ∧ f.remaining = 0 := by
  refine Engine.flight?_of_due_pos ?_
  rw [h.due]
  exact List.count_pos_iff.mpr hn

/-- An operation under way owes a job, or its end is to be reported. -/
theorem numbers_eq_nil (h : Balanced t) (hwaiting : t.waiting = []) (hspent : t.spent = [])
    (hclosing : t.closing = []) : t.ground.engine.numbers = [] := by
  by_contra hne
  obtain ⟨n, hn⟩ := List.exists_mem_of_ne_nil _ hne
  obtain ⟨f, hf⟩ := Engine.exists_flight? hn
  have howed : t.ground.engine.owed n = 0 := by rw [h.owed, hwaiting, hspent]; rfl
  have hdue : t.ground.engine.due n = 0 := by rw [h.due, hclosing]; rfl
  rw [Engine.owed_eq hf] at howed
  rw [Engine.due_eq hf, if_pos howed] at hdue
  cases hdue

theorem mem_numbers_of_closing (h : Balanced t) {n : Nat} (hn : n ∈ t.closing) :
    n ∈ t.ground.engine.numbers := by
  obtain ⟨f, hf, -⟩ := h.flight_of_closing hn
  exact Engine.mem_numbers_of_flight? hf

/-- The operation under way is the one that was started under its number. -/
theorem operation_eq (h : Balanced t) {n : Nat} {f : Flight} {o : Operation}
    {ranges : List ByteRange} (hf : t.ground.engine.flight? n = some f)
    (hstarted : .started n o ranges ∈ t.ground.journal) : f.operation = o := by
  obtain ⟨ranges', hstarted'⟩ := h.operation n f hf
  exact (started_unique h.nodup hstarted' hstarted).1

/-- An operation whose end is to be reported has no job on its way. -/
theorem not_waiting_of_closing (h : Balanced t) {n : Nat} (hn : n ∈ t.closing) :
    (∀ j ∈ t.waiting, j.flight ≠ n) ∧ n ∉ t.spent := by
  obtain ⟨f, hf, hr⟩ := h.flight_of_closing hn
  constructor
  · intro j hj hjn
    obtain ⟨f', hf', hr'⟩ := h.flight_of_waiting hj
    rw [hjn, hf] at hf'
    cases hf'
    omega
  · intro hs
    obtain ⟨f', hf', hr'⟩ := h.flight_of_spent hs
    rw [hf] at hf'
    cases hf'
    omega

/-- An operation whose end is to be reported is not finished, and all its jobs
have ended. -/
theorem of_closing (h : Balanced t) {n : Nat} (hn : n ∈ t.closing) :
    n ∉ finished t.ground.journal ∧ ∀ j : Job, j.flight = n →
      (ended t.ground.journal).count j = (planned t.ground.journal).count j := by
  constructor
  · intro hfin
    have hnum := h.mem_numbers_of_closing hn
    exact (List.nodup_append.mp (h.numbers.nodup_iff.mp h.nodup)).2.2 n hnum n hfin rfl
  · intro j hj
    have hcount := h.jobs.count_eq j
    have hzero : t.waiting.count j = 0 :=
      List.count_eq_zero.mpr fun hmem => (h.not_waiting_of_closing hn).1 j hmem hj
    rw [List.count_append] at hcount
    omega

/-! ### It holds at the start -/

theorem of_start {d : PosixDevice} (hd : d.AtRest) (s : Storage) (errands : List (List Errand)) :
    Balanced (start d s errands) := by
  have hcallers : ∀ {β : Type} {f : Stage → List β}, f .free = [] →
      ((start d s errands).callers.flatMap fun c => f c.stage) = [] := by
    intro β f hf
    simp [start, List.flatMap_map, hf]
  have hworkers : ∀ {β : Type} {f : Worker → List β}, f .idle = [] →
      (start d s errands).workers.flatMap f = [] := by
    intro β f hf
    simp [start, List.flatMap_replicate, hf]
  have hinboxes : (start d s errands).ground.engine.inboxes.flatten = [] := hd.flatten_inboxes
  have hflights : (start d s errands).ground.engine.flights = [] := hd.flights
  have hwaiting : (start d s errands).waiting = [] := by
    rw [waiting, hcallers rfl, hinboxes, hworkers rfl]
    rfl
  have hspent : (start d s errands).spent = [] := hworkers rfl
  have hclosing : (start d s errands).closing = [] := by
    rw [closing, hcallers rfl, hworkers rfl]
    rfl
  have hnumbers : (start d s errands).ground.engine.numbers = [] := by
    rw [Engine.numbers, hflights]
    rfl
  have hnone : ∀ n, (start d s errands).ground.engine.flight? n = none := by
    intro n
    rw [Engine.flight?_eq_none_iff, hnumbers]
    exact List.not_mem_nil
  exact
    { jobs := by rw [hwaiting]; exact .refl []
      owed := fun n => by rw [Engine.owed, hnone, hwaiting, hspent]; rfl
      due := fun n => by rw [Engine.due, hnone, hclosing]; rfl
      numbers := by rw [hnumbers]; exact .refl []
      fresh := fun n hn => absurd hn List.not_mem_nil
      nodup := List.nodup_nil
      inFlight := by
        rw [hnumbers]
        exact congrArg Completion.inFlight hd.completion
      failure := fun n f hf => by rw [hnone] at hf; cases hf
      operation := fun n f hf => by rw [hnone] at hf; cases hf }

/-! ### Every deed keeps it -/

theorem quiet (h : Balanced t) (hf : t'.ground.engine.flights = t.ground.engine.flights)
    (hn : t'.ground.engine.nextFlight = t.ground.engine.nextFlight)
    (hc : t'.ground.engine.completion.inFlight = t.ground.engine.completion.inFlight)
    {o : List Occurrence} (hj : t'.ground.journal = t.ground.journal ++ o)
    (ho : o = [] ∨ ∃ answer, o = [.drained answer])
    (hw : t'.waiting.Perm t.waiting) (hs : t'.spent.Perm t.spent)
    (hcl : t'.closing.Perm t.closing) : Balanced t' := by
  have hflight := fun n => Engine.flight?_congr hf n
  have hnumbers : t'.ground.engine.numbers = t.ground.engine.numbers := by
    simp only [Engine.numbers, hf]
  have hread : planned t'.ground.journal = planned t.ground.journal ∧
      ended t'.ground.journal = ended t.ground.journal ∧
      begun t'.ground.journal = begun t.ground.journal ∧
      finished t'.ground.journal = finished t.ground.journal ∧
      ∀ n, failures n t'.ground.journal = failures n t.ground.journal := by
    rw [hj]
    rcases ho with rfl | ⟨answer, rfl⟩
    · simp
    · simp [Occurrence.planned, Occurrence.ended, Occurrence.begun, Occurrence.finished,
        Occurrence.failures]
  obtain ⟨hplanned, hended, hbegun, hfinished, hfailures⟩ := hread
  refine
    { jobs := ?jobs, owed := fun n => ?owed, due := fun n => ?due, numbers := ?numbers,
      fresh := ?fresh, nodup := ?nodup, inFlight := ?inFlight,
      failure := fun n f hnf => ?failure, operation := fun n f hnf => ?operation }
  case jobs =>
    rw [hplanned, hended]
    exact h.jobs.trans (hw.symm.append_right _)
  case owed =>
    rw [Engine.owed, hflight, hw.countP_eq, hs.count_eq]
    exact h.owed n
  case due =>
    rw [Engine.due, hflight, hcl.count_eq]
    exact h.due n
  case numbers =>
    rw [hbegun, hnumbers, hfinished]
    exact h.numbers
  case fresh =>
    rw [hbegun, hn]
    exact h.fresh
  case nodup =>
    rw [hbegun]
    exact h.nodup
  case inFlight =>
    rw [hc, hnumbers]
    exact h.inFlight
  case failure =>
    rw [hflight] at hnf
    rw [hfailures]
    exact h.failure n f hnf
  case operation =>
    rw [hflight] at hnf
    obtain ⟨ranges, hmem⟩ := h.operation n f hnf
    exact ⟨ranges, hj ▸ List.mem_append_left _ hmem⟩

theorem launched (h : Balanced t) (o : Operation) (hg : t'.ground = t.ground.launch o)
    (hw : t'.waiting.Perm
      ((t.ground.engine.plan o).map (⟨t.ground.engine.nextFlight, ·⟩) ++ t.waiting))
    (hs : t'.spent.Perm t.spent)
    (hc : t'.closing.Perm
      ((if t.ground.engine.plan o = [] then [t.ground.engine.nextFlight] else []) ++ t.closing)) :
    Balanced t' := by
  have hk := h.flight?_nextFlight
  have hj : t'.ground.journal = t.ground.journal ++
      [.started t.ground.engine.nextFlight o (t.ground.engine.plan o)] := by rw [hg]; rfl
  have he : t'.ground.engine = (t.ground.engine.launch o (t.ground.engine.plan o).length).2 := by
    rw [hg]
    rfl
  generalize t.ground.engine.plan o = ranges at *
  have howed : t.ground.engine.owed t.ground.engine.nextFlight = 0 := by rw [Engine.owed, hk]; rfl
  have hdue : t.ground.engine.due t.ground.engine.nextFlight = 0 := by rw [Engine.due, hk]; rfl
  rw [h.owed] at howed
  rw [h.due] at hdue
  have hnumbers : t'.ground.engine.numbers =
      t.ground.engine.numbers ++ [t.ground.engine.nextFlight] := by
    rw [he]
    simp [Engine.numbers, Engine.launch]
  refine
    { jobs := ?jobs, owed := fun n => ?owed, due := fun n => ?due, numbers := ?numbers,
      fresh := ?fresh, nodup := ?nodup, inFlight := ?inFlight,
      failure := fun n f hnf => ?failure, operation := fun n f hnf => ?operation }
  case jobs =>
    rw [hj]
    simp only [planned_append, ended_append, Occurrence.planned, Occurrence.ended, List.append_nil]
    generalize ranges.map _ = jobs at hw
    calc (planned t.ground.journal ++ jobs).Perm
          (t.waiting ++ ended t.ground.journal ++ jobs) := h.jobs.append_right _
      List.Perm _ (jobs ++ (t.waiting ++ ended t.ground.journal)) := List.perm_append_comm
      List.Perm _ (jobs ++ t.waiting ++ ended t.ground.journal) :=
        .of_eq (List.append_assoc ..).symm
      List.Perm _ (t'.waiting ++ ended t.ground.journal) := hw.symm.append_right _
  case owed =>
    rw [he, Engine.owed_launch _ _ _ _ hk, hw.countP_eq, hs.count_eq, List.countP_append,
      countP_flight_map]
    split
    · rename_i hn
      rw [hn]
      omega
    · rw [h.owed]
      omega
  case due =>
    rw [he, Engine.due_launch _ _ _ _ hk, hc.count_eq, List.count_append]
    split
    · rename_i hn
      rw [hn, hdue]
      by_cases hr : ranges = [] <;> simp [hr]
    · rename_i hn
      rw [h.due]
      by_cases hr : ranges = [] <;> simp [hr, Ne.symm hn]
  case numbers =>
    rw [hj, hnumbers]
    simp only [begun_append, finished_append, Occurrence.begun, Occurrence.finished,
      List.append_nil]
    refine (h.numbers.append_right _).trans ?_
    rw [List.append_assoc, List.append_assoc]
    exact List.perm_append_comm.append_left _
  case fresh =>
    rw [hj, he]
    intro n hn
    simp only [begun_append, Occurrence.begun, List.mem_append, List.mem_singleton] at hn
    show n < t.ground.engine.nextFlight + 1
    rcases hn with hn | rfl
    · exact Nat.lt_succ_of_lt (h.fresh n hn)
    · exact Nat.lt_succ_self _
  case nodup =>
    rw [hj, begun_append]
    refine List.nodup_append.mpr ⟨h.nodup, List.nodup_singleton _, fun a ha b hb => ?_⟩
    rw [List.mem_singleton.mp hb]
    exact Nat.ne_of_lt (h.fresh a ha)
  case inFlight =>
    rw [he, Engine.numbers]
    simp only [Engine.launch, Completion.begin, List.map_append, List.length_append,
      List.map_cons, List.map_nil, List.length_singleton]
    rw [h.inFlight, Engine.numbers]
  case failure =>
    rw [he, Engine.flight?_launch _ _ _ _ hk] at hnf
    rw [hj, failures_append]
    split at hnf
    · rename_i hn
      cases hnf
      rw [hn, h.failures_nextFlight]
      rfl
    · simp only [Occurrence.failures, List.append_nil]
      exact h.failure n f hnf
  case operation =>
    rw [he, Engine.flight?_launch _ _ _ _ hk] at hnf
    rw [hj]
    split at hnf
    · rename_i hn
      cases hnf
      exact ⟨ranges, by simp [hn]⟩
    · obtain ⟨rs, hmem⟩ := h.operation n f hnf
      exact ⟨rs, List.mem_append_left _ hmem⟩

theorem ran (h : Balanced t) (j : Job) (result : Except TransferError Unit)
    (hg : t'.ground =
      (t.ground.run (t.ground.engine.noteResult j.flight result)).log (.ran j result))
    (hw : t.waiting.Perm (j :: t'.waiting)) (hs : t'.spent.Perm (j.flight :: t.spent))
    (hc : t'.closing.Perm t.closing) : Balanced t' := by
  have hj : t'.ground.journal = t.ground.journal ++ [.ran j result] := by rw [hg]; rfl
  have he : t'.ground.engine = t.ground.engine.noteResult j.flight result := by rw [hg]; rfl
  obtain ⟨hnumbers, hnext, hcompletion, howed, hdue⟩ :=
    t.ground.engine.noteResult_same j.flight result
  rw [← he] at hnumbers hnext hcompletion howed hdue
  -- the only thing that changes in an operation is the failure noted, and only in that one
  have hflight : ∀ n f, t'.ground.engine.flight? n = some f →
      ∃ f₀, t.ground.engine.flight? n = some f₀ ∧ f.operation = f₀.operation ∧
        f.failure = (f₀.failure.toList ++ (Occurrence.ran j result).failures n).head? := by
    intro n f hnf
    rw [he] at hnf
    cases result with
    | ok _ => exact ⟨f, hnf, rfl, by cases f.failure <;> simp [Occurrence.failures]⟩
    | error e =>
      simp only [Engine.noteResult, Engine.flight?_note] at hnf
      split at hnf
      · rename_i hn
        obtain ⟨f₀, hf₀, rfl⟩ := Option.map_eq_some_iff.mp hnf
        refine ⟨f₀, hn ▸ hf₀, rfl, ?_⟩
        cases hfail : f₀.failure <;> simp [Occurrence.failures, hn]
      · rename_i hn
        refine ⟨f, hnf, rfl, ?_⟩
        cases hfail : f.failure <;> simp [Occurrence.failures, Ne.symm hn]
  refine
    { jobs := ?jobs, owed := fun n => ?owed, due := fun n => ?due, numbers := ?numbers,
      fresh := ?fresh, nodup := ?nodup, inFlight := ?inFlight,
      failure := fun n f hnf => ?failure, operation := fun n f hnf => ?operation }
  case jobs =>
    rw [hj]
    simp only [planned_append, ended_append, Occurrence.planned, Occurrence.ended, List.append_nil]
    calc (planned t.ground.journal).Perm (t.waiting ++ ended t.ground.journal) := h.jobs
      List.Perm _ (j :: t'.waiting ++ ended t.ground.journal) := hw.append_right _
      List.Perm _ (t'.waiting ++ ended t.ground.journal ++ [j]) :=
        (List.perm_append_singleton ..).symm
      List.Perm _ (t'.waiting ++ (ended t.ground.journal ++ [j])) := .of_eq (List.append_assoc ..)
  case owed =>
    have h1 := hw.countP_eq fun k => decide (k.flight = n)
    have h2 := hs.count_eq n
    have h3 := h.owed n
    rw [List.countP_cons] at h1
    rw [List.count_cons] at h2
    rw [howed]
    by_cases hn : j.flight = n <;> simp [hn] at h1 h2 <;> omega
  case due =>
    rw [hdue, hc.count_eq]
    exact h.due n
  case numbers =>
    rw [hj, hnumbers]
    simpa [Occurrence.begun, Occurrence.finished] using h.numbers
  case fresh =>
    rw [hj, hnext]
    simpa [Occurrence.begun] using h.fresh
  case nodup =>
    rw [hj]
    simpa [Occurrence.begun] using h.nodup
  case inFlight =>
    rw [hcompletion, hnumbers]
    exact h.inFlight
  case failure =>
    obtain ⟨f₀, hf₀, -, hfail⟩ := hflight n f hnf
    rw [hfail, hj, failures_append, h.failure n f₀ hf₀, List.head?_append, List.head?_append]
    cases (failures n t.ground.journal).head? <;> rfl
  case operation =>
    obtain ⟨f₀, hf₀, hop, -⟩ := hflight n f hnf
    obtain ⟨ranges, hmem⟩ := h.operation n f₀ hf₀
    rw [hj, hop]
    exact ⟨ranges, List.mem_append_left _ hmem⟩

theorem retired (h : Balanced t) (n : Nat)
    (hg : t'.ground = t.ground.run (t.ground.engine.retire n).2)
    (hw : t'.waiting.Perm t.waiting) (hs : t.spent.Perm (n :: t'.spent))
    (hc : t'.closing.Perm ((if (t.ground.engine.retire n).1 then [n] else []) ++ t.closing)) :
    Balanced t' := by
  have hj : t'.ground.journal = t.ground.journal := by rw [hg]; rfl
  have he : t'.ground.engine = (t.ground.engine.retire n).2 := by rw [hg]; rfl
  obtain ⟨f, hf, hpos⟩ := h.flight_of_spent (hs.mem_iff.mpr List.mem_cons_self)
  have hnumbers : t'.ground.engine.numbers = t.ground.engine.numbers := by
    rw [he, Engine.numbers_retire]
  have hflight : ∀ m g, t'.ground.engine.flight? m = some g →
      ∃ g₀, t.ground.engine.flight? m = some g₀ ∧ g.operation = g₀.operation ∧
        g.failure = g₀.failure := by
    intro m g hm
    rw [he, Engine.flight?_retire hf] at hm
    split at hm
    · rename_i hmn
      cases hm
      exact ⟨f, hmn ▸ hf, rfl, rfl⟩
    · exact ⟨g, hm, rfl, rfl⟩
  refine
    { jobs := ?jobs, owed := fun m => ?owed, due := fun m => ?due, numbers := ?numbers,
      fresh := ?fresh, nodup := ?nodup, inFlight := ?inFlight,
      failure := fun m g hm => ?failure, operation := fun m g hm => ?operation }
  case jobs =>
    rw [hj]
    exact h.jobs.trans (hw.symm.append_right _)
  case owed =>
    have h1 := hs.count_eq m
    have h2 := h.owed m
    rw [List.count_cons] at h1
    rw [he, Engine.owed_retire hf, hw.countP_eq]
    split
    · rename_i hmn
      subst hmn
      rw [Engine.owed_eq hf] at h2
      simp at h1
      omega
    · rename_i hmn
      simp [Ne.symm hmn] at h1
      omega
  case due =>
    have h2 := h.due m
    rw [he, Engine.due_retire hf, hc.count_eq, List.count_append, Engine.retire_eq hf]
    split
    · rename_i hmn
      subst hmn
      rw [Engine.due_eq hf, if_neg (by omega)] at h2
      rw [← h2]
      by_cases hr : f.remaining = 1
      · simp [hr]
      · rw [if_neg (by omega)]
        simp [hr]
    · rename_i hmn
      rw [h2]
      by_cases hr : f.remaining = 1 <;> simp [hr, Ne.symm hmn]
  case numbers =>
    rw [hj, hnumbers]
    exact h.numbers
  case fresh =>
    rw [hj, he, (Engine.retire_same _ n).1]
    exact h.fresh
  case nodup =>
    rw [hj]
    exact h.nodup
  case inFlight =>
    rw [hnumbers, he, (Engine.retire_same _ n).2]
    exact h.inFlight
  case failure =>
    obtain ⟨g₀, hg₀, -, hfail⟩ := hflight m g hm
    rw [hfail, hj]
    exact h.failure m g₀ hg₀
  case operation =>
    obtain ⟨g₀, hg₀, hop, -⟩ := hflight m g hm
    rw [hop, hj]
    exact h.operation m g₀ hg₀

theorem reported (h : Balanced t) (n : Nat) (result : Except TransferError Unit)
    (hg : t'.ground = t.ground.report n result)
    (hw : t'.waiting.Perm t.waiting) (hs : t'.spent.Perm t.spent)
    (hc : t.closing.Perm (n :: t'.closing)) : Balanced t' := by
  have hj : t'.ground.journal = t.ground.journal ++ [.reported n result] := by rw [hg]; rfl
  have he : t'.ground.engine = t.ground.engine.report n result := by rw [hg]; rfl
  obtain ⟨f, hf, hzero⟩ := h.flight_of_closing (hc.mem_iff.mpr List.mem_cons_self)
  have hmem := Engine.mem_numbers_of_flight? hf
  have hnumbers : t'.ground.engine.numbers = t.ground.engine.numbers.erase n := by
    rw [he, Engine.numbers_report, h.nodup_numbers.erase_eq_filter]
    exact List.filter_congr fun x _ => by by_cases hx : x = n <;> simp [hx]
  have hflight : ∀ m g, t'.ground.engine.flight? m = some g →
      t.ground.engine.flight? m = some g := by
    intro m g hm
    rw [he, Engine.flight?_report] at hm
    split at hm
    · cases hm
    · exact hm
  refine
    { jobs := ?jobs, owed := fun m => ?owed, due := fun m => ?due, numbers := ?numbers,
      fresh := ?fresh, nodup := ?nodup, inFlight := ?inFlight,
      failure := fun m g hm => ?failure, operation := fun m g hm => ?operation }
  case jobs =>
    rw [hj]
    simp only [planned_append, ended_append, Occurrence.planned, Occurrence.ended, List.append_nil]
    exact h.jobs.trans (hw.symm.append_right _)
  case owed =>
    have h2 := h.owed m
    rw [he, Engine.owed_report, hw.countP_eq, hs.count_eq]
    split
    · rename_i hmn
      subst hmn
      rw [Engine.owed_eq hf] at h2
      omega
    · exact h2
  case due =>
    have h1 := hc.count_eq m
    have h2 := h.due m
    rw [List.count_cons] at h1
    rw [he, Engine.due_report]
    split
    · rename_i hmn
      subst hmn
      have := Engine.due_le_one t.ground.engine m
      simp at h1
      omega
    · rename_i hmn
      simp [Ne.symm hmn] at h1
      omega
  case numbers =>
    rw [hj, hnumbers]
    simp only [begun_append, finished_append, Occurrence.begun, Occurrence.finished,
      List.append_nil]
    calc (begun t.ground.journal).Perm
          (t.ground.engine.numbers ++ finished t.ground.journal) := h.numbers
      List.Perm _ (n :: t.ground.engine.numbers.erase n ++ finished t.ground.journal) :=
        (List.perm_cons_erase hmem).append_right _
      List.Perm _ (t.ground.engine.numbers.erase n ++ finished t.ground.journal ++ [n]) :=
        (List.perm_append_singleton ..).symm
      List.Perm _ (t.ground.engine.numbers.erase n ++ (finished t.ground.journal ++ [n])) :=
        .of_eq (List.append_assoc ..)
  case fresh =>
    have hnext : t'.ground.engine.nextFlight = t.ground.engine.nextFlight := by rw [he]; rfl
    rw [hj, hnext]
    simpa [Occurrence.begun] using h.fresh
  case nodup =>
    rw [hj]
    simpa [Occurrence.begun] using h.nodup
  case inFlight =>
    rw [hnumbers, he, List.length_erase_of_mem hmem, ← h.inFlight]
    rfl
  case failure =>
    rw [hj, failures_append]
    simpa [Occurrence.failures] using h.failure m g (hflight m g hm)
  case operation =>
    obtain ⟨ranges, hstarted⟩ := h.operation m g (hflight m g hm)
    rw [hj]
    exact ⟨ranges, List.mem_append_left _ hstarted⟩

theorem deed (h : Balanced t) (hd : Deed t t') : Balanced t' := by
  cases hd with
  | quiet flights next completion journal waiting spent closing =>
    exact h.quiet flights next (congrArg Completion.inFlight completion)
      (journal.trans (List.append_nil _).symm) (.inl rfl) waiting spent closing
  | launched o ground waiting spent closing => exact h.launched o ground waiting spent closing
  | ran j result ground waiting spent closing => exact h.ran j result ground waiting spent closing
  | retired n ground waiting spent closing => exact h.retired n ground waiting spent closing
  | reported n result verdict ground waiting spent closing =>
    exact h.reported n result ground waiting spent closing
  | drained idle ground waiting spent closing =>
    exact h.quiet (o := [.drained t.ground.engine.completion.drain.1]) (by rw [ground]; rfl)
      (by rw [ground]; rfl) (by rw [ground]; rfl) (by rw [ground]; rfl) (.inr ⟨_, rfl⟩)
      waiting spent closing

/-- The balance holds after every schedule. -/
theorem run (h : Balanced t) {schedule : List Event} (hrun : t.run? schedule = some t') :
    Balanced t' :=
  run_induction (P := fun _ u => Balanced u) h
    (fun _ _ _ _ _ hu hstep => hu.deed (deed_of_step? hstep)) hrun

end Balanced

end Traffic
end BlockTransfer
