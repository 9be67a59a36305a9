import BlockTransfer.Proofs.Traffic.Settling
/-!
# What is reported of the orders of one caller

While a caller is alone with the workers and its operations are apart, every job
ends as the verdict on its operation tells, and so does the operation
(`Traffic.verdict_of_reported`): a failure of a job is the verdict, and without
one the comparison at the end finds every byte in place. The completions count
what was reported since the last wait (`Traffic.Lawful.counts`), so the wait
answers with the number of operations, or with one of the failures
(`Traffic.waited_of_settled`).

Key definitions: `Traffic.Truthful`, `Traffic.Waited`.
Key theorems: `Traffic.verdict_of_reported`, `Traffic.waited_of_settled`.
-/

namespace BlockTransfer
namespace Traffic

open Operation

variable {d : PosixDevice} {s : Storage} {calls rest : List Order} {first t t' : Traffic}
  {schedule : List Event} {c : Caller} {past : List (Except TransferError Operation)}

/-! ### Jobs end as the verdict tells -/

/-- Every job that has ended did so as the verdict on its operation tells. -/
def Truthful (s : Storage) (journal : List Occurrence) : Prop :=
  ∀ j result, .ran j result ∈ journal → ∀ o ranges, .started j.flight o ranges ∈ journal →
    result = o.verdict s

/-- Occurrences that neither start an operation nor end a job do not matter. -/
theorem Truthful.append {journal : List Occurrence} (h : Truthful s journal) {x : Occurrence}
    (hran : ∀ j result, x ≠ .ran j result) (hstarted : ∀ n o ranges, x ≠ .started n o ranges) :
    Truthful s (journal ++ [x]) := by
  intro j result hj o ranges ho
  have hj : .ran j result ∈ journal := by
    rcases List.mem_append.mp hj with hj | hj
    · exact hj
    · exact absurd (List.mem_singleton.mp hj).symm (hran j result)
  rcases List.mem_append.mp ho with ho | ho
  · exact h j result hj o ranges ho
  · exact absurd (List.mem_singleton.mp ho).symm (hstarted _ o ranges)

/-- All jobs of a refused operation fail. -/
theorem Truthful.mem_failures {journal : List Occurrence} (h : Truthful s journal) {n : Nat}
    {o : Operation} {ranges : List ByteRange} (hstarted : .started n o ranges ∈ journal)
    (hended : ∀ j : Job, j.flight = n → (ended journal).count j = (planned journal).count j)
    (hne : ranges ≠ []) {e : TransferError} (hv : o.verdict s = .error e) :
    e ∈ failures n journal := by
  obtain ⟨r, hr⟩ := List.exists_mem_of_ne_nil _ hne
  have hjob : (⟨n, r⟩ : Job) ∈ ended journal := by
    rw [← List.count_pos_iff, hended _ rfl, List.count_pos_iff]
    exact mem_planned_of_started hstarted hr
  obtain ⟨result, hran⟩ := exists_ran_of_ended hjob
  have herror := h _ _ hran o ranges hstarted
  rw [hv] at herror
  subst herror
  exact mem_failures_of_ran hran

theorem truthful_of_step? (h : Alone first calls t c past rest) (hs : Setting first)
    (hrec : Recorded first schedule t) (htrue : Truthful first.ground.storage t.ground.journal)
    {e : Event} (hstep : t.step? e = some t') :
    Truthful first.ground.storage t'.ground.journal := by
  have hdeed := deed_of_step? hstep
  cases hdeed with
  | quiet _ _ _ journal => exact journal ▸ htrue
  | retired n ground => exact ground ▸ htrue
  | reported n result _ ground =>
    rw [ground]
    exact htrue.append (by simp) (by simp)
  | drained _ ground =>
    rw [ground]
    exact htrue.append (by simp) (by simp)
  | launched o ground =>
    rw [ground]
    intro j result hj p ranges hp
    have hj : .ran j result ∈ t.ground.journal := by
      rcases List.mem_append.mp hj with hj | hj
      · exact hj
      · cases List.mem_singleton.mp hj
    rcases List.mem_append.mp hp with hp | hp
    · exact htrue j result hj p ranges hp
    · -- a job of the new operation cannot have ended yet
      have hflight : j.flight = t.ground.engine.nextFlight := by
        have := List.mem_singleton.mp hp
        simp only [Occurrence.started.injEq] at this
        exact this.1
      have hbegun := flight_mem_begun
        (hrec.balanced.jobs.mem_iff.mpr (List.mem_append_right _ (mem_ended_of_ran hj)))
      exact absurd (hflight ▸ hrec.balanced.fresh _ hbegun) (Nat.lt_irrefl _)
  | ran j result ground waiting =>
    have hjournal : t'.ground.journal = t.ground.journal ++ [.ran j result] := by rw [ground]; rfl
    rw [hjournal]
    intro k r hk o ranges ho
    have hjob : j ∈ t.waiting := waiting.mem_iff.mpr List.mem_cons_self
    have hold : .started k.flight o ranges ∈ t.ground.journal := by
      rcases List.mem_append.mp ho with ho | ho
      · exact ho
      · cases List.mem_singleton.mp ho
    rcases List.mem_append.mp hk with hk | hk
    · exact htrue k r hk o ranges hold
    · obtain ⟨rfl, rfl⟩ : k = j ∧ r = result := by simpa using List.mem_singleton.mp hk
      cases e with
      | caller i =>
        obtain ⟨c₀, c', g, -, hmove, rfl⟩ := caller_of_step? hstep
        exact absurd hjournal hmove.not_ran
      | worker i =>
        obtain ⟨w, w', g, hw, hmove, rfl⟩ := worker_of_step? hstep
        obtain ⟨f, hf, -⟩ := hrec.balanced.flight_of_waiting hjob
        have hq := Engine.operation?_of_flight? hf
        rw [hrec.balanced.operation_eq hf hold] at hq
        rw [← verdict_of_sameDirectories h.directories]
        exact h.prospect.sound.verdict_of_ran hs hrec hw hmove hjournal hq

section Run

variable (hd : d.AtRest) (hlt : d.settings.blockSize < Word.count)
  (hm : ∀ order ∈ calls, s.memory.Holds order.buffer)
  (hclear : Clear d.settings.overlapEvents
    (accepted (Order.performAll d.settings.blockSize calls s).1))

include hd hlt hm hclear

theorem truthful_of_run? (hrun : (startAlone d s calls).run? schedule = some t) :
    Truthful s t.ground.journal := by
  refine run_induction (P := fun _ u => Truthful s u.ground.journal) ?_ ?_ hrun
  · exact fun j result hj => absurd hj List.not_mem_nil
  · intro before u e u' hu htrue hstep
    have hrec := recorded_startAlone hd hu
    rcases alone_or_settled_of_run? hd hlt hm hclear hu with ⟨c, past, rest, h⟩ | h
    · exact truthful_of_step? h (setting_startAlone hd hlt) hrec htrue hstep
    · rw [h.stuck hrec.balanced e] at hstep
      cases hstep

end Run

/-! ### Operations end as the verdict tells -/

/-- Nothing is buried while all operations are apart. -/
theorem Alone.not_buries (h : Alone first calls t c past rest)
    (hapart : (accepted (Order.performAll first.blockSize calls
      first.ground.storage).1).Pairwise Operation.Apart) :
    ∀ q ∈ t.ground.engine.operations, ¬c.stage.buries q = true := by
  intro q hq hbur
  obtain ⟨o, hp⟩ := Stage.exists_pending_of_buries hbur
  obtain ⟨hd, -⟩ := (Stage.buries_iff hp).mp hbur
  have hgoal := h.outlook
  have hopening : (t.outlook c.stage).1 = [.ok o] := Stage.opening_of_write hp hd _
  rw [hopening] at hgoal
  rw [hgoal, List.append_assoc, accepted_append, List.singleton_append, accepted_ok] at hapart
  have hclear := clear_of_apart hapart true
  exact Stage.not_buries_of_apart hp (hclear.apart_of_sublist rfl h.under q hq) hbur

section Run

variable (hd : d.AtRest) (hlt : d.settings.blockSize < Word.count)
  (hm : ∀ order ∈ calls, s.memory.Holds order.buffer)
  (hapart : (accepted (Order.performAll d.settings.blockSize calls s).1).Pairwise Operation.Apart)

include hd hlt hm hapart

/-- The result of an operation that is apart from the others is the verdict on it. -/
theorem verdict_of_reported (hrun : (startAlone d s calls).run? schedule = some t) {n : Nat}
    {result : Except TransferError Unit} {o : Operation} {ranges : List ByteRange}
    (hr : .reported n result ∈ t.ground.journal) (ho : .started n o ranges ∈ t.ground.journal) :
    result = o.verdict s := by
  have hclear := clear_of_apart hapart d.settings.overlapEvents
  have hs : Setting (startAlone d s calls) := setting_startAlone hd hlt
  have hrec := recorded_startAlone hd hrun
  obtain ⟨before, after, u, p, ranges', rfl, hu, hstarted, hnew, hended, hresult⟩ :=
    hrec.attested n result hr
  have hrecu := recorded_startAlone hd hu
  have htrue := truthful_of_run? hd hlt hm hclear hu
  -- the operation found at that moment is the one asked for
  have hop : o = p := by
    have hgrow : u.ground.journal <+: t.ground.journal := by
      rw [run?_append, hu] at hrun
      exact journal_of_run? hrun
    exact (started_unique hrec.balanced.nodup ho (hgrow.subset hstarted)).1
  subst hop
  have hnum : n ∈ u.ground.engine.numbers := by
    have hbegun := mem_begun_of_started hstarted
    rcases List.mem_append.mp (hrecu.balanced.numbers.mem_iff.mp hbegun) with hn | hn
    · exact hn
    · exact absurd hn hnew
  obtain ⟨f, hf⟩ := Engine.exists_flight? hnum
  have hq := Engine.operation?_of_flight? hf
  rw [hrecu.balanced.operation_eq hf hstarted] at hq
  have hwait := hrecu.balanced.not_waiting_of_ended hended
  rcases alone_or_settled_of_run? hd hlt hm hclear hu with ⟨c, past, rest, h⟩ | h
  · have hmem := Engine.mem_operations hq
    have hlive := h.not_buries hapart o hmem
    have hready := h.prospect.sound.ready o hmem hlive
    have hwhole := h.prospect.sound.inPlace_whole hs hwait hq hlive
    have hverdict : o.verdict u.ground.storage = o.verdict s :=
      verdict_of_sameDirectories h.directories
    cases hhead : (failures n u.ground.journal).head? with
    | some e =>
      obtain ⟨j, hran, rfl⟩ := exists_ran_of_failures (List.mem_of_mem_head? hhead)
      rw [hresult, hhead]
      exact htrue j _ hran o ranges' hstarted
    | none =>
      rw [hresult, hhead]
      cases hv : o.verdict s with
      | ok _ => exact validateIfAsked_eq_ok hready (hverdict.trans hv) hwhole
      | error e =>
        -- its jobs would have failed
        obtain ⟨-, -, hlen⟩ := directory_of_verdict hv
        have hne : ranges' ≠ [] := fun hnil =>
          Nat.ne_of_gt hlen ((plan_eq_nil_iff hs hready.toLocated
            (h.prospect.sound.blockSize o hmem)).mp
              ((hrecu.plan n o ranges' hstarted).symm.trans hnil))
        have hfail := htrue.mem_failures hstarted hended hne hv
        rw [List.head?_eq_none_iff.mp hhead] at hfail
        cases hfail
  · rw [h.idle] at hnum
    cases hnum

end Run

/-! ### The wait's answer -/

/-- The failure that an occurrence reports. -/
def Occurrence.fault : Occurrence → List TransferError
  | .reported _ (.error e) => [e]
  | _ => []

/-- The failures reported so far. -/
def faults (journal : List Occurrence) : List TransferError := journal.flatMap Occurrence.fault

theorem faults_append (journal : List Occurrence) (x : Occurrence) :
    faults (journal ++ [x]) = faults journal ++ x.fault := by
  simp [faults]

theorem Undrained.of_append {journal : List Occurrence} {x : Occurrence}
    (h : Undrained (journal ++ [x])) : Undrained journal := fun answer hmem =>
  h answer (List.mem_append_left _ hmem)

/-- Before the first wait is answered the completions count all that was reported. -/
theorem Lawful.counts {journal : List Occurrence} {k : Completion} (h : Lawful journal k)
    (hu : Undrained journal) :
    k.completed = (finished journal).length ∧ k.failures = faults journal := by
  induction h with
  | nil => exact ⟨rfl, rfl⟩
  | started n o ranges h new count ih =>
    obtain ⟨hcompleted, hfailures⟩ := ih hu.of_append
    cases count
    simp only [finished_append, faults_append, Occurrence.finished, Occurrence.fault,
      List.append_nil]
    exact ⟨hcompleted, hfailures⟩
  | ran j result h planned ih =>
    simp only [finished_append, faults_append, Occurrence.finished, Occurrence.fault,
      List.append_nil]
    exact ih hu.of_append
  | @reported journal k k' n result h begun new jobs failure count ih =>
    obtain ⟨hcompleted, hfailures⟩ := ih hu.of_append
    have hk : k' = k.finish result := by
      simp only [Completion.step?] at count
      split at count
      · cases count
      · cases count
        rfl
    subst hk
    rw [finished_append, faults_append, ← hfailures]
    refine ⟨?_, ?_⟩
    · simp [Completion.finish, Occurrence.finished, hcompleted]
    · cases result <;> simp [Completion.finish, Occurrence.fault]
  | drained answer h all jobs count ih =>
    exact absurd (List.mem_append_right _ (List.mem_singleton_self _)) (hu answer)

/-- A wait that was answered last found everything finished. -/
theorem Lawful.of_drained {journal : List Occurrence} {answer : Except TransferError Nat}
    {k : Completion} (h : Lawful (journal ++ [.drained answer]) k) :
    ∃ k', Lawful journal k' ∧ (begun journal).Perm (finished journal) ∧
      answer = k'.drain.1 := by
  generalize hx : journal ++ [Occurrence.drained answer] = l at h
  cases h with
  | nil => simp at hx
  | started n o ranges h new count => cases (List.append_inj' hx rfl).2
  | ran j result h planned => cases (List.append_inj' hx rfl).2
  | reported n result h begun new jobs failure count => cases (List.append_inj' hx rfl).2
  | drained answer' h all jobs count =>
    obtain ⟨rfl, heq⟩ := List.append_inj' hx rfl
    cases heq
    refine ⟨_, h, all, ?_⟩
    simp only [Completion.step?] at count
    split at count
    · cases count
      rfl
    · cases count

theorem length_begun (journal : List Occurrence) :
    (begun journal).length = (launched journal).length := by
  simp only [begun, launched, List.length_flatMap]
  congr 1
  refine List.map_congr_left fun x _ => ?_
  cases x <;> rfl

/-- Operations are numbered in the order in which they start. -/
theorem nextFlight_of_run? (hj : first.ground.journal = []) (hrun : first.run? schedule = some t) :
    t.ground.engine.nextFlight =
      first.ground.engine.nextFlight + (launched t.ground.journal).length := by
  refine run_induction (P := fun _ u => u.ground.engine.nextFlight =
    first.ground.engine.nextFlight + (launched u.ground.journal).length) (by rw [hj]; rfl) ?_ hrun
  intro before u e u' _ hu hstep
  have hkeep : ∀ {x : Occurrence}, x.launched = [] →
      launched (u.ground.journal ++ [x]) = launched u.ground.journal := fun hx => by
    rw [launched_append, hx, List.append_nil]
  cases deed_of_step? hstep with
  | quiet _ next _ journal => rw [next, journal, hu]
  | launched o ground =>
    rw [ground]
    show u.ground.engine.nextFlight + 1 = _ + (launched (u.ground.journal ++ [_])).length
    rw [launched_append, List.length_append, hu]
    rfl
  | ran j result ground =>
    rw [ground]
    show (u.ground.engine.noteResult j.flight result).nextFlight =
      _ + (launched (u.ground.journal ++ [_])).length
    rw [(Engine.noteResult_same _ _ _).2.1, hkeep rfl, hu]
  | retired n ground =>
    rw [ground]
    exact (Engine.retire_same _ n).1.trans hu
  | reported n result _ ground =>
    rw [ground]
    show u.ground.engine.nextFlight = _ + (launched (u.ground.journal ++ [_])).length
    rw [hkeep rfl, hu]
  | drained _ ground =>
    rw [ground]
    show u.ground.engine.nextFlight = _ + (launched (u.ground.journal ++ [_])).length
    rw [hkeep rfl, hu]

theorem exists_started_of_launched {journal : List Occurrence} {o : Operation}
    (h : o ∈ launched journal) : ∃ n ranges, .started n o ranges ∈ journal := by
  obtain ⟨x, hx, ho⟩ := List.mem_flatMap.mp h
  cases x with
  | started n p ranges =>
    rw [List.mem_singleton.mp ho]
    exact ⟨n, ranges, hx⟩
  | ran j result => cases ho
  | reported m result => cases ho
  | drained answer => cases ho

theorem exists_reported_of_finished {journal : List Occurrence} {n : Nat}
    (h : n ∈ finished journal) : ∃ result, .reported n result ∈ journal := by
  obtain ⟨x, hx, hn⟩ := List.mem_flatMap.mp h
  cases x with
  | reported m result =>
    rw [List.mem_singleton.mp hn]
    exact ⟨result, hx⟩
  | started m o ranges => cases hn
  | ran j result => cases hn
  | drained answer => cases hn

theorem exists_reported_of_fault {journal : List Occurrence} {e : TransferError}
    (h : e ∈ faults journal) : ∃ n, .reported n (.error e) ∈ journal := by
  obtain ⟨x, hx, he⟩ := List.mem_flatMap.mp h
  cases x with
  | reported m result =>
    cases result with
    | ok _ => cases he
    | error e' =>
      rw [List.mem_singleton.mp he]
      exact ⟨m, hx⟩
  | started m o ranges => cases he
  | ran j result => cases he
  | drained answer => cases he

/-- What a wait answers after these operations: their number, or one of the
failures if there is any. -/
def Waited (s : Storage) (ops : List Operation) : Except TransferError Nat → Prop
  | .ok n => n = ops.length ∧ ∀ o ∈ ops, o.verdict s = .ok ()
  | .error e => ∃ o ∈ ops, o.verdict s = .error e

theorem waited_of_settled (hd : d.AtRest) (hlt : d.settings.blockSize < Word.count)
    (hm : ∀ order ∈ calls, s.memory.Holds order.buffer)
    (hapart : (accepted (Order.performAll d.settings.blockSize calls s).1).Pairwise Operation.Apart)
    (hrun : (startAlone d s calls).run? schedule = some t)
    (h : Settled (startAlone d s calls) calls t) :
    ∃ answer, t.answers 0 =
        (Order.performAll d.settings.blockSize calls s).1.map receipt ++ [answer] ∧
      Waited s (accepted (Order.performAll d.settings.blockSize calls s).1) answer := by
  obtain ⟨answer, journal, hcallers, hjournal, hundrained, hlaunched⟩ := h.answered
  have hlaunched : launched journal = accepted (Order.performAll d.settings.blockSize calls s).1 :=
    hlaunched
  refine ⟨answer, by rw [answers, hcallers]; rfl, ?_⟩
  have hlawful := (recorded_startAlone hd hrun).lawful
  rw [hjournal] at hlawful
  obtain ⟨k, hk, hall, rfl⟩ := hlawful.of_drained
  obtain ⟨hcompleted, hfailures⟩ := hk.counts hundrained
  have hverdict : ∀ {n result o ranges}, .reported n result ∈ journal →
      .started n o ranges ∈ journal → result = o.verdict s := by
    intro n result o ranges hr ho
    have hgrow : ∀ {x}, x ∈ journal → x ∈ t.ground.journal := fun hx =>
      hjournal ▸ List.mem_append_left _ hx
    exact verdict_of_reported hd hlt hm hapart hrun (hgrow hr) (hgrow ho)
  rw [← hlaunched]
  unfold Completion.drain
  cases hfaults : k.failures with
  | nil =>
    refine ⟨?_, fun o ho => ?_⟩
    · rw [hcompleted, ← hall.length_eq, length_begun]
    · obtain ⟨n, ranges, hstarted⟩ := exists_started_of_launched ho
      obtain ⟨result, hr⟩ :=
        exists_reported_of_finished (hall.mem_iff.mp (mem_begun_of_started hstarted))
      rw [← hverdict hr hstarted]
      cases result with
      | ok _ => rfl
      | error e =>
        have hmem : e ∈ faults journal :=
          List.mem_flatMap.mpr ⟨_, hr, List.mem_singleton_self e⟩
        rw [← hfailures, hfaults] at hmem
        cases hmem
  | cons e es =>
    have hmem : e ∈ faults journal := by
      rw [← hfailures, hfaults]
      exact List.mem_cons_self
    obtain ⟨n, hr⟩ := exists_reported_of_fault hmem
    have hfinished : n ∈ finished journal :=
      List.mem_flatMap.mpr ⟨_, hr, List.mem_singleton_self n⟩
    obtain ⟨o, ranges, hstarted⟩ := exists_started_of_begun (hall.mem_iff.mpr hfinished)
    exact ⟨o, List.mem_flatMap.mpr ⟨_, hstarted, List.mem_singleton_self o⟩,
      (hverdict hr hstarted).symm⟩

end Traffic
end BlockTransfer
