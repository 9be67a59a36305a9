import BlockTransfer.Device.Posix.Shutdown
import BlockTransfer.Proofs.Traffic.ExactlyOnce
/-!
# No work is abandoned when a device is dropped

Nobody but the workers moves while the owner waits, so the device goes on as it would have
gone on in its traffic, and what was begun is finished. From then on no worker has anything
to do but to find its shutdown: every inbox has room for it, every thread ends, and the
owner comes to the end. The moves are bounded, and whoever is not at the end can move.

Key definitions: `Shutdown.Sound`, `Shutdown.remaining`.
Key theorems: `Shutdown.Sound.step`, `Shutdown.remaining_lt_of_step?`,
`Shutdown.closed_of_stuck`, `Shutdown.finishes`.
-/

namespace BlockTransfer
namespace Shutdown

open Traffic

/-- What the owner has done shows at the threads. -/
def Owner.Shows (threads : List Thread) : Owner → Prop
  | .waiting => ∀ thread ∈ threads, thread = .running
  | .telling i => ∀ k thread, threads[k]? = some thread → (thread = .running ↔ i ≤ k)
  | .joining i => ∀ k thread, threads[k]? = some thread →
      thread ≠ .running ∧ (k < i → thread = .exited)
  | .closed => ∀ thread ∈ threads, thread = .exited

/-- What holds while a device is dropped: its traffic went on from what it was, without a
caller, and once the owner has waited nothing is in flight. -/
structure Sound (t : Traffic) (c : Shutdown) : Prop where
  reached : ∃ schedule, t.run? schedule = some c.traffic
  through : c.traffic.isOver = true
  balanced : Balanced c.traffic
  regular : Regular c.traffic
  threads : c.threads.length = c.traffic.workers.length
  shows : c.owner.Shows c.threads
  quiet : c.owner ≠ .waiting → c.traffic.ground.engine.numbers = []

variable {t : Traffic} {c c' : Shutdown}

theorem sound_start (hb : Balanced t) (hr : Regular t) (hover : t.isOver = true) :
    Sound t (start t) where
  reached := ⟨[], rfl⟩
  through := hover
  balanced := hb
  regular := hr
  threads := List.length_map _
  shows := fun thread h => by
    obtain ⟨w, -, rfl⟩ := List.mem_map.mp h
    rfl
  quiet := fun h => absurd rfl h

/-! ### What the moves are -/

/-- A move while a device is dropped. -/
inductive Move (c : Shutdown) : Shutdown → Prop where
  | waited (owner : c.owner = .waiting) (idle : c.traffic.ground.engine.completion.isIdle = true) :
    Move c { c with owner := .telling 0 }
  | told {i} (owner : c.owner = .telling i) (here : i < c.threads.length)
      (room : c.entries i < c.traffic.ground.engine.queueDepth) :
    Move c { c with owner := .telling (i + 1), threads := c.threads.set i .told }
  | toldAll {i} (owner : c.owner = .telling i) (all : c.threads.length ≤ i) :
    Move c { c with owner := .joining 0 }
  | joined {i} (owner : c.owner = .joining i) (exited : c.threads[i]? = some .exited) :
    Move c { c with owner := .joining (i + 1) }
  | joinedAll {i} (owner : c.owner = .joining i) (all : c.threads.length ≤ i) :
    Move c { c with owner := .closed }
  | exited {i} (told : c.threads[i]? = some .told)
      (empty : c.traffic.ground.engine.inboxes[i]? = some [])
      (idle : c.traffic.workers[i]? = some .idle) :
    Move c { c with threads := c.threads.set i .exited }
  | worked {i traffic} (running : c.threads[i]? ≠ some .exited)
      (step : c.traffic.step? (.worker i) = some traffic) :
    Move c { c with traffic }

theorem isNext_eq_true_iff {i : Nat} : c.isNext i = true ↔ c.threads[i]? = some .told ∧
    c.traffic.ground.engine.inboxes[i]? = some [] ∧ c.traffic.workers[i]? = some .idle := by
  unfold isNext
  rw [Bool.and_eq_true, Bool.and_eq_true, decide_eq_true_iff, decide_eq_true_iff, and_assoc]
  refine and_congr_right' (and_congr_right' ?_)
  split
  · rename_i h
    exact ⟨fun _ => h, fun _ => rfl⟩
  · rename_i h
    exact ⟨nofun, fun h' => absurd h' h⟩

theorem move_of_ownerStep? (h : c.ownerStep? = some c') : Move c c' := by
  unfold ownerStep? at h
  split at h
  · rename_i howner
    split at h <;> cases h
    exact .waited howner ‹_›
  · rename_i i howner
    split at h
    · rename_i hnone
      cases h
      exact .toldAll howner (List.getElem?_eq_none_iff.mp hnone)
    · rename_i thread hthread
      split at h <;> cases h
      exact .told howner (List.getElem?_eq_some_iff.mp hthread).1 ‹_›
  · rename_i i howner
    split at h
    · rename_i hnone
      cases h
      exact .joinedAll howner (List.getElem?_eq_none_iff.mp hnone)
    · cases h
      exact .joined howner ‹_›
    · cases h
  · cases h

theorem move_of_workerStep? {i : Nat} (h : c.workerStep? i = some c') : Move c c' := by
  unfold workerStep? at h
  split at h
  · cases h
  · rename_i hrunning
    split at h
    · rename_i hnext
      cases h
      obtain ⟨htold, hempty, hidle⟩ := isNext_eq_true_iff.mp hnext
      exact .exited htold hempty hidle
    · obtain ⟨traffic, hstep, rfl⟩ := Option.map_eq_some_iff.mp h
      exact .worked hrunning hstep

theorem move_of_step? {e : Event} (h : c.step? e = some c') : Move c c' := by
  cases e with
  | owner => exact move_of_ownerStep? h
  | worker i => exact move_of_workerStep? h

/-! ### What every move preserves -/

/-- No worker's thread ends before the owner has told it to. -/
theorem Sound.quiet_of_told (h : Sound t c) {i : Nat} {thread : Thread}
    (hi : c.threads[i]? = some thread) (hthread : thread ≠ .running) :
    c.traffic.ground.engine.numbers = [] := by
  refine h.quiet fun howner => hthread ?_
  have hshows := h.shows
  rw [howner] at hshows
  exact hshows thread (List.mem_of_getElem? hi)

/-- A worker that ends its thread does not change what the owner has done. -/
theorem Owner.Shows.exit {o : Owner} {threads : List Thread} {i : Nat} (h : o.Shows threads)
    (hi : threads[i]? = some .told) : o.Shows (threads.set i .exited) := by
  have hset : ∀ {k thread}, (threads.set i .exited)[k]? = some thread →
      (k = i ∧ thread = .exited) ∨ (k ≠ i ∧ threads[k]? = some thread) := by
    intro k thread hk
    rw [List.getElem?_set] at hk
    split at hk
    · rename_i hik
      split at hk <;> cases hk
      exact .inl ⟨hik.symm, rfl⟩
    · rename_i hik
      exact .inr ⟨fun hki => hik hki.symm, hk⟩
  cases o with
  | waiting => cases h _ (List.mem_of_getElem? hi)
  | telling n =>
    intro k thread hk
    rcases hset hk with ⟨rfl, rfl⟩ | ⟨-, hk⟩
    · -- the worker was told, so its turn is over
      have htold := h k .told hi
      exact ⟨nofun, fun hle => nomatch htold.mpr hle⟩
    · exact h k thread hk
  | joining n =>
    intro k thread hk
    rcases hset hk with ⟨rfl, rfl⟩ | ⟨-, hk⟩
    · exact ⟨by simp, fun _ => rfl⟩
    · exact h k thread hk
  | closed =>
    intro thread hthread
    rcases List.mem_or_eq_of_mem_set hthread with hthread | rfl
    · exact h thread hthread
    · rfl

theorem Owner.Shows.tell {threads : List Thread} {i : Nat} (h : (Owner.telling i).Shows threads) :
    (Owner.telling (i + 1)).Shows (threads.set i .told) := by
  intro k thread hk
  rw [List.getElem?_set] at hk
  split at hk
  · rename_i hik
    split at hk <;> cases hk
    subst hik
    exact ⟨nofun, fun hle => absurd hle (Nat.not_succ_le_self _)⟩
  · rename_i hik
    rw [h k thread hk]
    omega

theorem Owner.Shows.join {threads : List Thread} {i : Nat} (h : (Owner.joining i).Shows threads)
    (hi : threads[i]? = some .exited) : (Owner.joining (i + 1)).Shows threads := by
  intro k thread hk
  refine ⟨(h k thread hk).1, fun hlt => ?_⟩
  rcases Nat.lt_or_eq_of_le (Nat.le_of_lt_succ hlt) with hlt | rfl
  · exact (h k thread hk).2 hlt
  · rw [hi] at hk
    exact (Option.some.inj hk).symm

/-- The workers go on with the traffic as they would have. -/
theorem Sound.work (h : Sound t c) {i : Nat} {traffic : Traffic}
    (hstep : c.traffic.step? (.worker i) = some traffic) : Sound t { c with traffic } := by
  obtain ⟨schedule, hrun⟩ := h.reached
  obtain ⟨w, w', g, hw, hwork, rfl⟩ := worker_of_step? hstep
  refine
    { reached := ⟨schedule ++ [.worker i], run?_concat hrun hstep⟩
      through := h.through
      balanced := h.balanced.deed (deed_of_step? hstep)
      regular := h.regular.step h.balanced hstep
      threads := h.threads.trans List.length_set.symm
      shows := h.shows
      quiet := fun howner => ?_ }
  -- with nothing in flight the worker could not have moved
  rw [h.balanced.step?_worker_eq_none (h.quiet howner) i] at hstep
  cases hstep

theorem Sound.move (h : Sound t c) (hmove : Move c c') : Sound t c' := by
  have hshows := h.shows
  cases hmove with
  | waited owner idle =>
    rw [owner] at hshows
    refine { h with shows := fun k thread hk => ?_,
                    quiet := fun _ => h.balanced.numbers_of_idle idle }
    exact ⟨fun _ => Nat.zero_le k, fun _ => hshows thread (List.mem_of_getElem? hk)⟩
  | told owner here room =>
    rw [owner] at hshows
    exact
      { h with
        threads := List.length_set.trans h.threads
        shows := hshows.tell
        quiet := fun _ => h.quiet (by simp [owner]) }
  | toldAll owner all =>
    rw [owner] at hshows
    refine { h with shows := fun k thread hk => ⟨fun hrun => ?_, fun hlt => ?_⟩,
                    quiet := fun _ => h.quiet (by simp [owner]) }
    · have hlt : k < c.threads.length := (List.getElem?_eq_some_iff.mp hk).1
      have hle := (hshows k thread hk).mp hrun
      omega
    · exact absurd hlt (Nat.not_lt_zero k)
  | joined owner exited =>
    rw [owner] at hshows
    exact
      { h with
        shows := hshows.join exited
        quiet := fun _ => h.quiet (by simp [owner]) }
  | joinedAll owner all =>
    rw [owner] at hshows
    refine { h with shows := fun thread hthread => ?_,
                    quiet := fun _ => h.quiet (by simp [owner]) }
    obtain ⟨k, hk⟩ := List.getElem?_of_mem hthread
    have hlt : k < c.threads.length := (List.getElem?_eq_some_iff.mp hk).1
    exact (hshows k thread hk).2 (by omega)
  | exited told empty idle =>
    exact
      { h with
        threads := List.length_set.trans h.threads
        shows := hshows.exit told }
  | worked running step => exact h.work step

theorem Sound.step (h : Sound t c) {e : Event} (hstep : c.step? e = some c') : Sound t c' :=
  h.move (move_of_step? hstep)

theorem Sound.run (h : Sound t c) {schedule : List Event} (hrun : c.run? schedule = some c') :
    Sound t c' :=
  foldlM_induction (P := fun _ u => Sound t u) h (fun _ _ _ _ _ hu hstep => hu.step hstep) hrun

/-! ### The moves that are left -/

/-- The moves that a thread has to its end. -/
def Thread.cost : Thread → Nat
  | .running | .told => 1
  | .exited => 0

/-- The moves that the owner has left, with that many workers. -/
def Owner.cost (workers : Nat) : Owner → Nat
  | .waiting => 2 * workers + 3
  | .telling i => (workers - i) + workers + 2
  | .joining i => (workers - i) + 1
  | .closed => 0

/-- All that is left to do. -/
def remaining (c : Shutdown) : Nat :=
  c.traffic.work + c.owner.cost c.threads.length + (c.threads.map Thread.cost).sum

theorem remaining_lt_of_step? (h : Sound t c) {e : Event} (hstep : c.step? e = some c') :
    c'.remaining < c.remaining := by
  have hshows := h.shows
  unfold remaining
  cases move_of_step? hstep with
  | waited owner idle =>
    simp only [owner, Owner.cost]
    omega
  | @told i owner here room =>
    rw [owner] at hshows
    have hi := List.getElem?_eq_getElem here
    have hrunning : c.threads[i] = .running := (hshows i _ hi).mpr (Nat.le_refl i)
    have hsum := sum_map_set Thread.cost hi .told
    rw [hrunning] at hsum
    simp only [Thread.cost] at hsum
    simp only [owner, Owner.cost, List.length_set]
    omega
  | toldAll owner all =>
    simp only [owner, Owner.cost]
    omega
  | joined owner exited =>
    have hlt := (List.getElem?_eq_some_iff.mp exited).1
    simp only [owner, Owner.cost]
    omega
  | joinedAll owner all =>
    simp only [owner, Owner.cost]
    omega
  | exited told empty idle =>
    have hsum := sum_map_set Thread.cost told .exited
    simp only [Thread.cost] at hsum
    simp only [List.length_set]
    omega
  | worked running step =>
    have hwork := work_lt_of_step? h.regular step
    simp only
    omega

/-- A schedule is no longer than what there was to do. -/
theorem length_add_remaining_le (h : Sound t c) {schedule : List Event}
    (hrun : c.run? schedule = some c') : schedule.length + c'.remaining ≤ c.remaining := by
  refine (foldlM_induction (P := fun before u => Sound t u ∧
    before.length + u.remaining ≤ c.remaining) ⟨h, by simp⟩ ?_ hrun).2
  intro before u e u' _ hu hstep
  have hlt := remaining_lt_of_step? hu.1 hstep
  have hle := hu.2
  refine ⟨hu.1.step hstep, ?_⟩
  rw [List.length_append, List.length_singleton]
  omega

/-! ### Where no one can move, the device is closed -/

/-- Callers that are through do not move. -/
theorem step?_caller_of_isOver {u : Traffic} (h : u.isOver = true) (i : Nat) :
    u.step? (.caller i) = none := by
  by_contra hne
  obtain ⟨u', hstep⟩ := Option.ne_none_iff_exists'.mp hne
  obtain ⟨k, k', g, hk, hmove, rfl⟩ := caller_of_step? hstep
  have hthrough := List.all_eq_true.mp h k (List.mem_of_getElem? hk)
  cases hmove <;> simp at hthrough

section Stuck

variable (h : Sound t c) (hstuck : ∀ e, c.step? e = none)

include h hstuck

/-- While the owner waits some worker can move, unless nothing is in flight. -/
theorem not_waiting_of_stuck : c.owner ≠ .waiting := by
  intro howner
  have hshows := h.shows
  rw [howner] at hshows
  have hworkers : ∀ i, c.traffic.step? (.worker i) = none := by
    intro i
    have hrunning : ∀ thread, c.threads[i]? = some thread → thread = .running :=
      fun thread hi => hshows thread (List.mem_of_getElem? hi)
    have hexited : ¬c.threads[i]? = some .exited := fun hi => nomatch hrunning _ hi
    have hnext : ¬c.isNext i = true := fun hi => nomatch hrunning _ (isNext_eq_true_iff.mp hi).1
    have hnone : c.workerStep? i = none := hstuck (.worker i)
    rw [workerStep?, if_neg hexited, if_neg hnext] at hnone
    exact Option.map_eq_none_iff.mp hnone
  have htraffic : ∀ e, c.traffic.step? e = none
    | .caller i => step?_caller_of_isOver h.through i
    | .worker i => hworkers i
  obtain ⟨-, -, hnumbers⟩ := done_of_stuck htraffic h.balanced h.regular
  have hidle : c.traffic.ground.engine.completion.isIdle = true := by
    rw [Completion.isIdle, h.balanced.inFlight, hnumbers]
    rfl
  have hnone : c.ownerStep? = none := hstuck .owner
  simp only [ownerStep?, howner, hidle, if_true, reduceCtorEq] at hnone

/-- Every inbox has room for its shutdown. -/
theorem not_telling_of_stuck (i : Nat) : c.owner ≠ .telling i := by
  intro howner
  have hshows := h.shows
  rw [howner] at hshows
  have hnone : c.ownerStep? = none := hstuck .owner
  simp only [ownerStep?, howner] at hnone
  split at hnone
  · cases hnone
  · rename_i thread hi
    obtain rfl := (hshows i thread hi).mpr (Nat.le_refl i)
    have hempty : (c.traffic.ground.engine.inboxes[i]?.map List.length).getD 0 = 0 := by
      cases hin : c.traffic.ground.engine.inboxes[i]? with
      | none => rfl
      | some inbox =>
        rw [h.balanced.inboxes_eq_nil (h.quiet (by simp [howner])) inbox
          (List.mem_of_getElem? hin)]
        rfl
    have hentries : c.entries i = 0 := by simp [entries, hempty, hi]
    rw [hentries, if_pos h.regular.room] at hnone
    cases hnone

/-- Every thread that was told ends. -/
theorem not_joining_of_stuck (i : Nat) : c.owner ≠ .joining i := by
  intro howner
  have hshows := h.shows
  rw [howner] at hshows
  have hnumbers := h.quiet (by simp [howner])
  have hnone : c.ownerStep? = none := hstuck .owner
  simp only [ownerStep?, howner] at hnone
  split at hnone
  · cases hnone
  · cases hnone
  · rename_i thread hexited hi
    have htold : thread = .told := by
      have hne := (hshows i thread hi).1
      cases thread with
      | running => exact absurd rfl hne
      | told => rfl
      | exited => exact absurd rfl hexited
    subst htold
    have hworker : i < c.traffic.workers.length :=
      h.threads ▸ (List.getElem?_eq_some_iff.mp hi).1
    have hinbox : i < c.traffic.ground.engine.inboxes.length := h.regular.workers ▸ hworker
    have hempty := h.balanced.inboxes_eq_nil hnumbers _ (List.getElem_mem hinbox)
    have hidle := h.balanced.worker_eq_idle hnumbers (List.getElem_mem hworker)
    have hnext : c.isNext i = true := isNext_eq_true_iff.mpr
      ⟨hi, by rw [List.getElem?_eq_getElem hinbox, hempty],
        by rw [List.getElem?_eq_getElem hworker, hidle]⟩
    have hstay : c.workerStep? i = none := hstuck (.worker i)
    rw [workerStep?, if_neg (by simp [hi]), if_pos hnext] at hstay
    cases hstay

theorem closed_of_stuck : c.owner = .closed := by
  cases howner : c.owner with
  | waiting => exact absurd howner (not_waiting_of_stuck h hstuck)
  | telling i => exact absurd howner (not_telling_of_stuck h hstuck i)
  | joining i => exact absurd howner (not_joining_of_stuck h hstuck i)
  | closed => rfl

end Stuck

/-! ### The whole of it -/

/-- What whoever drops a device can count on, given the traffic before. -/
structure Finishes (first : Traffic) (before : List Traffic.Event) (c : Shutdown) : Prop where
  /-- The traffic is one of the device's own: its workers went on where it was. -/
  goesOn : ∃ after, first.run? (before ++ after) = some c.traffic
  /-- A thread ends only when every job has ended and every operation is finished. -/
  orderly : .exited ∈ c.threads →
    (planned c.traffic.ground.journal).Perm (ended c.traffic.ground.journal) ∧
      (begun c.traffic.ground.journal).Perm (finished c.traffic.ground.journal)
  /-- Where no one can move the owner is through. -/
  done : (∀ e, c.step? e = none) → c.owner = .closed
  /-- Then there was a thread for every worker, and all of them have ended. -/
  closed : c.owner = .closed → c.threads = List.replicate c.traffic.workers.length .exited ∧
    0 < c.traffic.workers.length

/-- A device is dropped when its callers are through, whatever its workers still have to
do. The moves are bounded, all of them can be made, and no work is abandoned. -/
theorem finishes {host : Host} {settings : DeviceSettings} {pool : Nat} {d : PosixDevice}
    (h : PosixDevice.create host settings pool = .ok d) (s : Storage)
    (errands : List (List Errand)) {before : List Traffic.Event}
    (hrun : (Traffic.start d s errands).run? before = some t) (hover : t.isOver = true) :
    (∃ bound, ∀ schedule c, (start t).run? schedule = some c → schedule.length ≤ bound) ∧
    ∀ schedule c, (start t).run? schedule = some c →
      Finishes (Traffic.start d s errands) before c := by
  obtain ⟨hrest, -⟩ := PosixDevice.atRest_create h
  have hb := Balanced.of_start hrest s errands
  have hstart := sound_start (hb.run hrun) ((regular_start hrest s errands).run hb hrun) hover
  refine ⟨⟨(start t).remaining, fun schedule c hc => ?_⟩, fun schedule c hc => ?_⟩
  · have := length_add_remaining_le hstart hc
    omega
  · have hsound := hstart.run hc
    obtain ⟨after, hafter⟩ := hsound.reached
    refine
      { goesOn := ⟨after, ?_⟩
        orderly := fun hexited => ?_
        done := closed_of_stuck hsound
        closed := fun howner => ?_ }
    · rw [run?_append, hrun]
      exact hafter
    · obtain ⟨i, hi⟩ := List.getElem?_of_mem hexited
      exact hsound.balanced.all_of_idle (hsound.quiet_of_told hi nofun)
    · have hshows := hsound.shows
      rw [howner] at hshows
      exact ⟨List.eq_replicate_iff.mpr ⟨hsound.threads, hshows⟩, hsound.regular.workers_pos⟩

/-- A device is dropped while both of its workers still have a job: they end their jobs, and
only then the owner tells them to exit. -/
example :
    (((Traffic.start ⟨{ blockSize := 1, threadCount := 2 },
        .idle { blockSize := 1, threadCount := 2 }, ⟨0, 1, []⟩⟩
        { memory := { regions := [[1, 2]] } }
        [[.transfer ⟨.write, ⟨0, .u8, 2, none⟩, "p", false⟩]]).run?
      (List.replicate 9 (.caller 0))).bind fun t =>
        ((start t).run? (List.replicate 4 (.worker 0) ++ List.replicate 6 (.worker 1) ++
          List.replicate 3 .owner ++ [.worker 1, .owner, .worker 0] ++
          List.replicate 3 .owner)).map
        fun c => (t.isOver, c.owner, c.threads, finished c.traffic.ground.journal)) =
      some (true, .closed, [.exited, .exited], [0]) := by decide

end Shutdown
end BlockTransfer
