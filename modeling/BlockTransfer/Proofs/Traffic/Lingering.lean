import BlockTransfer.Proofs.Traffic.Reach
import BlockTransfer.Proofs.Traffic.Settling
/-!
# A job that is left lying

A caller goes on to its next order as soon as the jobs of the present one are
dealt, and nothing makes a worker take the last of them before. So there is a
schedule after which all jobs are dealt and the last one still lies in an inbox
(`Traffic.exists_lingering`), and what the other ranges leave alone is as it was
when the operation started.

Key definitions: `Traffic.Stage.Saves`, `Traffic.Lingers`.
Key theorem: `Traffic.exists_lingering`.
-/

namespace BlockTransfer
namespace Traffic

open Operation

/-- The range is the last of those that a caller has still to deal. -/
def Stage.Saves (n len : Nat) (r : ByteRange) : Stage → Prop
  | .dealing m l ranges => m = n ∧ l = len ∧ ∃ rs, ranges = rs ++ [r]
  | .placing m l _ range ranges => m = n ∧ l = len ∧ ∃ rs, range :: ranges = rs ++ [r]
  | _ => False

theorem Stage.Saves.mem_undealt {n len : Nat} {r : ByteRange} {st : Stage}
    (h : st.Saves n len r) : ⟨n, r⟩ ∈ st.undealt := by
  cases st with
  | dealing m l ranges =>
    obtain ⟨rfl, -, rs, rfl⟩ := h
    simp [Stage.undealt]
  | placing m l worker range ranges =>
    obtain ⟨rfl, -, rs, hrs⟩ := h
    have hmem : r ∈ range :: ranges := hrs ▸ List.mem_append_right _ (List.mem_singleton_self r)
    exact List.mem_map.mpr ⟨r, hmem, rfl⟩
  | _ => cases h

/-- One operation is under way, its last job is not dealt or lies in an inbox,
and the memory is still good. -/
structure Lingers (first : Traffic) (calls rest : List Order) (q : Operation) (n : Nat)
    (r : ByteRange) (good : Memory → Prop) (t : Traffic) (c : Caller) : Prop where
  alone : Alone first calls t c [.ok q] rest
  job : c.stage.Saves n q.buffer.len r ∨
    c.stage = .dealing n q.buffer.len [] ∧ ⟨n, r⟩ ∈ t.ground.engine.inboxes.flatten
  only : ∀ m p, t.ground.engine.operation? m = some p → m = n ∧ p = q
  good : good t.ground.storage.memory

namespace Lingers

variable {first t : Traffic} {calls rest : List Order} {q : Operation} {n : Nat} {r : ByteRange}
  {good : Memory → Prop} {schedule : List Event} {c : Caller} {rs : List ByteRange}

section Places

variable (h : Lingers first calls rest q n r good t c) (hrec : Recorded first schedule t)
  (hplan : first.ground.engine.plan q = rs ++ [r])
  (htiles : ByteRange.Tiles 0 q.buffer.len (rs ++ [r]))

include h hrec hplan htiles

/-- Every job is in one place. -/
theorem nodup_waiting : t.waiting.Nodup := by
  refine hrec.balanced.nodup_waiting fun m p ranges hp => ?_
  have hmem : p ∈ launched t.ground.journal :=
    List.mem_flatMap.mpr ⟨_, hp, List.mem_singleton_self p⟩
  rw [h.alone.launched] at hmem
  rw [hrec.plan m p ranges hp, List.mem_singleton.mp hmem, hplan]
  exact htiles.nodup

/-- What the workers have in their hands ends before the last range starts. -/
theorem stop_le (hsaves : c.stage.Saves n q.buffer.len r) {j : Job} {p : Operation}
    (hj : j ∈ t.workers.flatMap Worker.held) (hp : t.ground.engine.operation? j.flight = some p) :
    p = q ∧ j.range.stop ≤ r.start := by
  obtain ⟨hn, rfl⟩ := h.only _ p hp
  have hwaiting := h.nodup_waiting hrec hplan htiles
  have hundealt :
      ⟨n, r⟩ ∈ t.callers.flatMap (·.stage.undealt) ++ t.ground.engine.inboxes.flatten := by
    rw [h.alone.callers]
    refine List.mem_append_left _ (List.mem_flatMap.mpr ⟨c, List.mem_singleton_self c, ?_⟩)
    exact hsaves.mem_undealt
  have hne : j ≠ ⟨n, r⟩ := fun hjn =>
    (List.nodup_append.mp hwaiting).2.2 _ hundealt j hj hjn.symm
  have hrange := range_mem_plan hrec (List.mem_append_right _ hj) hp
  rw [hplan] at hrange
  refine ⟨rfl, ?_⟩
  rcases List.mem_append.mp hrange with hmem | hmem
  · exact (htiles.of_concat.1.mem _ hmem).2.2
  · obtain ⟨m, range⟩ := j
    cases hn
    exact absurd (congrArg (Job.mk m) (List.mem_singleton.mp hmem)) hne

/-- A job in an inbox is in no worker's hands. -/
theorem not_held (hin : ⟨n, r⟩ ∈ t.ground.engine.inboxes.flatten) :
    ⟨n, r⟩ ∉ t.workers.flatMap Worker.held := fun hheld =>
  (List.nodup_append.mp (h.nodup_waiting hrec hplan htiles)).2.2 _
    (List.mem_append_right _ hin) _ hheld rfl

end Places

section Steps

variable (h : Lingers first calls rest q n r good t c)

include h

/-- Workers cannot take a job that is not dealt. -/
theorem workerMove (hs : Setting first) (hrec : Recorded first schedule t)
    (hplan : first.ground.engine.plan q = rs ++ [r])
    (htiles : ByteRange.Tiles 0 q.buffer.len (rs ++ [r]))
    (hgood : ∀ s block, block.stop ≤ r.start → good s.memory → good (q.carry block s).memory)
    (hsaves : c.stage.Saves n q.buffer.len r) {i : Nat} {w w' : Worker} {g : Ground}
    (hw : t.workers[i]? = some w) (hmove : w.Move i t.ground w' g) :
    Lingers first calls rest q n r good (t.moveWorker i w' g) c := by
  refine ⟨h.alone.workerMove hs hrec hw hmove, .inl hsaves,
    fun m p hp => h.only m p (hmove.operation? m p hp), ?_⟩
  show good g.storage.memory
  cases h.alone.prospect.sound.effect_of_workerMove hs hrec hw hmove with
  | none storage operations =>
    rw [storage]
    exact h.good
  | block hj hq hr hstop hn storage operations =>
    obtain ⟨rfl, hle⟩ := h.stop_le hrec hplan htiles hsaves hj hq
    rw [storage]
    exact hgood _ _ (Nat.le_trans hstop hle) h.good
  | reported m result closing ground =>
    subst ground
    exact h.good

/-- The caller deals on, until the last job lies in an inbox. -/
theorem callerMove (hsaves : c.stage.Saves n q.buffer.len r) {c' : Caller} {g : Ground}
    (hmove : c.Move t.blockSize t.ground c' g) :
    Lingers first calls rest q n r good (t.moveCaller 0 c' g) c' := by
  have halone := h.alone
  cases hmove with
  | @dealt m len es as =>
    obtain ⟨-, -, rs', hrs⟩ := hsaves
    simp at hrs
  | turned => exact ⟨halone.turned, .inl hsaves, h.only, h.good⟩
  | @placed m len worker x xs es as _ engine hput =>
    obtain ⟨rfl, rfl, rs', hrs⟩ := hsaves
    have hop := Engine.operation?_congr (put?_same hput).1
    refine ⟨halone.placed hput, ?_, fun k p hp => h.only k p (hop k ▸ hp), h.good⟩
    cases rs' with
    | nil =>
      cases hrs
      exact .inr ⟨rfl, (flatten_of_put? hput).mem_iff.mpr List.mem_cons_self⟩
    | cons x' rs' =>
      cases hrs
      exact .inl ⟨rfl, rfl, rs', rfl⟩
  | _ => cases hsaves

end Steps

end Lingers

/-! ### Getting there -/

section Reaching

variable {d : PosixDevice} {s s₁ : Storage} {order : Order} {rest : List Order} {q : Operation}
  {n : Nat} {r : ByteRange} {rs : List ByteRange} {good : Memory → Prop} {before : List Event}
  {t : Traffic} {c : Caller}

/-- Some schedule deals the last job and leaves it in an inbox. -/
theorem Lingers.exists_dealt (hd : d.AtRest) (hlt : d.settings.blockSize < Word.count)
    {calls : List Order} (hrun : (startAlone d s calls).run? before = some t)
    (h : Lingers (startAlone d s calls) calls rest q n r good t c)
    (hplan : (startAlone d s calls).ground.engine.plan q = rs ++ [r])
    (htiles : ByteRange.Tiles 0 q.buffer.len (rs ++ [r]))
    (hgood : ∀ s block, block.stop ≤ r.start → good s.memory → good (q.carry block s).memory) :
    ∃ schedule u c, (startAlone d s calls).run? schedule = some u ∧
      Lingers (startAlone d s calls) calls rest q n r good u c ∧
      c.stage = .dealing n q.buffer.len [] ∧ ⟨n, r⟩ ∈ u.ground.engine.inboxes.flatten := by
  have hs : Setting (startAlone d s calls) := setting_startAlone hd hlt
  have hstep : ∀ schedule u e u', (startAlone d s calls).run? schedule = some u →
      (∃ c, Lingers (startAlone d s calls) calls rest q n r good u c) →
      (¬∃ c, u.callers = [c] ∧ c.stage = .dealing n q.buffer.len []) → u.step? e = some u' →
      ∃ c, Lingers (startAlone d s calls) calls rest q n r good u' c := by
    rintro schedule u e u' hu ⟨c, h⟩ hgoal hstep
    have hsaves : c.stage.Saves n q.buffer.len r := by
      rcases h.job with hsaves | ⟨hstage, -⟩
      · exact hsaves
      · exact absurd ⟨c, h.alone.callers, hstage⟩ hgoal
    cases e with
    | caller i =>
      obtain ⟨c₀, c', g, hc, hmove, rfl⟩ := caller_of_step? hstep
      obtain ⟨rfl, rfl⟩ := eq_of_single_caller h.alone.callers hc
      exact ⟨c', h.callerMove hsaves hmove⟩
    | worker i =>
      obtain ⟨w, w', g, hw, hmove, rfl⟩ := worker_of_step? hstep
      exact ⟨c, h.workerMove hs (recorded_startAlone hd hu) hplan htiles hgood hsaves hw hmove⟩
  obtain ⟨schedule, u, hu, ⟨c, h⟩, c', hc', hstage⟩ := exists_run (Balanced.of_start hd s _)
    (regular_start hd s _) hstep (fun u ⟨c, h⟩ hover _ => absurd hover h.alone.not_isOver) hrun
    ⟨c, h⟩
  rw [h.alone.callers] at hc'
  obtain rfl := List.singleton_inj.mp hc'
  refine ⟨schedule, u, c, hu, h, hstage, ?_⟩
  rcases h.job with hsaves | ⟨-, hin⟩
  · rw [hstage] at hsaves
    obtain ⟨-, -, rs', hrs⟩ := hsaves
    simp at hrs
  · exact hin

/-- A caller that comes to an idle device opens its first file and starts. -/
theorem exists_launched (hd : d.AtRest) (hlt : d.settings.blockSize < Word.count)
    (hm : ∀ c ∈ order :: rest, s.memory.Holds c.buffer)
    (hopen : openFile order d.settings.blockSize s = .ok (q, s₁)) (hlen : 0 < q.buffer.len) :
    ∃ schedule u c, (startAlone d s (order :: rest)).run? schedule = some u ∧
      Alone (startAlone d s (order :: rest)) (order :: rest) u c [.ok q] rest ∧
      c.stage = .dealing d.engine.nextFlight q.buffer.len (d.engine.plan q) ∧
      u.ground.storage = s₁ ∧ ∀ m p, u.ground.engine.operation? m = some p →
        m = d.engine.nextFlight ∧ p = q := by
  have hs : Setting (startAlone d s (order :: rest)) := setting_startAlone hd hlt
  have hops : (startAlone d s (order :: rest)).ground.engine.operations = [] := by
    show d.engine.operations = []
    rw [Engine.operations, hd.flights]
    rfl
  have hnone : ∀ {q}, q ∉ (startAlone d s (order :: rest)).ground.engine.operations := by
    rw [hops]
    exact List.not_mem_nil
  have hidle : d.engine.completion.isIdle = true := by rw [hd.completion]; rfl
  obtain ⟨s₀, hl, hf⟩ := openFile_eq_ok hopen
  let es := rest.map Errand.transfer ++ [.wait]
  -- the file is opened
  let u := (startAlone d s (order :: rest)).moveCaller 0 ⟨es, .opened q, []⟩
    ((startAlone d s (order :: rest)).ground.store s₁)
  have hstart : (startAlone d s (order :: rest)).run? [] = some (startAlone d s (order :: rest)) :=
    rfl
  have hu := run?_open hstart rfl hl hf
  have hopened : Alone (startAlone d s (order :: rest)) (order :: rest) u ⟨es, .opened q, []⟩ []
      rest := by
    have hlocated := (alone_start hd hm).located hs rfl hl fun q hq => absurd hq hnone
    have := hlocated.fitted hf
    rwa [moveCaller_moveCaller] at this
  -- nothing hinders the operation from starting
  let v := (startAlone d s (order :: rest)).moveCaller 0 ⟨es, .admitted q, []⟩
    ((startAlone d s (order :: rest)).ground.store s₁)
  have hstepv : u.step? (.caller 0) = some v := by
    have hidle' : u.ground.engine.completion.isIdle = true := hidle
    have : u.step? (.caller 0) = some (u.moveCaller 0 ⟨es, .admitted q, []⟩ u.ground) :=
      step?_caller hopened.callers (by simp [Caller.step?, hidle'])
    rwa [moveCaller_moveCaller] at this
  have hv := run?_concat hu hstepv
  have hrec := recorded_startAlone hd hv
  have hsame := sameSettings_of_run? hv
  have hadmitted : Alone (startAlone d s (order :: rest)) (order :: rest) v ⟨es, .admitted q, []⟩ []
      rest := by
    have := hopened.admits (recorded_startAlone hd hu).balanced (sameSettings_of_run? hu)
      (fun _ q hq => absurd hq hnone) (.inr hidle)
    rwa [moveCaller_moveCaller] at this
  have hsize : q.blockSize = d.settings.blockSize :=
    (locate_spec hd.blockSize_pos (hm _ List.mem_cons_self) hl).blockSize
  have hlaunched := hadmitted.launch hs hrec hsame hsize rfl
  have hstep : v.step? (.caller 0) = some (v.moveCaller 0
      ⟨es, .launched v.ground.engine.nextFlight q.buffer.len (v.ground.engine.plan q), []⟩
      (v.ground.launch q)) :=
    step?_caller (c := ⟨es, .admitted q, []⟩) hadmitted.callers rfl
  have hplan : d.engine.plan q ≠ [] := fun hnil => Nat.ne_of_gt hlen
    ((plan_eq_nil_iff hs (hadmitted.prospect.stage : q.Ready _).toLocated hsize).mp hnil)
  refine ⟨_, _, _, run?_concat hv hstep, hlaunched, ?_, rfl, fun m p hp => ?_⟩
  · show Stage.launched _ _ (d.engine.plan q) = _
    rw [Stage.launched, if_neg (by simpa using hplan)]
    rfl
  · have hp : (v.ground.engine.launch q _).2.operation? m = some p := hp
    rw [Engine.operation?_launch _ _ _ _ hrec.balanced.flight?_nextFlight] at hp
    split at hp
    · rename_i hm
      cases hp
      exact ⟨hm, rfl⟩
    · exact absurd (Engine.mem_operations hp) hnone

/-- A first order is opened and started, its last job stays in an inbox, and the
caller is about to go on. -/
theorem exists_lingering (hd : d.AtRest) (hlt : d.settings.blockSize < Word.count)
    (hm : ∀ c ∈ order :: rest, s.memory.Holds c.buffer)
    (hopen : openFile order d.settings.blockSize s = .ok (q, s₁))
    (hplan : d.engine.plan q = rs ++ [r])
    (htiles : ByteRange.Tiles 0 q.buffer.len (rs ++ [r]))
    (hgood : ∀ s block, block.stop ≤ r.start → good s.memory → good (q.carry block s).memory)
    (hgood₁ : good s₁.memory) :
    ∃ schedule u c, (startAlone d s (order :: rest)).run? schedule = some u ∧
      Lingers (startAlone d s (order :: rest)) (order :: rest) rest q d.engine.nextFlight r good u
        c ∧
      c.stage = .dealing d.engine.nextFlight q.buffer.len [] ∧
      ⟨d.engine.nextFlight, r⟩ ∈ u.ground.engine.inboxes.flatten := by
  have hlen : 0 < q.buffer.len := by
    obtain ⟨-, hlt, hstop⟩ := htiles.of_concat
    omega
  obtain ⟨schedule, u, c, hu, halone, hstage, hstorage, honly⟩ :=
    exists_launched hd hlt hm hopen hlen
  have hlingers : Lingers (startAlone d s (order :: rest)) (order :: rest) rest q
      d.engine.nextFlight r good u c := by
    refine ⟨halone, .inl ?_, honly, hstorage.symm ▸ hgood₁⟩
    rw [hstage, hplan]
    exact ⟨rfl, rfl, rs, rfl⟩
  exact hlingers.exists_dealt hd hlt hu hplan htiles hgood

end Reaching

end Traffic
end BlockTransfer
