import BlockTransfer.Proofs.Engine.Flights
import BlockTransfer.Proofs.Traffic.Moves
/-!
# What a step does to the books

A job that was planned and has not ended waits somewhere: with the caller who
deals it, in an inbox, or with the worker who moves it (`Traffic.waiting`).
Between a job's end and its being counted a worker remembers its operation
(`Traffic.spent`), and whoever counted the last one has the end to report
(`Traffic.closing`). Most of the twenty moves change none of these: what is left
are six kinds of `Deed`, and the laws of the engine are shown for these six.

Key definitions: `Traffic.waiting`, `Traffic.spent`, `Traffic.closing`,
`Traffic.Deed`.
Key theorems: `Traffic.deed_of_step?`.
-/

namespace BlockTransfer
namespace Traffic

/-- The jobs that a caller has still to deal. -/
def Stage.undealt : Stage → List Job
  | .dealing n _ ranges => ranges.map (⟨n, ·⟩)
  | .placing n _ _ range ranges => ⟨n, range⟩ :: ranges.map (⟨n, ·⟩)
  | _ => []

/-- The operation whose end a caller has to report. -/
def Stage.closing : Stage → List Nat
  | .ending n | .reporting n _ => [n]
  | _ => []

/-- The end that a caller is about to report. -/
def Stage.verdict : Stage → List (Nat × Except TransferError Unit)
  | .reporting n result => [(n, result)]
  | _ => []

theorem Stage.undealt_launched (n len : Nat) (ranges : List ByteRange) :
    (Stage.launched n len ranges).undealt = ranges.map (⟨n, ·⟩) := by
  cases ranges <;> rfl

theorem Stage.closing_launched (n len : Nat) (ranges : List ByteRange) :
    (Stage.launched n len ranges).closing = if ranges = [] then [n] else [] := by
  cases ranges <;> rfl

/-- The job that a worker has taken and not ended. -/
def Worker.held : Worker → List Job
  | .moving j _ | .failed j _ => [j]
  | _ => []

/-- The operation of which a worker has ended a job that is not counted yet. -/
def Worker.spent : Worker → List Nat
  | .done n => [n]
  | _ => []

/-- The operation whose end a worker has to report. -/
def Worker.closing : Worker → List Nat
  | .ending n | .reporting n _ => [n]
  | _ => []

/-- The end that a worker is about to report. -/
def Worker.verdict : Worker → List (Nat × Except TransferError Unit)
  | .reporting n result => [(n, result)]
  | _ => []

/-- The jobs that have not ended. -/
def waiting (t : Traffic) : List Job :=
  t.callers.flatMap (·.stage.undealt) ++ t.ground.engine.inboxes.flatten ++
    t.workers.flatMap Worker.held

/-- The operations of jobs that have ended and are not counted yet. -/
def spent (t : Traffic) : List Nat := t.workers.flatMap Worker.spent

/-- The operations whose ends are to be reported. -/
def closing (t : Traffic) : List Nat :=
  t.callers.flatMap (·.stage.closing) ++ t.workers.flatMap Worker.closing

/-- The ends that are about to be reported. -/
def verdicts (t : Traffic) : List (Nat × Except TransferError Unit) :=
  t.callers.flatMap (·.stage.verdict) ++ t.workers.flatMap Worker.verdict

/-- The six kinds of things that a step does to the books. -/
inductive Deed (t t' : Traffic) : Prop where
  /-- Nothing changes, though a job may pass from one place to another. -/
  | quiet (flights : t'.ground.engine.flights = t.ground.engine.flights)
      (next : t'.ground.engine.nextFlight = t.ground.engine.nextFlight)
      (completion : t'.ground.engine.completion = t.ground.engine.completion)
      (journal : t'.ground.journal = t.ground.journal)
      (waiting : t'.waiting.Perm t.waiting) (spent : t'.spent.Perm t.spent)
      (closing : t'.closing.Perm t.closing)
  /-- An operation starts. -/
  | launched (o : Operation) (ground : t'.ground = t.ground.launch o)
      (waiting : t'.waiting.Perm
        ((t.ground.engine.plan o).map (⟨t.ground.engine.nextFlight, ·⟩) ++ t.waiting))
      (spent : t'.spent.Perm t.spent)
      (closing : t'.closing.Perm
        ((if t.ground.engine.plan o = [] then [t.ground.engine.nextFlight] else []) ++ t.closing))
  /-- A job ends. -/
  | ran (j : Job) (result : Except TransferError Unit)
      (ground : t'.ground =
        (t.ground.run (t.ground.engine.noteResult j.flight result)).log (.ran j result))
      (waiting : t.waiting.Perm (j :: t'.waiting)) (spent : t'.spent.Perm (j.flight :: t.spent))
      (closing : t'.closing.Perm t.closing)
  /-- A job that ended is counted. -/
  | retired (n : Nat) (ground : t'.ground = t.ground.run (t.ground.engine.retire n).2)
      (waiting : t'.waiting.Perm t.waiting) (spent : t.spent.Perm (n :: t'.spent))
      (closing : t'.closing.Perm
        ((if (t.ground.engine.retire n).1 then [n] else []) ++ t.closing))
  /-- The end of an operation is reported. -/
  | reported (n : Nat) (result : Except TransferError Unit)
      (verdict : (n, result) ∈ t.verdicts) (ground : t'.ground = t.ground.report n result)
      (waiting : t'.waiting.Perm t.waiting) (spent : t'.spent.Perm t.spent)
      (closing : t.closing.Perm (n :: t'.closing))
  /-- A wait is answered. -/
  | drained (idle : t.ground.engine.completion.isIdle = true) (ground : t'.ground = t.ground.drain)
      (waiting : t'.waiting.Perm t.waiting) (spent : t'.spent.Perm t.spent)
      (closing : t'.closing.Perm t.closing)

variable {t t' : Traffic} {i : Nat}

theorem mem_waiting_of_held {w : Worker} {j : Job} (hw : w ∈ t.workers) (hj : j ∈ w.held) :
    j ∈ t.waiting :=
  List.mem_append_right _ (List.mem_flatMap.mpr ⟨w, hw, hj⟩)

theorem mem_waiting_of_inbox {j : Job} (hj : j ∈ t.ground.engine.inboxes.flatten) :
    j ∈ t.waiting :=
  List.mem_append_left _ (List.mem_append_right _ hj)

theorem mem_closing_of_worker {w : Worker} {n : Nat} (hw : w ∈ t.workers) (hn : n ∈ w.closing) :
    n ∈ t.closing :=
  List.mem_append_right _ (List.mem_flatMap.mpr ⟨w, hw, hn⟩)

section Caller

variable {c : Caller} {g : Ground}

theorem waiting_moveCaller (h : t.callers[i]? = some c) (c' : Caller)
    (hg : g.engine.inboxes = t.ground.engine.inboxes) :
    (c.stage.undealt ++ (t.moveCaller i c' g).waiting).Perm (c'.stage.undealt ++ t.waiting) := by
  have := flatMap_set_perm (fun c : Caller => c.stage.undealt) h c'
  simp only [waiting, moveCaller, hg, ← List.append_assoc]
  exact (this.append_right _).append_right _

theorem closing_moveCaller (h : t.callers[i]? = some c) (c' : Caller) (g : Ground) :
    (c.stage.closing ++ (t.moveCaller i c' g).closing).Perm (c'.stage.closing ++ t.closing) := by
  have := flatMap_set_perm (fun c : Caller => c.stage.closing) h c'
  simp only [closing, moveCaller, ← List.append_assoc]
  exact this.append_right _

end Caller

section Worker

variable {w : Worker} {g : Ground}

theorem waiting_moveWorker (h : t.workers[i]? = some w) (w' : Worker)
    (hg : g.engine.inboxes = t.ground.engine.inboxes) :
    (w.held ++ (t.moveWorker i w' g).waiting).Perm (w'.held ++ t.waiting) := by
  refine List.perm_iff_count.mpr fun x => ?_
  have := count_flatMap_set Worker.held h w' x
  simp only [waiting, moveWorker, hg, List.count_append]
  omega

theorem spent_moveWorker (h : t.workers[i]? = some w) (w' : Worker) (g : Ground) :
    (w.spent ++ (t.moveWorker i w' g).spent).Perm (w'.spent ++ t.spent) :=
  flatMap_set_perm Worker.spent h w'

theorem closing_moveWorker (h : t.workers[i]? = some w) (w' : Worker) (g : Ground) :
    (w.closing ++ (t.moveWorker i w' g).closing).Perm (w'.closing ++ t.closing) := by
  refine List.perm_iff_count.mpr fun x => ?_
  have := count_flatMap_set Worker.closing h w' x
  simp only [closing, moveWorker, List.count_append]
  omega

end Worker

/-! ### A job put into an inbox, or taken out -/

theorem flatten_of_put? {e e' : Engine} {worker : Nat} {j : Job} (h : e.put? worker j = some e') :
    e'.inboxes.flatten.Perm (j :: e.inboxes.flatten) := by
  unfold Engine.put? at h
  split at h
  · cases h
  · rename_i inbox hi
    split at h
    · cases h
      have := flatMap_set_perm id hi (inbox ++ [j])
      simp only [List.flatMap_id, id] at this
      refine (List.perm_append_left_iff inbox).mp (this.trans ?_)
      rw [List.append_assoc]
      rfl
    · cases h

theorem flatten_of_take? {e e' : Engine} {worker : Nat} {j : Job}
    (h : e.take? worker = some (j, e')) : e.inboxes.flatten.Perm (j :: e'.inboxes.flatten) := by
  unfold Engine.take? at h
  split at h
  · rename_i k inbox hi
    cases h
    have := flatMap_set_perm id hi inbox
    simp only [List.flatMap_id, id] at this
    refine (List.perm_append_left_iff inbox).mp (this.symm.trans ?_)
    exact List.perm_middle.symm
  · cases h

theorem put?_same {e e' : Engine} {worker : Nat} {j : Job} (h : e.put? worker j = some e') :
    e'.flights = e.flights ∧ e'.nextFlight = e.nextFlight ∧ e'.completion = e.completion := by
  unfold Engine.put? at h
  split at h
  · cases h
  · split at h
    · cases h
      exact ⟨rfl, rfl, rfl⟩
    · cases h

theorem take?_same {e e' : Engine} {worker : Nat} {j : Job} (h : e.take? worker = some (j, e')) :
    e'.flights = e.flights ∧ e'.nextFlight = e.nextFlight ∧ e'.completion = e.completion := by
  unfold Engine.take? at h
  split at h
  · cases h
    exact ⟨rfl, rfl, rfl⟩
  · cases h

/-! ### Every step is a deed -/

theorem deed_of_caller {c c' : Caller} {g : Ground} (hc : t.callers[i]? = some c)
    (hmove : c.Move t.blockSize t.ground c' g) : Deed t (t.moveCaller i c' g) := by
  have hclosing := closing_moveCaller hc c' g
  have hwaiting := waiting_moveCaller hc c' (g := g)
  cases hmove with
  | drained idle =>
    exact .drained idle rfl (hwaiting rfl) (.refl _) hclosing
  | refused h => exact .quiet rfl rfl rfl rfl (hwaiting rfl) (.refl _) hclosing
  | located h => exact .quiet rfl rfl rfl rfl (hwaiting rfl) (.refl _) hclosing
  | misfit h => exact .quiet rfl rfl rfl rfl (hwaiting rfl) (.refl _) hclosing
  | fitted h => exact .quiet rfl rfl rfl rfl (hwaiting rfl) (.refl _) hclosing
  | admitted h => exact .quiet rfl rfl rfl rfl (hwaiting rfl) (.refl _) hclosing
  | dealt => exact .quiet rfl rfl rfl rfl (hwaiting rfl) (.refl _) hclosing
  | turned =>
    have hwaiting := (List.perm_append_left_iff _).mp (hwaiting rfl)
    exact .quiet rfl rfl rfl rfl hwaiting (.refl _) hclosing
  | judged =>
    have hclosing := (List.perm_append_left_iff _).mp hclosing
    exact .quiet rfl rfl rfl rfl (hwaiting rfl) (.refl _) hclosing
  | @launched o es as =>
    refine .launched o rfl ?_ (.refl _) ?_
    · rw [← Stage.undealt_launched _ o.buffer.len]
      exact hwaiting rfl
    · rw [← Stage.closing_launched _ o.buffer.len]
      exact hclosing
  | @placed n len worker r rs es as _ engine h =>
    have hflat := flatten_of_put? h
    obtain ⟨hflights, hnext, hcompletion⟩ := put?_same h
    refine .quiet hflights hnext hcompletion rfl ?_ (.refl _) hclosing
    refine List.perm_iff_count.mpr fun x => ?_
    have hset : List.count x (⟨n, r⟩ :: rs.map (⟨n, ·⟩)) + _ = List.count x (rs.map (⟨n, ·⟩)) + _ :=
      count_flatMap_set (fun c : Caller => c.stage.undealt) hc ⟨es, .dealing n len rs, as⟩ x
    have hin := hflat.count_eq x
    simp only [List.count_cons] at hset hin
    simp only [waiting, moveCaller, Ground.run, List.count_append]
    omega
  | @reported n result es as =>
    refine .reported n result ?_ rfl (hwaiting rfl) (.refl _) hclosing.symm
    refine List.mem_append_left _ (List.mem_flatMap.mpr ⟨_, List.mem_of_getElem? hc, ?_⟩)
    exact List.mem_singleton_self _

theorem deed_of_worker {w w' : Worker} {g : Ground} (hw : t.workers[i]? = some w)
    (hmove : w.Move i t.ground w' g) : Deed t (t.moveWorker i w' g) := by
  have hclosing := closing_moveWorker hw w' g
  have hspent := spent_moveWorker hw w' g
  have hwaiting := waiting_moveWorker hw w' (g := g)
  cases hmove with
  | @taken _ j engine f h hf =>
    have hflat := flatten_of_take? h
    obtain ⟨hflights, hnext, hcompletion⟩ := take?_same h
    refine .quiet hflights hnext hcompletion rfl ?_ hspent hclosing
    refine List.perm_iff_count.mpr fun x => ?_
    have hset : List.count x [] + _ = List.count x [j] + _ :=
      count_flatMap_set Worker.held hw (.moving j (f.operation.blocks j.range)) x
    have hin := hflat.count_eq x
    simp only [List.count_nil, List.count_cons] at hset hin
    simp only [waiting, moveWorker, Ground.run, List.count_append]
    omega
  | @ran j => exact .ran j (.ok ()) rfl (hwaiting rfl).symm hspent hclosing
  | moved hf h =>
    have hwaiting := (List.perm_append_left_iff _).mp (hwaiting rfl)
    exact .quiet rfl rfl rfl rfl hwaiting hspent hclosing
  | stumbled hf h =>
    have hwaiting := (List.perm_append_left_iff _).mp (hwaiting rfl)
    exact .quiet rfl rfl rfl rfl hwaiting hspent hclosing
  | @failed j e =>
    refine .ran j (.error e) rfl (hwaiting ?_).symm hspent hclosing
    exact Engine.inboxes_note _ _ _
  | @retired n =>
    have hwaiting := hwaiting (Engine.inboxes_retire _ n)
    cases hlast : (t.ground.engine.retire n).1 with
    | true =>
      simp only [hlast, ↓reduceIte] at hwaiting hspent hclosing ⊢
      exact .retired n rfl hwaiting hspent.symm (by rw [hlast]; exact hclosing)
    | false =>
      simp only [hlast, Bool.false_eq_true, ↓reduceIte] at hwaiting hspent hclosing ⊢
      exact .retired n rfl hwaiting hspent.symm (by rw [hlast]; exact hclosing)
  | judged =>
    have hclosing := (List.perm_append_left_iff _).mp hclosing
    exact .quiet rfl rfl rfl rfl (hwaiting rfl) hspent hclosing
  | @reported n result =>
    have hverdict : (n, result) ∈ t.verdicts := List.mem_append_right _
      (List.mem_flatMap.mpr ⟨_, List.mem_of_getElem? hw, List.mem_singleton_self _⟩)
    exact .reported n result hverdict rfl (hwaiting rfl) hspent hclosing.symm

/-- Every step is one of the six. -/
theorem deed_of_step? {e : Event} (h : t.step? e = some t') : Deed t t' := by
  cases e with
  | caller i =>
    obtain ⟨c, c', g, hc, hmove, rfl⟩ := caller_of_step? h
    exact deed_of_caller hc hmove
  | worker i =>
    obtain ⟨w, w', g, hw, hmove, rfl⟩ := worker_of_step? h
    exact deed_of_worker hw hmove

/-! ### The journal only grows -/

theorem journal_of_deed (hd : Deed t t') : t.ground.journal <+: t'.ground.journal := by
  have happend : ∀ {x}, t'.ground.journal = t.ground.journal ++ [x] →
      t.ground.journal <+: t'.ground.journal := fun h => h ▸ List.prefix_append _ _
  cases hd with
  | quiet _ _ _ journal => exact journal ▸ List.prefix_refl _
  | launched o ground => exact happend (by rw [ground]; rfl)
  | ran j result ground => exact happend (by rw [ground]; rfl)
  | retired n ground => exact ground ▸ List.prefix_refl _
  | reported n result _ ground => exact happend (by rw [ground]; rfl)
  | drained _ ground => exact happend (by rw [ground]; rfl)

theorem journal_of_run? {schedule : List Event} (hrun : t.run? schedule = some t') :
    t.ground.journal <+: t'.ground.journal :=
  run_induction (P := fun _ u => t.ground.journal <+: u.ground.journal) (List.prefix_refl _)
    (fun _ _ _ _ _ hu hstep => hu.trans (journal_of_deed (deed_of_step? hstep))) hrun

/-- A job on its way stays there, or the journal tells that it ended. -/
theorem waiting_of_deed (hd : Deed t t') {j : Job} (hj : j ∈ t.waiting) :
    j ∈ t'.waiting ∨ ∃ result, t'.ground.journal = t.ground.journal ++ [.ran j result] := by
  cases hd with
  | quiet _ _ _ _ waiting => exact .inl (waiting.mem_iff.mpr hj)
  | launched o _ waiting => exact .inl (waiting.mem_iff.mpr (List.mem_append_right _ hj))
  | ran k result ground waiting =>
    rcases List.mem_cons.mp (waiting.mem_iff.mp hj) with rfl | hj
    · exact .inr ⟨result, by rw [ground]; rfl⟩
    · exact .inl hj
  | retired n _ waiting => exact .inl (waiting.mem_iff.mpr hj)
  | reported n result _ _ waiting => exact .inl (waiting.mem_iff.mpr hj)
  | drained _ _ waiting => exact .inl (waiting.mem_iff.mpr hj)

end Traffic
end BlockTransfer
