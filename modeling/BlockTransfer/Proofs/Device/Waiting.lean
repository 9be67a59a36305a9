import BlockTransfer.Proofs.Traffic.Slow
/-!
# Waiting twice

A wait leaves a device with nothing to wait for (`PosixDevice.idle_of_wait`), and
a device with nothing to wait for counts no operation and stays as it is
(`PosixDevice.Idle.serve_wait`).

Key definitions: `PosixDevice.Idle`.
Key theorems: `PosixDevice.idle_of_wait`, `PosixDevice.Idle.serve_wait`.
-/

namespace BlockTransfer

/-- Workers with nothing to do do nothing. -/
theorem Engine.settle_of_empty {e : Engine} (h : ∀ b ∈ e.inboxes, b = []) (s : Storage) :
    e.settle s = (e, s) := by
  have hnone : ∀ worker : Nat, ((e.inboxes[worker]?.map List.length).getD 0) = 0 := by
    intro worker
    cases hb : e.inboxes[worker]? with
    | none => rfl
    | some b =>
      rw [h b (List.mem_of_getElem? hb)]
      rfl
  unfold settle
  induction List.range e.workerCount with
  | nil => rfl
  | cons worker workers ih =>
    rw [List.foldl_cons]
    simp only [hnone]
    exact ih

namespace PosixDevice

/-- Nothing is under way, and nothing ended since the last wait. -/
structure Idle (p : PosixDevice) : Prop where
  inboxes : ∀ b ∈ p.engine.inboxes, b = []
  completed : p.engine.completion.completed = 0
  failures : p.engine.completion.failures = []

variable {p : PosixDevice}

theorem Idle.serve_wait (h : p.Idle) (s : Storage) :
    p.serve s .wait = (.ok (.number 0), p, s) := by
  obtain ⟨settings, ⟨queueDepth, singleSubmit, overlap, inboxes, dealt, flights, nextFlight,
    ⟨inFlight, completed, failures⟩⟩, pool⟩ := p
  obtain ⟨hinboxes, rfl, rfl⟩ := h
  simp only [serve, Engine.drain, Engine.settle_of_empty hinboxes, Completion.drain]

theorem idle_of_wait (p : PosixDevice) (s : Storage) : (p.serve s .wait).2.1.Idle := by
  have hinboxes := Engine.inboxes_settle p.engine s
  simp only [serve, Engine.drain]
  generalize p.engine.settle s = settled at hinboxes ⊢
  split <;>
  · rename_i heq
    simp only [Prod.mk.injEq] at heq
    obtain ⟨-, rfl, -⟩ := heq
    exact ⟨hinboxes, rfl, rfl⟩

end PosixDevice
end BlockTransfer
