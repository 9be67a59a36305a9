import BlockTransfer.Proofs.Traffic.Overtaking
/-!
# What comes of a write that is opened too early

A write has its file while the last job of an operation on the same file still
lies in an inbox. If that operation writes more bytes than the write, the job
makes the file too long, and nothing cuts it again (`Traffic.Overrun`). If that
operation reads, the job finds zeros where the file's bytes were
(`Traffic.Missed`).

Key definitions: `Traffic.Overrun`, `Traffic.Missed`.
Key theorems: `Traffic.Overrun.exists_over`, `Traffic.Missed.exists_over`.
-/

namespace BlockTransfer
namespace Traffic

open Operation

/-- The caller has opened the file of its last order. -/
structure Caller.Parts (o : Operation) (c : Caller) : Prop where
  errands : ∀ e ∈ c.errands, e = .wait
  stage : c.stage.pending = none ∨ c.stage = .opened o ∨ c.stage = .admitted o

variable {q o : Operation} {n i : Nat} {r : ByteRange} {good : Memory → Prop} {t t' : Traffic}
  {c c' : Caller} {w w' : Worker} {g g' : Ground} {blockSize : Nat}

/-- It changes no file and no buffer any more, and starts no other operation. -/
theorem Caller.Move.parts (h : c.Move blockSize g c' g') (hc : c.Parts o) :
    c'.Parts o ∧ g'.storage = g.storage ∧
      ∀ p ∈ g'.engine.operations, p ∈ g.engine.operations ∨ c.stage = .admitted o ∧ p = o := by
  have hops : ∀ p ∈ g'.engine.operations,
      p ∈ g.engine.operations ∨ c.stage = .admitted o ∧ p = o := by
    intro p hp
    rcases h.operations p hp with hp | hstage
    · exact .inl hp
    · rcases hc.stage with hs | hs | hs
      · rw [hstage] at hs
        cases hs
      · rw [hstage] at hs
        cases hs
      · rw [hstage] at hs
        cases hs
        exact .inr ⟨hstage, rfl⟩
  have herr := hc.errands
  have hst := hc.stage
  cases h with
  | drained => exact ⟨⟨fun e he => herr e (List.mem_cons_of_mem _ he), .inl rfl⟩, rfl, hops⟩
  | refused => cases herr _ List.mem_cons_self
  | located => cases herr _ List.mem_cons_self
  | misfit => rcases hst with hs | hs | hs <;> cases hs
  | fitted => rcases hst with hs | hs | hs <;> cases hs
  | admitted =>
    refine ⟨⟨herr, ?_⟩, rfl, hops⟩
    rcases hst with hs | hs | hs
    · cases hs
    · cases hs
      exact .inr (.inr rfl)
    · cases hs
  | launched => exact ⟨⟨herr, .inl (Stage.pending_launched _ _ _)⟩, rfl, hops⟩
  | placed hput => exact ⟨⟨herr, .inl rfl⟩, rfl, hops⟩
  | _ => exact ⟨⟨herr, .inl rfl⟩, rfl, hops⟩

/-- A worker carries a block of an operation under way, or it leaves the storage
alone. -/
theorem Worker.Move.storage (h : w.Move i g w' g') : g'.storage = g.storage ∨
    ∃ p ∈ g.engine.operations, ∃ block, g'.storage = p.carry block g.storage := by
  have hblock : ∀ {j : Job} {block : ByteRange} {f : Flight} {v : Except TransferError Unit}
      {s : Storage}, g.engine.flight? j.flight = some f →
      f.operation.moveBlock j.range.stop block g.storage = (v, s) → s = g.storage ∨
        ∃ p ∈ g.engine.operations, ∃ block, s = p.carry block g.storage := by
    intro j block f v s hf hmv
    have hmem := Engine.mem_operations_of_flight? hf
    rcases moveBlock_storage f.operation j.range.stop block g.storage with heq | heq
    · exact .inl (by rw [← heq, hmv])
    · exact .inr ⟨_, hmem, block, by rw [← heq, hmv]⟩
  cases h with
  | moved hf hmv => exact hblock hf hmv
  | stumbled hf hmv => exact hblock hf hmv
  | _ => exact .inl rfl

/-! ### A file that gets too long -/

/-- A worker has the last block of that job still to move, if it has the job. -/
def Worker.Owes (j : Job) : Worker → Prop
  | .moving k blocks => k = j → ∃ b ∈ blocks, b.start < b.stop ∧ b.stop = j.range.stop
  | .failed k _ => k ≠ j
  | _ => True

/-- A file is as long as a job of an earlier write makes it, or will be. -/
structure Overrun (q o : Operation) (n : Nat) (r : ByteRange) (t : Traffic) : Prop where
  caller : ∃ c, t.callers = [c] ∧ c.Parts o
  writes : ∀ p ∈ t.ground.engine.operations, p.direction = .write ∧ p.handle = o.handle
  started : ∃ ranges, .started n q ranges ∈ t.ground.journal
  holds : t.ground.storage.memory.Holds q.buffer
  file : ∃ data, t.ground.storage.files.Keeps o.handle.at_ data ∧
    (q.buffer.len ≤ data.length ∨ ⟨n, r⟩ ∈ t.waiting ∧ ∀ w ∈ t.workers, w.Owes ⟨n, r⟩)

namespace Overrun

/-- A job on its way stays on its way, unless it ends. -/
theorem waiting_of_step (hd : Deed t t') {j : Job} (hj : j ∈ t.waiting)
    (hran : ∀ result, t'.ground.journal ≠ t.ground.journal ++ [.ran j result]) :
    j ∈ t'.waiting := by
  rcases waiting_of_deed hd hj with hj | ⟨result, hjournal⟩
  · exact hj
  · exact absurd hjournal (hran result)

theorem callerMove (h : Overrun q o n r t) (hd : o.direction = .write)
    (hc : t.callers[i]? = some c) (hmove : c.Move t.blockSize t.ground c' g) :
    Overrun q o n r (t.moveCaller i c' g) := by
  obtain ⟨c₀, hcallers, hparts⟩ := h.caller
  have hdeed := deed_of_caller hc hmove
  obtain ⟨ranges, hstarted⟩ := h.started
  obtain ⟨data, hk, hfile⟩ := h.file
  obtain ⟨rfl, rfl⟩ := eq_of_single_caller hcallers hc
  obtain ⟨hparts', hstorage, hops⟩ := hmove.parts hparts
  refine
    { caller := ⟨c', callers_moveCaller_single hcallers c' g, hparts'⟩
      writes := fun p hp => ?_
      started := ⟨ranges, (journal_of_deed hdeed).subset hstarted⟩
      holds := hstorage.symm ▸ h.holds
      file := ⟨data, hstorage.symm ▸ hk, ?_⟩ }
  · rcases hops p hp with hp | ⟨-, rfl⟩
    · exact h.writes p hp
    · exact ⟨hd, rfl⟩
  · rcases hfile with hlen | ⟨hwait, howes⟩
    · exact .inl hlen
    · exact .inr ⟨waiting_of_step hdeed hwait fun result => hmove.not_ran, howes⟩

theorem workerMove (h : Overrun q o n r t) (hb : Balanced t) (hsize : 0 < q.blockSize)
    (hr : r.start < r.stop) (hstop : r.stop = q.buffer.len) (hw : t.workers[i]? = some w)
    (hmove : w.Move i t.ground w' g) : Overrun q o n r (t.moveWorker i w' g) := by
  have hdeed := deed_of_worker hw hmove
  have hops := hmove.operations hb.nodup_numbers
  obtain ⟨ranges, hstarted⟩ := h.started
  obtain ⟨data, hk, hfile⟩ := h.file
  -- the file gets no shorter, and the job is not lost
  have hkeep : ∀ {data'}, g.storage.memory = t.ground.storage.memory →
      g.storage.files.Keeps o.handle.at_ data' → data.length ≤ data'.length →
      (w.Owes ⟨n, r⟩ → q.buffer.len ≤ data'.length ∨ w'.Owes ⟨n, r⟩ ∧
        ∀ result, g.journal ≠ t.ground.journal ++ [.ran ⟨n, r⟩ result]) →
      Overrun q o n r (t.moveWorker i w' g) := by
    intro data' hmemory hk' hle hjob
    refine
      { caller := h.caller
        writes := fun p hp => h.writes p (hops p hp)
        started := ⟨ranges, (journal_of_deed hdeed).subset hstarted⟩
        holds := hmemory.symm ▸ h.holds
        file := ⟨data', hk', ?_⟩ }
    rcases hfile with hlen | ⟨hwait, howes⟩
    · exact .inl (Nat.le_trans hlen hle)
    · rcases hjob (howes w (List.mem_of_getElem? hw)) with hlen | ⟨hw', hran⟩
      · exact .inl hlen
      · refine .inr ⟨waiting_of_step hdeed hwait hran, fun v hv => ?_⟩
        rcases List.mem_or_eq_of_mem_set hv with hv | rfl
        · exact howes v hv
        · exact hw'
  have hquiet : ∀ result, t.ground.journal ≠ t.ground.journal ++ [.ran ⟨n, r⟩ result] := by simp
  cases hmove with
  | @taken _ j engine f htake hf =>
    refine hkeep rfl hk (Nat.le_refl _) fun _ => .inr ⟨fun hj => ?_, hquiet⟩
    subst hj
    rw [Engine.flight?_congr (take?_same htake).1] at hf
    rw [hb.operation_eq hf hstarted]
    exact (ByteRange.tiles_blocks r hsize (Nat.le_of_lt hr)).exists_last hr
  | @ran j =>
    refine hkeep rfl hk (Nat.le_refl _) fun howes => .inr ⟨trivial, fun result hj => ?_⟩
    cases List.singleton_inj.mp (List.append_cancel_left hj)
    obtain ⟨b, hmem, -⟩ := howes rfl
    cases hmem
  | @moved j block blocks _ f s hf hmv =>
    have hmem := Engine.mem_operations_of_flight? hf
    obtain ⟨hwrite, hhandle⟩ := h.writes _ hmem
    rw [moveBlock_write hwrite, carry_write hwrite, hhandle, FileSystem.content_eq hk.entry] at hmv
    cases hmv
    refine hkeep rfl (FileSystem.keeps_insert _ hk.ne_nil) (Bytes.length_le_copyRange _ _ _)
      fun howes => ?_
    by_cases hj : j = ⟨n, r⟩
    · subst hj
      obtain ⟨b, hb', hlt, hlast⟩ := howes rfl
      rcases List.mem_cons.mp hb' with rfl | hb'
      · left
        rw [hb.operation_eq hf hstarted, ← hstop, ← hlast]
        refine Bytes.stop_le_length_copyRange hlt ?_ data
        rw [h.holds.length, hlast, hstop]
      · exact .inr ⟨fun _ => ⟨b, hb', hlt, hlast⟩, hquiet⟩
    · exact .inr ⟨fun hj' => absurd hj' hj, hquiet⟩
  | @stumbled j block blocks _ f e s hf hmv =>
    have hmem := Engine.mem_operations_of_flight? hf
    rw [moveBlock_write (h.writes _ hmem).1] at hmv
    cases hmv
  | @failed j e =>
    refine hkeep rfl hk (Nat.le_refl _) fun howes => .inr ⟨trivial, fun result hj => ?_⟩
    cases List.singleton_inj.mp (List.append_cancel_left hj)
    exact howes rfl
  | @retired m =>
    refine hkeep rfl hk (Nat.le_refl _) fun _ => .inr ⟨?_, hquiet⟩
    split <;> trivial
  | judged => exact hkeep rfl hk (Nat.le_refl _) fun _ => .inr ⟨trivial, hquiet⟩
  | reported =>
    refine hkeep rfl hk (Nat.le_refl _) fun _ => .inr ⟨trivial, fun result hj => ?_⟩
    cases List.singleton_inj.mp (List.append_cancel_left hj)

end Overrun

/-- A job that lies in an inbox has its last block still to be moved. -/
theorem Overtaken.overrun (h : Overtaken q o n r good t) (hq : q.direction = .write)
    (hh : q.handle = o.handle) : Overrun q o n r t := by
  obtain ⟨as, hcallers⟩ := h.caller
  refine
    { caller := ⟨_, hcallers, fun e he => List.mem_singleton.mp he, .inr (.inl rfl)⟩
      writes := fun p hp => by
        rw [h.only p hp]
        exact ⟨hq, hh⟩
      started := h.started
      holds := h.holds
      file := ⟨_, h.emptied, .inr ⟨h.job, fun w hw => ?_⟩⟩ }
  cases w with
  | moving j blocks =>
    rintro rfl
    exact absurd (List.mem_flatMap.mpr ⟨_, hw, List.mem_singleton_self _⟩) h.free
  | failed j e =>
    rintro rfl
    exact h.free (List.mem_flatMap.mpr ⟨_, hw, List.mem_singleton_self _⟩)
  | _ => trivial

/-- Some schedule goes on to the end, and then the file is too long. -/
theorem Overrun.exists_over {d : PosixDevice} {s : Storage} {calls : List Order}
    {before : List Event} (hd : d.AtRest)
    (hrun : (startAlone d s calls).run? before = some t) (h : Overrun q o n r t)
    (ho : o.direction = .write) (hsize : 0 < q.blockSize) (hr : r.start < r.stop)
    (hstop : r.stop = q.buffer.len) :
    ∃ schedule u, (startAlone d s calls).run? schedule = some u ∧ u.isOver = true ∧
      q.buffer.len ≤ (u.ground.storage.files.content o.handle).length := by
  have hstep : ∀ schedule u e u', (startAlone d s calls).run? schedule = some u →
      Overrun q o n r u → ¬(u.isOver = true ∧ u.waiting = []) → u.step? e = some u' →
      Overrun q o n r u' := by
    intro schedule u e u' hu h _ hstep
    cases e with
    | caller i =>
      obtain ⟨c, c', g, hc, hmove, rfl⟩ := caller_of_step? hstep
      exact h.callerMove ho hc hmove
    | worker i =>
      obtain ⟨w, w', g, hw, hmove, rfl⟩ := worker_of_step? hstep
      exact h.workerMove (recorded_startAlone hd hu).balanced hsize hr hstop hw hmove
  obtain ⟨schedule, u, hu, h, hover, hwaiting⟩ := exists_run (Balanced.of_start hd s _)
    (regular_start hd s _) hstep (fun u _ hover hwaiting => ⟨hover, hwaiting⟩) hrun h
  obtain ⟨data, hk, hfile⟩ := h.file
  refine ⟨schedule, u, hu, hover, ?_⟩
  rw [FileSystem.content_eq hk.entry]
  rcases hfile with hlen | ⟨hwait, -⟩
  · exact hlen
  · rw [hwaiting] at hwait
    cases hwait

/-! ### Bytes that are not read any more -/

/-- A byte of a buffer that a read has not filled yet will not be filled: the
file is full of zeros while the read is under way. -/
structure Missed (q o : Operation) (k : Nat) (t : Traffic) : Prop where
  caller : ∃ c, t.callers = [c] ∧ c.Parts o ∧
    ((∀ p ∈ t.ground.engine.operations, p.direction = .write) ∨
      c.stage = .opened o ∧ (∀ p ∈ t.ground.engine.operations, p = q) ∧
        ∃ m, t.ground.storage.files.entryAt? o.handle.at_ = some (.file (Bytes.zeros m)))
  overlap : t.ground.engine.overlapEvents = false
  byte : (t.ground.storage.memory.bytes q.buffer)[k]? = some 0

namespace Missed

variable {k : Nat}

theorem callerMove (h : Missed q o k t) (hb : Balanced t) (hd : o.direction = .write)
    (hc : t.callers[i]? = some c) (hmove : c.Move t.blockSize t.ground c' g) :
    Missed q o k (t.moveCaller i c' g) := by
  obtain ⟨c₀, hcallers, hparts, hcase⟩ := h.caller
  obtain ⟨rfl, rfl⟩ := eq_of_single_caller hcallers hc
  obtain ⟨hparts', hstorage, hops⟩ := hmove.parts hparts
  have hoverlap := hmove.sameSettings.overlapEvents
  refine
    { caller := ⟨c', callers_moveCaller_single hcallers c' g, hparts', .inl fun p hp => ?_⟩
      overlap := hoverlap.trans h.overlap
      byte := hstorage.symm ▸ h.byte }
  rcases hcase with hwrites | ⟨hstage, -⟩
  · rcases hops p hp with hp | ⟨-, rfl⟩
    · exact hwrites p hp
    · exact hd
  · -- the write is admitted only when nothing is under way
    cases hmove with
    | admitted hopen =>
      rw [h.overlap] at hopen
      have hidle := hopen.resolve_left (by simp)
      have hp : p ∈ t.ground.engine.operations := hp
      rw [hb.operations_of_idle hidle] at hp
      cases hp
    | _ => cases hstage

theorem workerMove (h : Missed q o k t) (hb : Balanced t) (hq : q.direction = .read)
    (hh : q.handle = o.handle) (hmove : w.Move i t.ground w' g) :
    Missed q o k (t.moveWorker i w' g) := by
  obtain ⟨c, hcallers, hparts, hcase⟩ := h.caller
  have hops := hmove.operations hb.nodup_numbers
  have hsettings := hmove.sameSettings.overlapEvents
  have hkeep : ∀ {m : Memory}, g.storage.memory = m → (m.bytes q.buffer)[k]? = some 0 →
      ((∀ p ∈ t.ground.engine.operations, p.direction = .write) ∨
        g.storage.files = t.ground.storage.files) → Missed q o k (t.moveWorker i w' g) := by
    intro m hmemory hbyte hfiles
    refine
      { caller := ⟨c, hcallers, hparts, ?_⟩
        overlap := hsettings.trans h.overlap
        byte := hmemory.symm ▸ hbyte }
    rcases hcase with hwrites | ⟨hstage, honly, hzeros⟩
    · exact .inl fun p hp => hwrites p (hops p hp)
    · rcases hfiles with hwrites | hfiles
      · exact .inl fun p hp => hwrites p (hops p hp)
      · exact .inr ⟨hstage, fun p hp => honly p (hops p hp), hfiles.symm ▸ hzeros⟩
  rcases hmove.storage with hstorage | ⟨p, hp, block, hstorage⟩
  · exact hkeep (congrArg Storage.memory hstorage) h.byte (.inr (congrArg Storage.files hstorage))
  · rcases hcase with hwrites | ⟨-, honly, m, hzeros⟩
    · refine hkeep ?_ h.byte (.inl hwrites)
      rw [hstorage, memory_carry_write (hwrites p hp)]
    · rw [honly p hp] at hstorage
      have hfile : t.ground.storage.files.entryAt? q.handle.at_ = some (.file (Bytes.zeros m)) := by
        rw [hh]
        exact hzeros
      have hcarry := carry_read hq (by simp [hfile]) block (s := t.ground.storage)
      rw [FileSystem.content_eq hfile] at hcarry
      refine hkeep (congrArg Storage.memory (hstorage.trans hcarry)) ?_ (.inr ?_)
      · rw [Storage.memory_putBytes,
          Memory.bytes_store _ _ _ (Memory.region_lt_of_getElem? h.byte)]
        exact Bytes.getElem?_copyRange_zeros h.byte m block
      · rw [hstorage, files_carry_read hq]

end Missed

/-- While the last job of a read lies in an inbox, its last byte is not read. -/
theorem Overtaken.missed {k : Nat}
    (h : Overtaken q o n r (fun m => (m.bytes q.buffer)[k]? = some 0) t)
    (hoverlap : t.ground.engine.overlapEvents = false) : Missed q o k t := by
  obtain ⟨as, hcallers⟩ := h.caller
  exact
    { caller := ⟨_, hcallers, ⟨fun e he => List.mem_singleton.mp he, .inr (.inl rfl)⟩,
        .inr ⟨rfl, h.only, _, h.emptied.entry⟩⟩
      overlap := hoverlap
      byte := h.good }

/-- Some schedule goes on to the end, and the byte is not filled. -/
theorem Missed.exists_over {d : PosixDevice} {s : Storage} {calls : List Order} {k : Nat}
    {before : List Event} (hd : d.AtRest)
    (hrun : (startAlone d s calls).run? before = some t) (h : Missed q o k t)
    (ho : o.direction = .write) (hq : q.direction = .read) (hh : q.handle = o.handle) :
    ∃ schedule u, (startAlone d s calls).run? schedule = some u ∧ u.isOver = true ∧
      (u.ground.storage.memory.bytes q.buffer)[k]? = some 0 := by
  have hstep : ∀ schedule u e u', (startAlone d s calls).run? schedule = some u →
      Missed q o k u → ¬u.isOver = true → u.step? e = some u' → Missed q o k u' := by
    intro schedule u e u' hu h _ hstep
    have hb := (recorded_startAlone hd hu).balanced
    cases e with
    | caller i =>
      obtain ⟨c, c', g, hc, hmove, rfl⟩ := caller_of_step? hstep
      exact h.callerMove hb ho hc hmove
    | worker i =>
      obtain ⟨w, w', g, -, hmove, rfl⟩ := worker_of_step? hstep
      exact h.workerMove hb hq hh hmove
  obtain ⟨schedule, u, hu, h, hover⟩ := exists_run (Balanced.of_start hd s _)
    (regular_start hd s _) hstep (fun u _ hover _ => hover) hrun h
  exact ⟨schedule, u, hu, hover, h.byte⟩

end Traffic
end BlockTransfer
