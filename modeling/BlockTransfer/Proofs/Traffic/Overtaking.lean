import BlockTransfer.Proofs.Traffic.Lingering
/-!
# A write that is opened before an earlier operation has ended

Whether a device overlaps operations or not, a caller opens the file of its next
order as soon as the jobs of the present one are dealt. So there is a schedule
after which the next order, a write, has emptied its file and given it its
length, while the last job of the operation before it still lies in an inbox
(`Traffic.exists_overtaken`).

Key definitions: `Traffic.Overtaken`.
Key theorem: `Traffic.exists_overtaken`.
-/

namespace BlockTransfer
namespace Traffic

open Operation

/-- The last job of an operation lies in an inbox, and a write that comes after it
has its file, which is full of zeros. -/
structure Overtaken (q o : Operation) (n : Nat) (r : ByteRange) (good : Memory → Prop)
    (t : Traffic) : Prop where
  caller : ∃ as, t.callers = [⟨[.wait], .opened o, as⟩]
  job : ⟨n, r⟩ ∈ t.waiting
  free : ⟨n, r⟩ ∉ t.workers.flatMap Worker.held
  started : ∃ ranges, .started n q ranges ∈ t.ground.journal
  only : ∀ p ∈ t.ground.engine.operations, p = q
  holds : t.ground.storage.memory.Holds q.buffer
  emptied : t.ground.storage.files.Keeps o.handle.at_ (Bytes.zeros o.buffer.len)
  good : good t.ground.storage.memory

variable {d : PosixDevice} {s : Storage} {order order' : Order} {q o : Operation}
  {r : ByteRange} {rs : List ByteRange} {good : Memory → Prop} {schedule : List Event}
  {t : Traffic} {c : Caller} {n : Nat}

/-- What opening the files of the orders to come would come to at once is what it
comes to after all that is under way. -/
theorem Alone.openings {first : Traffic} {calls rest : List Order} {es : List Errand}
    {as : List (Except TransferError Nat)} {past ahead : List (Except TransferError Operation)}
    (h : Alone first calls t ⟨es, .free, as⟩ past rest) (hb : 0 < first.blockSize)
    (hcalls : (Order.performAll first.blockSize calls first.ground.storage).1 = past ++ ahead) :
    (Order.performAll first.blockSize rest t.ground.storage).1 = ahead := by
  have hlayout := h.prospect.sameLayout_free
  have hgoal := h.outlook
  rw [outlook_of_pending_none rfl, List.append_nil] at hgoal
  rw [hgoal] at hcalls
  rw [Order.performAll_congr hb h.holds hlayout.symm]
  exact List.append_cancel_left hcalls

/-- A file that was opened for writing is full of zeros. -/
theorem keeps_of_fit {blockSize : Nat} {s₀ s₁ : Storage} (hb : 0 < blockSize)
    (hm : s.memory.Holds order'.buffer) (hl : locate order' blockSize s = .ok (o, s₀))
    (hf : o.fit s₀ = .ok s₁) (hd : o.direction = .write) :
    s₁.files.Keeps o.handle.at_ (Bytes.zeros o.buffer.len) := by
  have hs := locate_spec hb hm hl
  obtain ⟨data, hk⟩ := hs.located.file hd
  have hempty : s₀.files.content o.handle = [] := by
    rw [hs.write hd, Storage.files_putFile,
      FileSystem.content_eq (FileSystem.entryAt?_insert_self _ hk.ne_nil)]
  have hzeros : Bytes.resize [] o.buffer.len = Bytes.zeros o.buffer.len := by simp [Bytes.resize]
  rw [fit_write hd, hempty, hzeros] at hf
  cases hf
  exact FileSystem.keeps_insert _ hk.ne_nil

/-- A caller that is refused all orders before its last one, a write, opens the
file of that. -/
theorem Alone.exists_opened {calls rest : List Order} {before : List Event} {es : List Errand}
    {as : List (Except TransferError Nat)} {past errors : List (Except TransferError Operation)}
    (hrun : (startAlone d s calls).run? before = some t)
    (h : Alone (startAlone d s calls) calls t ⟨es, .free, as⟩ past rest)
    (hb : 0 < d.settings.blockSize)
    (hopenings : (Order.performAll d.settings.blockSize rest t.ground.storage).1 =
      errors ++ [.ok o])
    (herrors : ∀ x ∈ errors, ∃ e, x = .error e) (hwrite : o.direction = .write) :
    ∃ schedule answers x, (startAlone d s calls).run? schedule =
        some (t.moveCaller 0 ⟨[.wait], .opened o, answers⟩ (t.ground.store x)) ∧
      x.memory = t.ground.storage.memory ∧
      x.files.Keeps o.handle.at_ (Bytes.zeros o.buffer.len) := by
  obtain ⟨refused, order', x, hrest, hall, hx, -⟩ :=
    Order.exists_last_of_performAll hopenings herrors
  obtain ⟨x₀, hl, hf⟩ := openFile_eq_ok hx
  have hm := hrest ▸ h.holds
  have hm' := hm order' (List.mem_append_right _ (List.mem_singleton_self _))
  have hcallers := h.callers
  have herr := h.errands
  have hsize : t.blockSize = d.settings.blockSize := blockSize_of_run? hrun
  subst hrest
  cases herr
  obtain ⟨schedule, answers, hw⟩ := Traffic.exists_opened hrun hcallers (hsize ▸ hall)
    (hsize ▸ hx)
  exact ⟨schedule, answers, x, hw, (openFile_spec hb hm' hx).memory,
    keeps_of_fit hb hm' hl hf hwrite⟩

/-- The last job of an operation lies in an inbox when the file of the next order
that is not refused, a write, is opened. -/
theorem exists_overtaken {rest : List Order} {errors : List (Except TransferError Operation)}
    (hd : d.AtRest) (hlt : d.settings.blockSize < Word.count)
    (hm : ∀ c ∈ order :: rest, s.memory.Holds c.buffer)
    (hopenings : (Order.performAll d.settings.blockSize (order :: rest) s).1 =
      .ok q :: (errors ++ [.ok o]))
    (herrors : ∀ x ∈ errors, ∃ e, x = .error e)
    (hwrite : o.direction = .write) (hplan : d.engine.plan q = rs ++ [r])
    (htiles : ByteRange.Tiles 0 q.buffer.len (rs ++ [r]))
    (hgood : ∀ s block, block.stop ≤ r.start → good s.memory → good (q.carry block s).memory)
    (hgood₁ : good s.memory) :
    ∃ schedule t, (startAlone d s (order :: rest)).run? schedule = some t ∧
      Overtaken q o d.engine.nextFlight r good t := by
  have hb := hd.blockSize_pos
  obtain ⟨s₁, hopen⟩ := Order.openFile_of_perform (List.cons.inj hopenings).1
  have hmemory := (openFile_spec hb (hm order List.mem_cons_self) hopen).memory
  obtain ⟨schedule, u, c, hu, h, hstage, hin⟩ :=
    exists_lingering hd hlt hm hopen hplan htiles hgood (hmemory.symm ▸ hgood₁)
  have hrec := recorded_startAlone hd hu
  have hfree := h.not_held hrec hplan htiles hin
  obtain ⟨f, hflight, -⟩ := hrec.balanced.flight_of_waiting (mem_waiting_of_inbox hin)
  have hq := Engine.operation?_of_flight? hflight
  obtain ⟨-, hfq⟩ := h.only _ _ hq
  rw [hfq] at hq
  obtain ⟨ranges, hstarted⟩ := hrec.balanced.operation _ f hflight
  -- the caller answers and goes on
  obtain ⟨es, stage, as⟩ := c
  cases hstage
  have hcallers := h.alone.callers
  have herr := h.alone.errands
  cases herr
  have hdealt := h.alone.dealt
  have hstep : u.step? (.caller 0) = some (u.moveCaller 0
      ⟨_, .free, as ++ [.ok q.buffer.len]⟩ u.ground) := step?_caller hcallers rfl
  have hv := run?_concat hu hstep
  obtain ⟨schedule', answers, x, hw, hmemory, hkeeps⟩ := hdealt.exists_opened hv hb
    (hdealt.openings hb hopenings) herrors hwrite
  have hmemory : x.memory = u.ground.storage.memory := hmemory
  rw [moveCaller_moveCaller] at hw
  refine ⟨schedule', _, hw,
    { caller := ⟨answers, h.alone.callers_moveCaller _ _⟩
      job := ?_
      free := hfree
      started := ⟨ranges, hfq ▸ hstarted⟩
      only := fun p hp => ?_
      holds := ?_
      emptied := hkeeps
      good := ?_ }⟩
  · exact mem_waiting_of_inbox hin
  · obtain ⟨m, hm⟩ := Engine.exists_operation? hrec.balanced.nodup_numbers hp
    exact (h.only m p hm).2
  · show x.memory.Holds q.buffer
    rw [hmemory]
    exact (h.alone.prospect.sound.located q (Engine.mem_operations hq)).holds
  · show good x.memory
    rw [hmemory]
    exact h.good

end Traffic
end BlockTransfer
