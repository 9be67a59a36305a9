import BlockTransfer.Proofs.Traffic.Results
/-!
# Asynchronous calls come to what synchronous ones do

A caller hands calls to a posix device that is at rest, in asynchronous mode,
and waits. If the calls are independent, then in whatever order the workers move
the blocks of the jobs, the files and the buffers are in the end as the same
calls leave them in synchronous mode, and the answers tell the same.

Key definitions: `PosixDevice.Independent`, `PosixDevice.Agrees`.
Key theorem: `PosixDevice.async_refines_sync`.
-/

namespace BlockTransfer
namespace PosixDevice

open Traffic

/-- No two of the calls that open their files use the same file, unless both read
it, and a buffer that one of them reads into is used by no other. -/
def Independent (d : PosixDevice) (calls : List Order) (s : Storage) : Prop :=
  (accepted (d.openings calls s)).Pairwise Operation.Apart

instance (d : PosixDevice) (calls : List Order) (s : Storage) :
    Decidable (d.Independent calls s) :=
  inferInstanceAs (Decidable (List.Pairwise _ _))

/-- For every call, what opening its file comes to, and what the call answers in
synchronous mode. -/
def synchronous (d : PosixDevice) (calls : List Order) (s : Storage) :
    List (Except TransferError Operation × Except DeviceError Answer) :=
  (d.openings calls s).zip (d.serveAll (calls.map (·.request .sync)) s).1

/-- How a wait agrees with the synchronous runs of the calls that it waited for. -/
structure WaitAgrees (d : PosixDevice) (calls : List Order) (s : Storage)
    (answer : Except TransferError Nat) : Prop where
  /-- It counts the calls that were not refused, if all of them succeed. -/
  ok : ∀ n, answer = .ok n ↔ n = (accepted (d.openings calls s)).length ∧
    ∀ o a, (.ok o, a) ∈ d.synchronous calls s → a = .ok (.number o.buffer.len)
  /-- Otherwise it fails as one of them does. -/
  error : ∀ e, answer = .error e → ∃ o, (.ok o, .error (.transfer e)) ∈ d.synchronous calls s

/-- What a caller got, and what it finds, is what synchronous calls come to. -/
structure Agrees (d : PosixDevice) (calls : List Order) (s : Storage) (t : Traffic) : Prop where
  /-- Every file and every buffer holds the same bytes. -/
  storage : t.ground.storage = (d.serveAll (calls.map (·.request .sync)) s).2.2
  /-- A call is refused, or it answers with the length of its buffer; a wait is
  answered last. -/
  answers : ∃ answer, t.answers 0 = (d.openings calls s).map receipt ++ [answer] ∧
    d.WaitAgrees calls s answer
  /-- A call that is refused is refused with the same error in both modes. -/
  refused : ∀ e a, (.error e, a) ∈ d.synchronous calls s → a = .error (.transfer e)
  /-- The device is at rest again. -/
  atRest : AtRest { d with engine := t.ground.engine }

section

variable {d : PosixDevice} {calls : List Order} {s : Storage} {t : Traffic}
  {schedule : List Event}

theorem mem_synchronous (hb : 0 < d.settings.blockSize)
    (hm : ∀ c ∈ calls, s.memory.Holds c.buffer) {opening : Except TransferError Operation}
    {a : Except DeviceError Answer} :
    (opening, a) ∈ d.synchronous calls s ↔
      opening ∈ (Order.performAll d.settings.blockSize calls s).1 ∧ a = Order.answer s opening := by
  have hzip : d.synchronous calls s = (Order.performAll d.settings.blockSize calls s).1.map
      fun x => (x, Order.answer s x) := by
    rw [synchronous, openings_eq hb calls hm, serveAll_sync hb calls hm (.refl s)]
    have := List.zip_map' (f := id) (g := Order.answer s)
      (l := (Order.performAll d.settings.blockSize calls s).1)
    rwa [List.map_id] at this
  rw [hzip, List.mem_map]
  constructor
  · rintro ⟨x, hx, heq⟩
    cases heq
    exact ⟨hx, rfl⟩
  · rintro ⟨hx, rfl⟩
    exact ⟨opening, hx, rfl⟩

theorem mem_accepted {openings : List (Except TransferError Operation)} {o : Operation} :
    o ∈ accepted openings ↔ .ok o ∈ openings := by
  rw [accepted, List.mem_filterMap]
  constructor
  · rintro ⟨x, hx, heq⟩
    cases x with
    | error e => cases heq
    | ok p =>
      cases heq
      exact hx
  · exact fun h => ⟨_, h, rfl⟩

theorem waitAgrees_of_waited (hb : 0 < d.settings.blockSize)
    (hm : ∀ c ∈ calls, s.memory.Holds c.buffer) {answer : Except TransferError Nat}
    (h : Waited s (accepted (Order.performAll d.settings.blockSize calls s).1) answer) :
    d.WaitAgrees calls s answer := by
  have hopenings := openings_eq hb calls hm
  constructor
  · intro n
    rw [hopenings]
    constructor
    · rintro rfl
      refine ⟨h.1, fun o a ha => ?_⟩
      obtain ⟨ho, rfl⟩ := (mem_synchronous hb hm).mp ha
      simp only [Order.answer, h.2 o (mem_accepted.mpr ho)]
    · rintro ⟨rfl, hall⟩
      cases answer with
      | ok n => rw [h.1]
      | error e =>
        obtain ⟨o, ho, hv⟩ := h
        have := hall o _ ((mem_synchronous hb hm).mpr ⟨mem_accepted.mp ho, rfl⟩)
        simp only [Order.answer, hv] at this
        cases this
  · rintro e rfl
    obtain ⟨o, ho, hv⟩ := h
    refine ⟨o, (mem_synchronous hb hm).mpr ⟨mem_accepted.mp ho, ?_⟩⟩
    simp only [Order.answer, hv]

/-- A wait that is answered finds what the synchronous calls leave. -/
theorem agrees_of_settled (hd : d.AtRest) (hlt : d.settings.blockSize < Word.count)
    (hm : ∀ c ∈ calls, s.memory.Holds c.buffer)
    (hapart : (accepted (Order.performAll d.settings.blockSize calls s).1).Pairwise Operation.Apart)
    (hrun : (startAlone d s calls).run? schedule = some t)
    (h : Settled (startAlone d s calls) calls t) : d.Agrees calls s t := by
  have hb := hd.blockSize_pos
  obtain ⟨answer, hanswers, hwaited⟩ := waited_of_settled hd hlt hm hapart hrun h
  refine
    { storage := ?_
      answers := ⟨answer, ?_, waitAgrees_of_waited hb hm hwaited⟩
      refused := fun e a ha => ((mem_synchronous hb hm).mp ha).2
      atRest := h.atRest hd (recorded_startAlone hd hrun).balanced (sameSettings_of_run? hrun) }
  · rw [serveAll_sync hb calls hm (.refl s)]
    exact h.storage
  · rw [openings_eq hb calls hm]
    exact hanswers

end

/-- Independent calls in asynchronous mode, handed to a device at rest by one
caller that then waits: schedules are bounded and get stuck nowhere, and each of
them that is carried to the end comes to what the calls come to in synchronous
mode. Block sizes are words. -/
theorem async_refines_sync {d : PosixDevice} (hd : d.AtRest)
    (hlt : d.settings.blockSize < Word.count) {calls : List Order} {s : Storage}
    (hm : ∀ c ∈ calls, s.memory.Holds c.buffer) (hindependent : d.Independent calls s) :
    (∃ bound, ∀ schedule t, (startAlone d s calls).run? schedule = some t →
      schedule.length ≤ bound) ∧
    ∀ schedule t, (startAlone d s calls).run? schedule = some t →
      ((∀ e, t.step? e = none) → t.isOver = true) ∧ (t.isOver = true → d.Agrees calls s t) := by
  have hapart : (accepted (Order.performAll d.settings.blockSize calls s).1).Pairwise
      Operation.Apart := by
    rw [← openings_eq hd.blockSize_pos calls hm]
    exact hindependent
  refine ⟨exists_bound hd, fun schedule t hrun => ⟨isOver_of_stuck hd hrun, fun hover => ?_⟩⟩
  rcases alone_or_settled_of_run? hd hlt hm (clear_of_apart hapart _) hrun with
    ⟨c, past, rest, h⟩ | h
  · exact absurd hover h.not_isOver
  · exact agrees_of_settled hd hlt hm hapart hrun h

/-- A write, a read of another file and a read of a file that is missing: while
one worker carries out jobs of both operations, the caller is refused its last
call. -/
theorem async_refines_sync_three_calls : ∃ d calls s schedule t, AtRest d ∧
    d.settings.blockSize < Word.count ∧ (∀ c ∈ calls, s.memory.Holds c.buffer) ∧
    d.Independent calls s ∧ (startAlone d s calls).run? schedule = some t ∧ t.isOver = true ∧
    t.ground.storage.memory.regions = [[1, 2], [7, 8]] ∧ d.Agrees calls s t := by
  let settings : DeviceSettings := { blockSize := 1, queueDepth := 1, threadCount := 2 }
  let calls : List Order :=
    [⟨.write, ⟨0, .u8, 2, none⟩, "p", true⟩, ⟨.read, ⟨1, .u8, 2, none⟩, "q", true⟩,
      ⟨.read, ⟨1, .u8, 2, none⟩, "r", false⟩]
  let s : Storage := ⟨{ entries := [(["q"], .file [7, 8, 9])] }, { regions := [[1, 2], [0, 0]] }⟩
  let d : PosixDevice := ⟨settings, .idle settings, ⟨0, 1, []⟩⟩
  have hcreate : create {} settings 0 = .ok d := rfl
  have hd : AtRest d := (atRest_create hcreate).1
  have hend : ((startAlone d s calls).run?
      (List.replicate 14 (.caller 0) ++ List.replicate 4 (.worker 1) ++ [.worker 0] ++
        List.replicate 5 (.caller 0) ++ List.replicate 4 (.worker 1) ++
        List.replicate 11 (.worker 0) ++ [.caller 0])).map
      (fun t => (t.isOver, t.ground.storage.memory.regions)) =
      some (true, [[1, 2], [7, 8]]) := by decide
  obtain ⟨t, ht, he⟩ := Option.map_eq_some_iff.mp hend
  have hm : ∀ c ∈ calls, s.memory.Holds c.buffer := by decide
  have hindependent : d.Independent calls s := by decide
  have hover : t.isOver = true := congrArg Prod.fst he
  exact ⟨d, calls, s, _, t, hd, by decide, hm, hindependent, ht, hover, congrArg Prod.snd he,
    ((async_refines_sync hd (by decide) hm hindependent).2 _ t ht).2 hover⟩

end PosixDevice
end BlockTransfer
