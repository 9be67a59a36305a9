import BlockTransfer.Proofs.Traffic.Overrun
/-!
# Devices that do not overlap operations

A device that overlaps no operations starts one only when none is under way. But
a caller opens the file of its next order before it waits for that, so the file
of a write is emptied while an earlier operation may have jobs left. Calls come
to what they come to in synchronous mode, wherever the caller waits in between
and whatever bytes the files and buffers hold, exactly if each operation yields
to the next one (`PosixDevice.serialThroughout_iff`).

Key definitions: `PosixDevice.Serial`, `PosixDevice.SerialThroughout`.
Key theorem: `PosixDevice.serialThroughout_iff`.
-/

namespace BlockTransfer

/-! ### One operation at a time -/

namespace Traffic

/-- The caller is the only one, and it starts no operation while one is under way. -/
structure Single (t : Traffic) : Prop where
  caller : ∃ c, t.callers = [c] ∧
    ∀ o, c.stage = .admitted o → t.ground.engine.completion.inFlight = 0
  overlap : t.ground.engine.overlapEvents = false
  inFlight : t.ground.engine.completion.inFlight ≤ 1

namespace Single

variable {t : Traffic} {i : Nat}

theorem callerMove {c c' : Caller} {g : Ground} (h : Single t) (hc : t.callers[i]? = some c)
    (hmove : c.Move t.blockSize t.ground c' g) : Single (t.moveCaller i c' g) := by
  obtain ⟨c₀, hcallers, hadmitted⟩ := h.caller
  have hoverlap := hmove.sameSettings.overlapEvents.trans h.overlap
  obtain ⟨rfl, rfl⟩ := eq_of_single_caller hcallers hc
  have hcallers' := callers_moveCaller_single hcallers c' g
  -- no other move than admission leads to where an operation starts
  have hkeep : (∀ o, c'.stage ≠ .admitted o) → g.engine.completion.inFlight ≤ 1 →
      Single (t.moveCaller 0 c' g) := fun hstage hle =>
    ⟨⟨c', hcallers', fun o ho => absurd ho (hstage o)⟩, hoverlap, hle⟩
  cases hmove with
  | admitted hopen =>
    have hidle : t.ground.engine.completion.isIdle = true := by
      rcases hopen with hopen | hidle
      · rw [h.overlap] at hopen
        cases hopen
      · exact hidle
    exact ⟨⟨_, hcallers', fun _ _ => eq_of_beq hidle⟩, hoverlap,
      h.inFlight⟩
  | @launched o es as =>
    refine hkeep (fun o' ho' => ?_) ?_
    · have hnone : (Stage.launched t.ground.engine.nextFlight o.buffer.len
          (t.ground.engine.plan o)).pending = none := Stage.pending_launched _ _ _
      rw [show Stage.launched _ _ _ = Stage.admitted o' from ho'] at hnone
      cases hnone
    · show t.ground.engine.completion.inFlight + 1 ≤ 1
      rw [hadmitted o rfl]
  | placed hput => exact hkeep (fun _ => Stage.noConfusion) ((put?_same hput).2.2 ▸ h.inFlight)
  | reported =>
    exact hkeep (fun _ => Stage.noConfusion) (Nat.le_trans (Nat.sub_le _ 1) h.inFlight)
  | _ => exact hkeep (fun _ => Stage.noConfusion) h.inFlight

theorem workerMove {w w' : Worker} {g : Ground} (h : Single t) (hmove : w.Move i t.ground w' g) :
    Single (t.moveWorker i w' g) := by
  obtain ⟨c, hcallers, hadmitted⟩ := h.caller
  have hoverlap := hmove.sameSettings.overlapEvents.trans h.overlap
  have hkeep : g.engine.completion.inFlight ≤ t.ground.engine.completion.inFlight →
      Single (t.moveWorker i w' g) := fun hle =>
    ⟨⟨c, hcallers, fun o ho => Nat.le_zero.mp (hadmitted o ho ▸ hle)⟩, hoverlap,
      Nat.le_trans hle h.inFlight⟩
  cases hmove with
  | taken htake => exact hkeep (Nat.le_of_eq (congrArg Completion.inFlight (take?_same htake).2.2))
  | @failed j e =>
    have hsame := (Engine.noteResult_same t.ground.engine j.flight (.error e)).2.2.1
    exact hkeep (Nat.le_of_eq (congrArg Completion.inFlight hsame))
  | @retired n =>
    have hsame := (Engine.retire_same t.ground.engine n).2
    exact hkeep (Nat.le_of_eq (congrArg Completion.inFlight hsame))
  | reported => exact hkeep (Nat.sub_le _ 1)
  | _ => exact hkeep (Nat.le_refl _)

end Single

theorem single_of_run? {d : PosixDevice} {s : Storage} {calls : List Order} {t : Traffic}
    {schedule : List Event} (hd : d.AtRest) (hoverlap : d.settings.overlapEvents = false)
    (hrun : (startAlone d s calls).run? schedule = some t) : Single t := by
  refine run_induction (P := fun _ u => Single u) ?_ ?_ hrun
  · refine ⟨⟨_, rfl, fun o ho => by cases ho⟩, hd.overlapEvents.trans hoverlap, ?_⟩
    show d.engine.completion.inFlight ≤ 1
    rw [hd.completion]
    exact Nat.zero_le 1
  · intro before u e u' _ hu hstep
    cases e with
    | caller i =>
      obtain ⟨c, c', g, hc, hmove, rfl⟩ := caller_of_step? hstep
      exact hu.callerMove hc hmove
    | worker i =>
      obtain ⟨w, w', g, -, hmove, rfl⟩ := worker_of_step? hstep
      exact hu.workerMove hmove

/-! ### Operations next to one another -/

/-- Between two accepted operations that follow one another all orders are refused. -/
theorem exists_of_accepted {openings : List (Except TransferError Operation)} {q o : Operation}
    {ops ops' : List Operation} (h : accepted openings = ops ++ q :: o :: ops') :
    ∃ before errors after, openings = before ++ .ok q :: (errors ++ [.ok o]) ++ after ∧
      ∀ x ∈ errors, ∃ e, x = .error e := by
  have hok : ∀ {x : Except TransferError Operation} {p}, x.toOption = some p → x = .ok p := by
    rintro (e | p') p hp <;> cases hp
    rfl
  obtain ⟨xs, ys, rfl, -, hys⟩ := List.filterMap_eq_append_iff.mp h
  obtain ⟨zs, x, ys, rfl, -, hx, hys⟩ := List.filterMap_eq_cons_iff.mp hys
  obtain ⟨errors, y, after, rfl, herrors, hy, -⟩ := List.filterMap_eq_cons_iff.mp hys
  refine ⟨xs ++ zs, errors, after, ?_, fun e he => ?_⟩
  · rw [hok hx, hok hy]
    simp
  · cases e with
    | error e => exact ⟨e, rfl⟩
    | ok p => cases herrors _ he

end Traffic

namespace PosixDevice

open Traffic Operation

/-- After every schedule that is carried to the end, the files and the buffers
are as the calls leave them in synchronous mode. -/
def Serial (d : PosixDevice) (calls : List Order) (s : Storage) : Prop :=
  ∀ schedule t, (startAlone d s calls).run? schedule = some t → t.isOver = true →
    t.ground.storage = (d.serveAll (calls.map (·.request .sync)) s).2.2

/-- The caller can wait before and after any stretch of the calls, and whatever
bytes the files and the buffers hold when the stretch begins, it is served as in
synchronous mode. -/
def SerialThroughout (d : PosixDevice) (calls : List Order) (s : Storage) : Prop :=
  ∀ before part after, calls = before ++ part ++ after →
    ∀ s' : Storage, s'.SameLayout (d.serveAll (before.map (·.request .sync)) s).2.2 →
      d.Serial part s'

variable {d : PosixDevice} {calls rest : List Order} {s : Storage} {order : Order}
  {q o : Operation} {errors : List (Except TransferError Operation)}

theorem serial_of_isChain (hd : d.AtRest) (hlt : d.settings.blockSize < Word.count)
    (hoverlap : d.settings.overlapEvents = false) (hm : ∀ c ∈ calls, s.memory.Holds c.buffer)
    (hchain : (accepted (Order.performAll d.settings.blockSize calls s).1).IsChain
      Operation.Yields) : d.Serial calls s := by
  intro schedule t hrun hover
  have hclear : Clear d.settings.overlapEvents
      (accepted (Order.performAll d.settings.blockSize calls s).1) :=
    ⟨hchain, fun ho => by rw [hoverlap] at ho; cases ho⟩
  rw [serveAll_sync hd.blockSize_pos calls hm (.refl s)]
  rcases alone_or_settled_of_run? hd hlt hm hclear hrun with ⟨c, past, rest, h⟩ | h
  · exact absurd hover h.not_isOver
  · exact h.storage

/-- An operation with bytes has a last job. -/
theorem exists_last_job (hd : d.AtRest) (hlt : d.settings.blockSize < Word.count)
    (hm : s.memory.Holds order.buffer) {s₁ : Storage}
    (hopen : openFile order d.settings.blockSize s = .ok (q, s₁)) (hlen : 0 < q.buffer.len) :
    ∃ rs r, d.engine.plan q = rs ++ [r] ∧ ByteRange.Tiles 0 q.buffer.len (rs ++ [r]) := by
  have hready := (openFile_spec hd.blockSize_pos hm hopen).ready
  obtain ⟨s₀, hl, -⟩ := openFile_eq_ok hopen
  have hs : Setting (startAlone d s []) := setting_startAlone hd hlt
  have htiles : ByteRange.Tiles 0 q.buffer.len (d.engine.plan q) :=
    tiles_plan hs hready.toLocated (locate_spec hd.blockSize_pos hm hl).blockSize
  rcases List.eq_nil_or_concat (d.engine.plan q) with hnil | ⟨rs, r, hplan⟩
  · rw [hnil] at htiles
    exact absurd htiles (Nat.ne_of_lt hlen)
  · rw [hplan, List.concat_eq_append] at htiles
    exact ⟨rs, r, by rw [hplan, List.concat_eq_append], htiles⟩

/-! ### A write that comes too early -/

section Early

variable (hd : d.AtRest) (hlt : d.settings.blockSize < Word.count)
  (hm : ∀ c ∈ order :: rest, s.memory.Holds c.buffer)
  (hopenings : (Order.performAll d.settings.blockSize (order :: rest) s).1 =
    .ok q :: (errors ++ [.ok o]))
  (herrors : ∀ x ∈ errors, ∃ e, x = .error e) (ho : o.direction = .write)

include hd hm hopenings herrors

/-- What the two operations leave in synchronous mode. -/
theorem exists_carried : ∃ s₁ s₂, openFile order d.settings.blockSize s = .ok (q, s₁) ∧
    s₂.memory = (q.carry q.whole s₁).memory ∧ s₂.SameDirectories s ∧ o.Ready s₂ ∧
    (d.serveAll ((order :: rest).map (·.request .sync)) s).2.2 = o.carry o.whole s₂ := by
  have hb := hd.blockSize_pos
  have hhead := hm order List.mem_cons_self
  obtain ⟨hq, hrest⟩ := List.cons.inj hopenings
  obtain ⟨s₁, hopen⟩ := Order.openFile_of_perform hq
  have hperform : (order.perform d.settings.blockSize s).2 = q.carry q.whole s₁ := by
    rw [Order.perform, hopen]
    rfl
  obtain ⟨refused, order', s₂, hlist, -, hopen', hfinal⟩ :=
    Order.exists_last_of_performAll hrest herrors
  have hmem : order' ∈ order :: rest := by
    rw [hlist]
    exact List.mem_cons_of_mem _ (List.mem_append_right _ (List.mem_singleton_self _))
  have hs := openFile_spec hb ((Order.perform_holds hb hhead _).mpr (hm order' hmem)) hopen'
  refine ⟨s₁, s₂, hopen, hperform ▸ hs.memory,
    hs.directories.trans (Order.perform_sameDirectories hb hhead), hs.ready, ?_⟩
  rw [serveAll_sync hb _ hm (.refl s)]
  exact hfinal

include hlt ho

/-- A job of a longer write makes the file too long again. -/
theorem not_serial_of_longer (hq : q.direction = .write) (hh : q.handle = o.handle)
    (hlonger : o.buffer.len < q.buffer.len) : ¬d.Serial (order :: rest) s := by
  intro hserial
  obtain ⟨s₁, s₂, hopen, -, -, hready, hfinal⟩ := exists_carried hd hm hopenings herrors
  have hhead := hm order List.mem_cons_self
  have hsize := (openFile_spec hd.blockSize_pos hhead hopen).ready.blockSize
  obtain ⟨rs, r, hplan, htiles⟩ := exists_last_job hd hlt hhead hopen (by omega)
  obtain ⟨-, hr, hstop⟩ := htiles.of_concat
  obtain ⟨before, t, ht, hovertaken⟩ : ∃ before t,
      (startAlone d s (order :: rest)).run? before = some t ∧
        Overtaken q o d.engine.nextFlight r (fun _ => True) t :=
    exists_overtaken hd hlt hm hopenings herrors ho hplan htiles (fun _ _ _ _ => trivial) trivial
  obtain ⟨schedule, u, hu, hover, hlen⟩ :=
    (hovertaken.overrun hq hh).exists_over hd ht ho hsize hr hstop
  rw [hserial schedule u hu hover, hfinal] at hlen
  have hcarried : ((o.carry o.whole s₂).files.content o.handle).length = o.buffer.len :=
    (hready.carry hready (Nat.le_refl _)).target ho
  omega

/-- A read finds a zero where the file had another byte. -/
theorem not_serial_of_byte (hoverlap : d.settings.overlapEvents = false)
    (hq : q.direction = .read) (hh : q.handle = o.handle) (hlen : 0 < q.buffer.len)
    (hzero : (s.memory.bytes q.buffer)[q.buffer.len - 1]? = some 0)
    (hother : ((q.carry q.whole s).memory.bytes q.buffer)[q.buffer.len - 1]? ≠ some 0) :
    ¬d.Serial (order :: rest) s := by
  intro hserial
  obtain ⟨s₁, s₂, hopen, hmemory, -, -, hfinal⟩ := exists_carried hd hm hopenings herrors
  have hhead := hm order List.mem_cons_self
  obtain rfl := eq_of_openFile_read hopen hq
  obtain ⟨rs, r, hplan, htiles⟩ := exists_last_job hd hlt hhead hopen hlen
  obtain ⟨-, hr, hstop⟩ := htiles.of_concat
  obtain ⟨before, t, ht, hovertaken⟩ : ∃ before t,
      (startAlone d s₁ (order :: rest)).run? before = some t ∧
        Overtaken q o d.engine.nextFlight r
          (fun m => (m.bytes q.buffer)[q.buffer.len - 1]? = some 0) t :=
    exists_overtaken hd hlt hm hopenings herrors ho hplan htiles
      (fun s block hle hgood => getElem?_bytes_carry_of_le hq (by omega) hgood) hzero
  obtain ⟨schedule, u, hu, hover, hbyte⟩ :=
    (hovertaken.missed (single_of_run? hd hoverlap ht).overlap).exists_over hd ht ho hq hh
  rw [hserial schedule u hu hover, hfinal, memory_carry_write ho, hmemory] at hbyte
  exact hother hbyte

/-- A file full of ones and a buffer full of zeros show what a read has missed. -/
theorem not_serial_of_read (hoverlap : d.settings.overlapEvents = false)
    (hq : q.direction = .read) (hh : q.handle = o.handle) (hlen : 0 < q.buffer.len) :
    ∃ s' : Storage, s'.SameLayout s ∧ ¬d.Serial (order :: rest) s' := by
  have hb := hd.blockSize_pos
  obtain ⟨s₁, s₂, hopen, -, hdirectories, hready₂, -⟩ := exists_carried hd hm hopenings herrors
  have hhead := hm order List.mem_cons_self
  obtain rfl := eq_of_openFile_read hopen hq
  have hready := (openFile_spec hb hhead hopen).ready
  obtain ⟨old, hk⟩ := hready₂.file ho
  have hdirectory : s₁.files.entryAt? q.handle.at_ ≠ some .directory := by
    intro he
    rw [hh] at he
    have he := (hdirectories _).mpr he
    rw [hk.entry] at he
    cases he
  have hcontent := hready.le_length hdirectory
  obtain ⟨data, hdata⟩ := FileSystem.exists_file_of_content (Nat.lt_of_lt_of_le hlen hcontent)
  rw [FileSystem.content_eq hdata] at hcontent
  -- the same layout with other bytes
  let ones : Bytes := List.replicate data.length 1
  let s₃ := s₁.putFile q.handle.at_ ones
  have hsame₃ : s₃.SameLayout s₁ := Storage.putFile_sameLayout hdata List.length_replicate
  let s' := s₃.putBytes q.buffer (Bytes.zeros q.buffer.len)
  have hsame : s'.SameLayout s₁ := by
    refine (Storage.putBytes_sameLayout ?_).trans hsame₃
    rw [Bytes.length_zeros]
    exact hready.holds.length.symm
  have hm' : ∀ c ∈ order :: rest, s'.memory.Holds c.buffer := fun c hc =>
    (hsame.holds _).mpr (hm c hc)
  have hopenings' : (Order.performAll d.settings.blockSize (order :: rest) s').1 =
      .ok q :: (errors ++ [.ok o]) := (Order.performAll_congr hb hm' hsame).trans hopenings
  have hregion : q.buffer.region < s'.memory.regions.length :=
    ((hsame.holds _).mpr hready.holds).region
  have hzeros : s'.memory.bytes q.buffer = Bytes.zeros q.buffer.len :=
    Memory.bytes_store _ _ _ hready.holds.region
  have hfile : s'.files.entryAt? q.handle.at_ = some (.file ones) :=
    FileSystem.entryAt?_insert_self _ (hh ▸ hk.ne_nil)
  refine ⟨s', hsame, not_serial_of_byte hd hlt hm' hopenings' herrors ho hoverlap hq hh hlen ?_ ?_⟩
  · rw [hzeros, Bytes.getElem?_zeros, if_pos (by omega)]
  · have hone : (ones.take q.buffer.len)[q.buffer.len - 1]? = some 1 := by
      rw [List.getElem?_take_of_lt (by omega), List.getElem?_replicate, if_pos (by omega)]
    rw [carry_read hq (by simp [hfile]), Storage.memory_putBytes, Memory.bytes_store _ _ _ hregion,
      FileSystem.content_eq hfile, hzeros, whole,
      Bytes.copyRange_whole (by simpa [ones] using hcontent) (by simp), hone]
    decide

end Early

/-! ### When it is serial -/

theorem not_serial_of_not_yields (hd : d.AtRest) (hlt : d.settings.blockSize < Word.count)
    (hoverlap : d.settings.overlapEvents = false)
    (hm : ∀ c ∈ order :: rest, s.memory.Holds c.buffer)
    (hopenings : (Order.performAll d.settings.blockSize (order :: rest) s).1 =
      .ok q :: (errors ++ [.ok o]))
    (herrors : ∀ x ∈ errors, ∃ e, x = .error e) (hyields : ¬q.Yields o) :
    ∃ s' : Storage, s'.SameLayout s ∧ ¬d.Serial (order :: rest) s' := by
  simp only [Operation.Yields, Classical.not_imp] at hyields
  obtain ⟨ho, hh, hlen, hlonger⟩ := hyields
  cases hq : q.direction with
  | write =>
    have hlt' : o.buffer.len < q.buffer.len := by
      by_contra hle
      exact hlonger ⟨hq, Nat.not_lt.mp hle⟩
    exact ⟨s, .refl s, not_serial_of_longer hd hlt hm hopenings herrors ho hq hh hlt'⟩
  | read => exact not_serial_of_read hd hlt hm hopenings herrors ho hoverlap hq hh hlen

theorem yields_of_serialThroughout (hd : d.AtRest) (hlt : d.settings.blockSize < Word.count)
    (hoverlap : d.settings.overlapEvents = false) (hm : ∀ c ∈ calls, s.memory.Holds c.buffer)
    (hserial : d.SerialThroughout calls s) :
    (accepted (Order.performAll d.settings.blockSize calls s).1).IsChain Operation.Yields := by
  have hb := hd.blockSize_pos
  refine List.isChain_iff_forall_rel_of_append_cons_cons.mpr fun q o ops ops' hops => ?_
  by_contra hyields
  obtain ⟨ys, errors, zs, hall, herrors⟩ := exists_of_accepted hops
  obtain ⟨cs, after, rfl, hcs, -⟩ := Order.exists_append_of_performAll hall
  obtain ⟨before, part, rfl, -, hpart⟩ := Order.exists_append_of_performAll hcs
  cases part with
  | nil => cases hpart
  | cons order rest =>
    have hbefore : ∀ c ∈ before, s.memory.Holds c.buffer := fun c hc =>
      hm c (List.mem_append_left _ (List.mem_append_left _ hc))
    have hm' : ∀ c ∈ order :: rest,
        (Order.performAll d.settings.blockSize before s).2.memory.Holds c.buffer := fun c hc =>
      (Order.performAll_holds hb hbefore _).mpr
        (hm c (List.mem_append_left _ (List.mem_append_right _ hc)))
    obtain ⟨s', hsame, hnot⟩ :=
      not_serial_of_not_yields hd hlt hoverlap hm' hpart herrors hyields
    refine hnot (hserial before (order :: rest) after rfl s' ?_)
    rw [serveAll_sync hb before hbefore (.refl s)]
    exact hsame

theorem serialThroughout_of_isChain (hd : d.AtRest) (hlt : d.settings.blockSize < Word.count)
    (hoverlap : d.settings.overlapEvents = false) (hm : ∀ c ∈ calls, s.memory.Holds c.buffer)
    (hchain : (accepted (Order.performAll d.settings.blockSize calls s).1).IsChain
      Operation.Yields) : d.SerialThroughout calls s := by
  have hb := hd.blockSize_pos
  rintro before part after rfl s' hsame
  have hbefore : ∀ c ∈ before, s.memory.Holds c.buffer := fun c hc =>
    hm c (List.mem_append_left _ (List.mem_append_left _ hc))
  rw [serveAll_sync hb before hbefore (.refl s)] at hsame
  have hm' : ∀ c ∈ part, s'.memory.Holds c.buffer := fun c hc =>
    (hsame.holds _).mpr ((Order.performAll_holds hb hbefore _).mpr
      (hm c (List.mem_append_left _ (List.mem_append_right _ hc))))
  refine serial_of_isChain hd hlt hoverlap hm' ?_
  rw [Order.performAll_congr hb hm' hsame]
  simp only [Order.performAll_append, accepted_append] at hchain
  exact hchain.left_of_append.right_of_append

/-- Without overlap, schedules of one caller are bounded and get stuck nowhere,
and at most one operation is ever under way. But the calls come to what they
come to in synchronous mode, wherever the caller waits and whatever bytes there
are, exactly if every operation yields to the next one that is accepted. -/
theorem serialThroughout_iff {d : PosixDevice} (hd : d.AtRest)
    (hlt : d.settings.blockSize < Word.count) (hoverlap : d.settings.overlapEvents = false)
    {calls : List Order} {s : Storage} (hm : ∀ c ∈ calls, s.memory.Holds c.buffer) :
    (∃ bound, ∀ schedule t, (startAlone d s calls).run? schedule = some t →
      schedule.length ≤ bound) ∧
    (∀ schedule t, (startAlone d s calls).run? schedule = some t →
      ((∀ e, t.step? e = none) → t.isOver = true) ∧
        t.ground.engine.completion.inFlight ≤ 1) ∧
    ((accepted (d.openings calls s)).IsChain Operation.Yields → d.Serial calls s) ∧
    (d.SerialThroughout calls s ↔ (accepted (d.openings calls s)).IsChain Operation.Yields) := by
  rw [openings_eq hd.blockSize_pos calls hm]
  refine ⟨exists_bound hd, fun schedule t hrun => ⟨isOver_of_stuck hd hrun, ?_⟩,
    serial_of_isChain hd hlt hoverlap hm, yields_of_serialThroughout hd hlt hoverlap hm,
    serialThroughout_of_isChain hd hlt hoverlap hm⟩
  exact (single_of_run? hd hoverlap hrun).inFlight

/-- A write, a longer write to the same file, a refused read and a read. -/
theorem serialThroughout_four_calls : ∃ d calls s, AtRest d ∧
    d.settings.blockSize < Word.count ∧ d.settings.overlapEvents = false ∧
    (∀ c ∈ calls, s.memory.Holds c.buffer) ∧
    (accepted (d.openings calls s)).length = 3 ∧ d.SerialThroughout calls s := by
  let settings : DeviceSettings :=
    { blockSize := 1, queueDepth := 1, threadCount := 2, overlapEvents := false }
  let calls : List Order :=
    [⟨.write, ⟨0, .u8, 1, none⟩, "p", true⟩, ⟨.write, ⟨1, .u8, 2, none⟩, "p", true⟩,
      ⟨.read, ⟨0, .u8, 1, none⟩, "q", false⟩, ⟨.read, ⟨0, .u8, 1, none⟩, "p", false⟩]
  let s : Storage := ⟨{ entries := [] }, { regions := [[1], [2, 3]] }⟩
  let d : PosixDevice := ⟨settings, .idle settings, ⟨0, 1, []⟩⟩
  have hcreate : create {} settings 0 = .ok d := rfl
  have hd : AtRest d := (atRest_create hcreate).1
  have hm : ∀ c ∈ calls, s.memory.Holds c.buffer := by decide
  have hchain : (accepted (d.openings calls s)).IsChain Operation.Yields := by decide
  exact ⟨d, calls, s, hd, by decide, rfl, hm, by decide,
    (serialThroughout_iff hd (by decide) rfl hm).2.2.2.mpr hchain⟩

/-- A write of two bytes and a write of one byte to the same file. The second one
empties the file while both jobs of the first one lie in the inbox, and the file
is left with two bytes. -/
theorem not_serial_two_writes : ∃ d calls s schedule t, AtRest d ∧
    d.settings.blockSize < Word.count ∧ d.settings.overlapEvents = false ∧
    (∀ c ∈ calls, s.memory.Holds c.buffer) ∧
    (startAlone d s calls).run? schedule = some t ∧ t.isOver = true ∧
    t.ground.storage.files.entryAt? ["p"] = some (.file [3, 2]) ∧
    (d.serveAll (calls.map (·.request .sync)) s).2.2.files.entryAt? ["p"] = some (.file [3]) ∧
    ¬d.Serial calls s := by
  let settings : DeviceSettings :=
    { blockSize := 1, queueDepth := 2, singleSubmit := true, threadCount := 1,
      overlapEvents := false }
  let calls : List Order :=
    [⟨.write, ⟨0, .u8, 2, none⟩, "p", false⟩, ⟨.write, ⟨1, .u8, 1, none⟩, "p", false⟩]
  let s : Storage := ⟨{ entries := [] }, { regions := [[1, 2], [3]] }⟩
  let d : PosixDevice := ⟨settings, .idle settings, ⟨0, 1, []⟩⟩
  have hcreate : create {} settings 0 = .ok d := rfl
  have hd : AtRest d := (atRest_create hcreate).1
  have hend : ((startAlone d s calls).run?
      (List.replicate 11 (.caller 0) ++ List.replicate 10 (.worker 0) ++
        List.replicate 5 (.caller 0) ++ List.replicate 6 (.worker 0) ++ [.caller 0])).map
      (fun t => (t.isOver, t.ground.storage.files.entryAt? ["p"])) =
      some (true, some (.file [3, 2])) := by decide
  obtain ⟨t, ht, he⟩ := Option.map_eq_some_iff.mp hend
  have hover : t.isOver = true := congrArg Prod.fst he
  have hfile : t.ground.storage.files.entryAt? ["p"] = some (.file [3, 2]) := congrArg Prod.snd he
  have hsync : (d.serveAll (calls.map (·.request .sync)) s).2.2.files.entryAt? ["p"] =
      some (.file [3]) := by decide
  refine ⟨d, calls, s, _, t, hd, by decide, rfl, by decide, ht, hover, hfile, hsync, ?_⟩
  intro hserial
  rw [hserial _ t ht hover, hsync] at hfile
  exact absurd hfile (by decide)

end PosixDevice
end BlockTransfer
