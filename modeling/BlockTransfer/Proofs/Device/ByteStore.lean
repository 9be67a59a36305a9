import BlockTransfer.Proofs.FileSystem.Naming
import BlockTransfer.Proofs.Traffic.Results
import BlockTransfer.Proofs.Traffic.Slow
/-!
# A posix device is a byte store

While all paths name files, a device at rest is a map from files to bytes: a
write sets its file to the bytes of the buffer, whatever was there before, and a
read fills the buffer with the first bytes of its file, or it is refused and
changes nothing. Block size, workers, mode and comparison do not show, nor does
the order in which the workers move.

Key definitions: `ByteStore`, `ByteStore.run`, `PosixDevice.Runs`.
Key theorem: `PosixDevice.stored_of_runs`.
-/

namespace BlockTransfer

/-! ### The store -/

/-- What shows of a device and its storage: the bytes of every file, the memory,
and how many operations the workers were given so far. -/
structure ByteStore where
  files : CanonicalPath → Option Bytes
  memory : Memory
  submitted : Nat

/-- How a transfer is asked for. -/
inductive Manner where
  /-- By the calls that move whole files. -/
  | whole
  /-- By the positional calls, in synchronous mode. -/
  | sync
  /-- By the positional calls, in asynchronous mode, and a wait after each. -/
  | async
  deriving DecidableEq, Repr

/-- A transfer and how it is asked for. -/
structure Access where
  order : Order
  manner : Manner
  deriving DecidableEq, Repr

/-- The request that an order is if it moves a whole file. -/
def Order.wholeRequest (c : Order) : Request :=
  match c.direction with
  | .read => .read c.buffer c.path c.validate
  | .write => .write c.buffer c.path c.validate

/-- What a device is asked. -/
def Access.requests (a : Access) : List Request :=
  match a.manner with
  | .whole => [a.order.wholeRequest]
  | .sync => [a.order.request .sync]
  | .async => [a.order.request .async, .wait]

/-- The same access, if no comparison is asked for. -/
def Access.unchecked (a : Access) : Access :=
  { a with order := { a.order with validate := false } }

namespace ByteStore

variable (names : String → CanonicalPath) (b : ByteStore)

/-- The file at `p` gets the bytes of a buffer. -/
def write (p : CanonicalPath) (buffer : Buffer) : ByteStore :=
  { b with files := Function.update b.files p (some (b.memory.bytes buffer)) }

/-- A buffer gets the first bytes of the file at `p`, which the caller calls
`path`, if the file is there and has enough of them. -/
def read (path : String) (p : CanonicalPath) (buffer : Buffer) :
    Except TransferError ByteStore :=
  match b.files p with
  | none => .error (.notFound path)
  | some data =>
    if data.length < buffer.len then .error (.shortRead path buffer.len data.length)
    else .ok { b with memory := b.memory.store buffer (data.take buffer.len) }

/-- What a transfer makes of the store, unless it is refused. -/
def transfer (c : Order) : Except TransferError ByteStore :=
  match c.direction with
  | .write => .ok (b.write (names c.path) c.buffer)
  | .read => b.read c.path (names c.path) c.buffer

/-- A transfer answers with the length of the buffer, or with the error. A wait
after it tells that one operation was submitted, or none. -/
def access (a : Access) : List (Except DeviceError Answer) × ByteStore :=
  match b.transfer names a.order with
  | .error e =>
    (.error (.transfer e) :: (if a.manner = .async then [.ok (.number 0)] else []), b)
  | .ok b' =>
    if a.manner = .async then
      ([.ok (.number a.order.buffer.len), .ok (.number 1)],
        { b' with submitted := b'.submitted + 1 })
    else ([.ok (.number a.order.buffer.len)], b')

/-- Accesses one after the other. -/
def run : ByteStore → List Access → List (Except DeviceError Answer) × ByteStore
  | b, [] => ([], b)
  | b, a :: accesses =>
    let (answers, b) := b.access names a
    let (answers', b) := run b accesses
    (answers ++ answers', b)

/-- The store knows of no comparison. -/
theorem run_unchecked : ∀ (accesses : List Access) (b : ByteStore),
    run names b (accesses.map Access.unchecked) = run names b accesses
  | [], _ => rfl
  | a :: accesses, b => by
    have hsame : b.access names a.unchecked = b.access names a := rfl
    simp only [List.map_cons, run, hsame, run_unchecked accesses]

end ByteStore

/-! ### One order -/

namespace Order

open Operation

variable {s : Storage} {c : Order} {blockSize : Nat} {p : CanonicalPath} {data : Bytes}

/-- What the order is once its file is found at `p`. -/
def operation (c : Order) (p : CanonicalPath) (blockSize : Nat) : Operation :=
  ⟨c.direction, ⟨⟨p⟩, c.path, c.buffer⟩, c.validate, blockSize⟩

/-- A write leaves the bytes of the buffer in its file, whatever was there. -/
theorem perform_write (hm : s.memory.Holds c.buffer) (hc : c.direction = .write)
    (hn : s.files.Names c.path p) : c.perform blockSize s =
      (.ok (c.operation p blockSize), s.putFile p (s.memory.bytes c.buffer)) := by
  have hlocate : locate c blockSize s = .ok (c.operation p blockSize, s.putFile p []) := by
    simp only [locate, operation, hc, hn.create]
    rfl
  -- the file is cut to nothing, then padded to the buffer's length
  obtain ⟨padded, hlen, hfit⟩ : ∃ padded : Bytes, padded.length = c.buffer.len ∧
      (c.operation p blockSize).fit (s.putFile p []) = .ok (s.putFile p padded) := by
    refine ⟨_, Bytes.length_resize ((s.putFile p []).files.content ⟨p⟩) c.buffer.len, ?_⟩
    rw [fit_write (o := c.operation p blockSize) hc]
    exact congrArg Except.ok (Storage.putFile_putFile s p [] _)
  have hcontent : (s.putFile p padded).files.content ⟨p⟩ = padded :=
    FileSystem.content_eq (FileSystem.entryAt?_insert_self _ hn.ne_nil)
  have hcarry : (c.operation p blockSize).carry ⟨0, c.buffer.len⟩ (s.putFile p padded) =
      s.putFile p (s.memory.bytes c.buffer) := by
    rw [← Storage.putFile_putFile s p padded (s.memory.bytes c.buffer)]
    exact carry_whole_write (o := c.operation p blockSize) hc hm
      (Nat.le_of_eq ((congrArg List.length hcontent).trans hlen))
  rw [perform, openFile_of_locate hlocate, hfit, ← hcarry]
  rfl

/-- A file that is there is found. -/
theorem locate_read (hc : c.direction = .read) (hn : s.files.Names c.path p)
    (hdata : s.files.bytes? p = some data) :
    locate c blockSize s = .ok (c.operation p blockSize, s) := by
  simp only [locate, operation, hc, hn.openRead_of_some hdata]

/-- A read of a file that has enough bytes leaves the first of them in the buffer. -/
theorem perform_read (hm : s.memory.Holds c.buffer) (hc : c.direction = .read)
    (hn : s.files.Names c.path p) (hdata : s.files.bytes? p = some data)
    (hlen : c.buffer.len ≤ data.length) : c.perform blockSize s =
      (.ok (c.operation p blockSize), s.putBytes c.buffer (data.take c.buffer.len)) := by
  have hentry := FileSystem.bytes?_eq_some_iff.mp hdata
  have hcontent : s.files.content ⟨p⟩ = data := FileSystem.content_eq hentry
  have hlength : s.files.length ⟨p⟩ = data.length := FileSystem.length_eq hentry
  have hfit : (c.operation p blockSize).fit s = .ok s := by
    rw [fit_read (o := c.operation p blockSize) hc]
    exact if_neg (Nat.not_lt.mpr (hlength.symm ▸ hlen))
  have hcarry : (c.operation p blockSize).carry ⟨0, c.buffer.len⟩ s =
      s.putBytes c.buffer (data.take c.buffer.len) := by
    rw [carry_read (o := c.operation p blockSize) hc hn.ne_directory]
    show s.putBytes c.buffer
      (Bytes.copyRange (s.files.content ⟨p⟩) ⟨0, c.buffer.len⟩ (s.memory.bytes c.buffer)) = _
    rw [hcontent, Bytes.copyRange_whole hlen (Nat.le_of_eq hm.length)]
  rw [perform, openFile_of_locate (locate_read hc hn hdata), hfit, ← hcarry]
  rfl

/-- A read of a file that has too few bytes is refused. -/
theorem perform_short (hc : c.direction = .read) (hn : s.files.Names c.path p)
    (hdata : s.files.bytes? p = some data) (hlen : data.length < c.buffer.len) :
    c.perform blockSize s = (.error (.shortRead c.path c.buffer.len data.length), s) := by
  have hlength : s.files.length ⟨p⟩ = data.length :=
    FileSystem.length_eq (FileSystem.bytes?_eq_some_iff.mp hdata)
  have hfit : (c.operation p blockSize).fit s =
      .error (.shortRead c.path c.buffer.len data.length) := by
    rw [fit_read (o := c.operation p blockSize) hc, ← hlength]
    exact if_pos (hlength.symm ▸ hlen)
  rw [perform, openFile_of_locate (locate_read hc hn hdata), hfit]
  rfl

/-- A read of a file that is missing is refused. -/
theorem perform_missing (hc : c.direction = .read) (hn : s.files.Names c.path p)
    (hnone : s.files.bytes? p = none) :
    c.perform blockSize s = (.error (.notFound c.path), s) := by
  have hopen : openFile c blockSize s = .error (.notFound c.path) := by
    simp only [openFile, locate, hc, hn.openRead_of_none hnone]
    rfl
  rw [perform, hopen]

/-- No job and no comparison fails. -/
theorem verdict_operation (hn : s.files.Names c.path p) :
    (c.operation p blockSize).verdict s = .ok () :=
  if_neg fun h => hn.ne_directory h.2.1

end Order

namespace PosixDevice

open Traffic Operation

/-- What shows of a device and its storage. -/
def store (d : PosixDevice) (s : Storage) : ByteStore :=
  ⟨s.files.bytes?, s.memory, d.engine.nextFlight⟩

/-- Carrying out an order at once does to what shows what a transfer does to the
store. -/
theorem perform_store (d : PosixDevice) {s : Storage} {c : Order} {blockSize : Nat}
    {names : String → CanonicalPath} (hm : s.memory.Holds c.buffer)
    (hn : s.files.Names c.path (names c.path)) :
    match (d.store s).transfer names c with
    | .error e => c.perform blockSize s = (.error e, s)
    | .ok b => ∃ s', c.perform blockSize s = (.ok (c.operation (names c.path) blockSize), s') ∧
        b = d.store s' ∧ (s'.files = s.files ∨
          ∃ data, s'.files = s.files.insert (names c.path) (.file data)) := by
  unfold ByteStore.transfer
  cases hc : c.direction with
  | write =>
    refine ⟨_, Order.perform_write hm hc hn, ?_, .inr ⟨_, rfl⟩⟩
    show ByteStore.mk (Function.update s.files.bytes? _ _) _ _ = ByteStore.mk _ _ _
    rw [Storage.files_putFile, FileSystem.bytes?_insert _ hn.ne_nil]
    rfl
  | read =>
    show match ByteStore.read _ _ _ _ with | .error e => _ | .ok b => _
    unfold ByteStore.read
    cases hdata : s.files.bytes? (names c.path) with
    | none =>
      simp only [store, hdata]
      exact Order.perform_missing hc hn hdata
    | some data =>
      by_cases hlen : data.length < c.buffer.len
      · simp only [store, hdata, if_pos hlen]
        exact Order.perform_short hc hn hdata hlen
      · simp only [store, hdata, if_neg hlen]
        exact ⟨_, Order.perform_read hm hc hn hdata (Nat.not_lt.mp hlen), rfl, .inl rfl⟩

/-! ### One access -/

/-- How an access goes. -/
inductive Serves (d : PosixDevice) (s : Storage) :
    Access → List (Except DeviceError Answer) → PosixDevice → Storage → Prop where
  /-- As the device itself goes about it, one request after the other. -/
  | own (a : Access) : Serves d s a (d.serveAll a.requests s).1 (d.serveAll a.requests s).2.1
      (d.serveAll a.requests s).2.2
  /-- An asynchronous transfer and the wait after it, while the caller and the
  workers move in any order. -/
  | scheduled {c : Order} {schedule : List Event} {t : Traffic}
      (run : (startAlone d s [c]).run? schedule = some t) (isOver : t.isOver = true) :
      Serves d s ⟨c, .async⟩ ((t.answers 0).map reply) { d with engine := t.ground.engine }
        t.ground.storage

/-- What an access comes to. -/
structure Served (names : String → CanonicalPath) (d : PosixDevice) (s : Storage) (a : Access)
    (answers : List (Except DeviceError Answer)) (d' : PosixDevice) (s' : Storage) : Prop where
  /-- The store answers the same, and it shows what is left. -/
  access : (answers, d'.store s') = (d.store s).access names a
  storage : s' = (a.order.perform d.settings.blockSize s).2
  atRest : d'.AtRest
  settings : d'.settings = d.settings

section

variable {names : String → CanonicalPath} {d d' : PosixDevice} {s s' : Storage} {a : Access}
  {c : Order} {answers : List (Except DeviceError Answer)} {schedule : List Event} {t : Traffic}

theorem served_sync (hd : d.AtRest) (hm : s.memory.Holds c.buffer)
    (hn : s.files.Names c.path (names c.path)) {manner : Manner} (hmanner : manner ≠ .async) :
    Served names d s ⟨c, manner⟩ [(d.serve s (c.request .sync)).1]
      (d.serve s (c.request .sync)).2.1 (d.serve s (c.request .sync)).2.2 := by
  have hserve := serve_sync hd.blockSize_pos hm (.refl s)
  have hperform := @perform_store d s _ d.settings.blockSize names hm hn
  refine ⟨?_, by rw [hserve], by rwa [hserve], by rw [hserve]⟩
  rw [hserve, ByteStore.access]
  split at hperform
  · rename_i e he
    simp only [he, hperform, if_neg hmanner]
    rfl
  · rename_i b hb
    obtain ⟨s₁, hperform, rfl, -⟩ := hperform
    simp only [hb, hperform, if_neg hmanner, Order.answer, Order.verdict_operation hn]
    rfl

/-- However one asynchronous transfer and a wait go, the file is opened and the
whole range is carried, or nothing is submitted. -/
theorem exists_waited (hd : d.AtRest) (hlt : d.settings.blockSize < Word.count)
    (hm : s.memory.Holds c.buffer) (hrun : (startAlone d s [c]).run? schedule = some t)
    (hover : t.isOver = true) :
    t.ground.storage = (c.perform d.settings.blockSize s).2 ∧
    t.ground.engine.nextFlight =
      d.engine.nextFlight + (accepted [(c.perform d.settings.blockSize s).1]).length ∧
    AtRest { d with engine := t.ground.engine } ∧
    ∃ answer, t.answers 0 = [receipt (c.perform d.settings.blockSize s).1, answer] ∧
      Waited s (accepted [(c.perform d.settings.blockSize s).1]) answer := by
  have hall : ∀ c' ∈ [c], s.memory.Holds c'.buffer := fun c' hc' =>
    List.mem_singleton.mp hc' ▸ hm
  -- one operation is apart from all others
  have hapart : (accepted (Order.performAll d.settings.blockSize [c] s).1).Pairwise
      Operation.Apart := by
    show (accepted [(c.perform d.settings.blockSize s).1]).Pairwise Operation.Apart
    cases (c.perform d.settings.blockSize s).1 with
    | error e => exact .nil
    | ok o => exact List.pairwise_singleton _ o
  have hsettled : Settled (startAlone d s [c]) [c] t := by
    rcases alone_or_settled_of_run? hd hlt hall (clear_of_apart hapart _) hrun with
      ⟨c', past, rest, h⟩ | h
    · exact absurd hover h.not_isOver
    · exact h
  refine ⟨hsettled.storage, ?_, hsettled.atRest hd (recorded_startAlone hd hrun).balanced
    (sameSettings_of_run? hrun), waited_of_settled hd hlt hall hapart hrun hsettled⟩
  obtain ⟨answer, journal, -, hjournal, -, hlaunched⟩ := hsettled.answered
  have hstarted : launched t.ground.journal = launched journal := by
    rw [hjournal, launched_append]
    exact List.append_nil _
  rw [nextFlight_of_run? rfl hrun, hstarted, hlaunched]
  rfl

theorem served_scheduled (hd : d.AtRest) (hlt : d.settings.blockSize < Word.count)
    (hm : s.memory.Holds c.buffer) (hn : s.files.Names c.path (names c.path))
    (hrun : (startAlone d s [c]).run? schedule = some t) (hover : t.isOver = true) :
    Served names d s ⟨c, .async⟩ ((t.answers 0).map reply) { d with engine := t.ground.engine }
      t.ground.storage := by
  obtain ⟨hstorage, hnext, hrest, answer, hanswers, hwaited⟩ := exists_waited hd hlt hm hrun hover
  have hperform := @perform_store d s _ d.settings.blockSize names hm hn
  refine ⟨?_, hstorage, hrest, rfl⟩
  rw [ByteStore.access, hanswers, store, hnext, hstorage]
  split at hperform
  · rename_i e he
    rw [hperform] at hwaited ⊢
    have hanswer : answer = .ok 0 := by
      cases answer with
      | ok n => exact congrArg Except.ok hwaited.1
      | error e' =>
        obtain ⟨o, ho, -⟩ := hwaited
        cases ho
    simp only [he, hanswer]
    rfl
  · rename_i b hb
    obtain ⟨s₁, hperform, rfl, -⟩ := hperform
    rw [hperform] at hwaited ⊢
    have hanswer : answer = .ok 1 := by
      cases answer with
      | ok n => exact congrArg Except.ok hwaited.1
      | error e =>
        obtain ⟨o, ho, hv⟩ := hwaited
        rw [List.mem_singleton.mp ho, Order.verdict_operation hn] at hv
        cases hv
    simp only [hb, hanswer]
    rfl

theorem served_of_serves (hd : d.AtRest) (hlt : d.settings.blockSize < Word.count)
    (hm : s.memory.Holds a.order.buffer) (hn : s.files.Names a.order.path (names a.order.path))
    (h : d.Serves s a answers d' s') : Served names d s a answers d' s' := by
  cases h with
  | scheduled hrun hover => exact served_scheduled hd hlt hm hn hrun hover
  | own =>
    obtain ⟨c, manner⟩ := a
    cases manner with
    | whole =>
      have hsame : d.serve s c.wholeRequest = d.serve s (c.request .sync) := by
        unfold Order.wholeRequest Order.request
        cases c.direction <;> rfl
      simp only [Access.requests, serveAll, hsame]
      exact served_sync hd hm hn (by decide)
    | sync => exact served_sync hd hm hn (by decide)
    | async =>
      obtain ⟨schedule, t, hrun, hover, hall⟩ := exists_slow_schedule hd [c] s
      have hall : d.serveAll (Access.requests ⟨c, .async⟩) s = _ := hall
      rw [hall]
      exact served_scheduled hd hlt hm hn hrun hover

namespace Served

variable (h : Served names d s a answers d' s') (hm : s.memory.Holds a.order.buffer)
  (hn : s.files.Names a.order.path (names a.order.path))

include h hm

theorem holds (hb : 0 < d.settings.blockSize) (b : Buffer) :
    s'.memory.Holds b ↔ s.memory.Holds b := by
  rw [h.storage]
  exact Order.perform_holds hb hm b

include hn

/-- At most the file that is named is set. -/
theorem files : s'.files = s.files ∨
    ∃ data, s'.files = s.files.insert (names a.order.path) (.file data) := by
  have hperform := @perform_store d s _ d.settings.blockSize names hm hn
  rw [h.storage]
  split at hperform
  · rw [hperform]
    exact .inl rfl
  · obtain ⟨s₁, hperform, -, hfiles⟩ := hperform
    rw [hperform]
    exact hfiles

/-- All paths name what they named. -/
theorem still_names {path : String} {p : CanonicalPath} (hp : s.files.Names path p) :
    s'.files.Names path p := by
  rcases h.files hm hn with hfiles | ⟨data, hfiles⟩
  · rwa [hfiles]
  · rw [hfiles]
    exact hp.insert hn data

/-- No other entry changes. -/
theorem entryAt?_eq {p : CanonicalPath} (hp : p ≠ names a.order.path) :
    s'.files.entryAt? p = s.files.entryAt? p := by
  rcases h.files hm hn with hfiles | ⟨data, hfiles⟩
  · rw [hfiles]
  · rw [hfiles, FileSystem.entryAt?_insert_of_ne _ hp]

end Served

end

/-! ### Whole runs -/

/-- How accesses go, one after the other. -/
inductive Runs : PosixDevice → Storage → List Access → List (Except DeviceError Answer) →
    PosixDevice → Storage → Prop where
  | nil (d : PosixDevice) (s : Storage) : Runs d s [] [] d s
  | cons {d d' d'' : PosixDevice} {s s' s'' : Storage} {a : Access} {rest : List Access}
      {answers answers' : List (Except DeviceError Answer)} (first : d.Serves s a answers d' s')
      (others : Runs d' s' rest answers' d'' s'') :
      Runs d s (a :: rest) (answers ++ answers') d'' s''

theorem serveAll_append : ∀ (rs rs' : List Request) (d : PosixDevice) (s : Storage),
    d.serveAll (rs ++ rs') s =
      ((d.serveAll rs s).1 ++ ((d.serveAll rs s).2.1.serveAll rs' (d.serveAll rs s).2.2).1,
        ((d.serveAll rs s).2.1.serveAll rs' (d.serveAll rs s).2.2).2)
  | [], _, _, _ => rfl
  | r :: rs, rs', d, s => by
    simp only [List.cons_append, serveAll, serveAll_append rs rs']

/-- One of the runs is the device's own. -/
theorem runs_serveAll : ∀ (accesses : List Access) (d : PosixDevice) (s : Storage),
    d.Runs s accesses (d.serveAll (accesses.flatMap Access.requests) s).1
      (d.serveAll (accesses.flatMap Access.requests) s).2.1
      (d.serveAll (accesses.flatMap Access.requests) s).2.2
  | [], d, s => .nil d s
  | a :: rest, d, s => by
    rw [List.flatMap_cons, serveAll_append]
    exact .cons (.own a) (runs_serveAll rest _ _)

/-- What a run of accesses comes to. -/
structure Stored (names : String → CanonicalPath) (d : PosixDevice) (s : Storage)
    (accesses : List Access) (answers : List (Except DeviceError Answer)) (d' : PosixDevice)
    (s' : Storage) : Prop where
  /-- The store answers the same, and it shows what is left. -/
  run : (answers, d'.store s') = (d.store s).run names accesses
  /-- So it does if no comparison is asked for. -/
  unchecked : (answers, d'.store s') = (d.store s).run names (accesses.map Access.unchecked)
  /-- All paths name the files that they named, and lead to what the store holds. -/
  named : ∀ path p, s.files.Names path p →
    s'.files.Names path p ∧ s'.files.read? path = (d'.store s').files p
  /-- No other file, directory or link changes. -/
  others : ∀ p, (∀ a ∈ accesses, p ≠ names a.order.path) →
    s'.files.entryAt? p = s.files.entryAt? p
  settings : d'.settings = d.settings
  atRest : d'.AtRest
  /-- Whatever is asked for next comes to its end. -/
  ends : ∀ c, (∃ bound, ∀ schedule t, (startAlone d' s' [c]).run? schedule = some t →
      schedule.length ≤ bound) ∧
    ∀ schedule t, (startAlone d' s' [c]).run? schedule = some t →
      (∀ e, t.step? e = none) → t.isOver = true

theorem stored_of_runs {names : String → CanonicalPath} {d d' : PosixDevice} {s s' : Storage}
    {accesses : List Access} {answers : List (Except DeviceError Answer)}
    (hrun : d.Runs s accesses answers d' s') (hd : d.AtRest)
    (hlt : d.settings.blockSize < Word.count)
    (hm : ∀ a ∈ accesses, s.memory.Holds a.order.buffer)
    (hn : ∀ a ∈ accesses, s.files.Names a.order.path (names a.order.path)) :
    Stored names d s accesses answers d' s' := by
  induction hrun with
  | nil d s =>
    exact
      { run := rfl
        unchecked := rfl
        named := fun path p hp => ⟨hp, hp.read?_eq⟩
        others := fun p _ => rfl
        settings := rfl
        atRest := hd
        ends := fun c => ⟨exists_bound hd, fun schedule t hrun => isOver_of_stuck hd hrun⟩ }
  | @cons d d' d'' s s' s'' a rest answers answers' first others ih =>
    have hmem := hm a List.mem_cons_self
    have hname := hn a List.mem_cons_self
    have hs := served_of_serves hd hlt hmem hname first
    have hrest := ih hs.atRest (hs.settings ▸ hlt)
      (fun a' ha' => (hs.holds hmem hd.blockSize_pos _).mpr (hm a' (List.mem_cons_of_mem _ ha')))
      fun a' ha' => hs.still_names hmem hname (hn a' (List.mem_cons_of_mem _ ha'))
    have hall : (answers ++ answers', d''.store s'') = (d.store s).run names (a :: rest) := by
      rw [ByteStore.run, ← hs.access]
      simp only [← hrest.run]
    exact
      { run := hall
        unchecked := hall.trans (ByteStore.run_unchecked names (a :: rest) (d.store s)).symm
        named := fun path p hp => hrest.named path p (hs.still_names hmem hname hp)
        others := fun p hp =>
          (hrest.others p fun a' ha' => hp a' (List.mem_cons_of_mem _ ha')).trans
            (hs.entryAt?_eq hmem hname (hp a List.mem_cons_self))
        settings := hrest.settings.trans hs.settings
        atRest := hrest.atRest
        ends := hrest.ends }

/-- While all paths name files, a device at rest is a byte store, whether the
workers of its asynchronous calls move as the device has them move or in any
other order. Block sizes are words. -/
theorem runs_as_byteStore {d : PosixDevice} (hd : d.AtRest)
    (hlt : d.settings.blockSize < Word.count) {s : Storage} {accesses : List Access}
    {names : String → CanonicalPath} (hm : ∀ a ∈ accesses, s.memory.Holds a.order.buffer)
    (hn : ∀ a ∈ accesses, s.files.Names a.order.path (names a.order.path)) :
    d.Runs s accesses (d.serveAll (accesses.flatMap Access.requests) s).1
      (d.serveAll (accesses.flatMap Access.requests) s).2.1
      (d.serveAll (accesses.flatMap Access.requests) s).2.2 ∧
    ∀ answers d' s', d.Runs s accesses answers d' s' →
      Stored names d s accesses answers d' s' :=
  ⟨runs_serveAll accesses d s, fun _ _ _ hrun => stored_of_runs hrun hd hlt hm hn⟩

/-- A write of two bytes, a write of one byte to the same file, a read that finds
too few bytes, a read of a missing file and a read. -/
theorem runs_as_byteStore_five_accesses : ∃ d s accesses, AtRest d ∧
    d.settings.blockSize < Word.count ∧
    (∀ a ∈ accesses, s.memory.Holds a.order.buffer) ∧
    (∀ a ∈ accesses, s.files.Names a.order.path [a.order.path]) ∧
    (d.serveAll (accesses.flatMap Access.requests) s).1 =
      [.ok (.number 2), .ok (.number 1), .ok (.number 1),
        .error (.transfer (.shortRead "p" 2 1)), .ok (.number 0),
        .error (.transfer (.notFound "q")), .ok (.number 1)] ∧
    (d.serveAll (accesses.flatMap Access.requests) s).2.2.memory.regions = [[1, 2], [3], [3]] ∧
    ∀ answers d' s', d.Runs s accesses answers d' s' →
      Stored (fun path => [path]) d s accesses answers d' s' := by
  let settings : DeviceSettings := { blockSize := 1, queueDepth := 1, threadCount := 2 }
  let accesses : List Access :=
    [⟨⟨.write, ⟨0, .u8, 2, none⟩, "p", true⟩, .async⟩,
      ⟨⟨.write, ⟨1, .u8, 1, none⟩, "p", true⟩, .sync⟩,
      ⟨⟨.read, ⟨0, .u8, 2, none⟩, "p", true⟩, .async⟩,
      ⟨⟨.read, ⟨0, .u8, 2, none⟩, "q", false⟩, .whole⟩,
      ⟨⟨.read, ⟨2, .u8, 1, none⟩, "p", true⟩, .whole⟩]
  let s : Storage := ⟨{ entries := [] }, { regions := [[1, 2], [3], [0]] }⟩
  let d : PosixDevice := ⟨settings, .idle settings, ⟨0, 1, []⟩⟩
  have hcreate : create {} settings 0 = .ok d := rfl
  have hd : AtRest d := (atRest_create hcreate).1
  have hm : ∀ a ∈ accesses, s.memory.Holds a.order.buffer := by decide
  have hn : ∀ a ∈ accesses, s.files.Names a.order.path [a.order.path] := by decide
  exact ⟨d, s, accesses, hd, by decide, hm, hn, by decide, by decide,
    (runs_as_byteStore hd (by decide) hm hn).2⟩

end PosixDevice
end BlockTransfer
