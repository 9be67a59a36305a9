import BlockTransfer.Device.Posix.Traffic
import BlockTransfer.Proofs.Operation.Running
/-!
# Opening files, and orders carried out at once

Opening looks at the layout of the storage alone, never at the bytes of a file
or a buffer (`Operation.locate_congr`, `Operation.fit_congr`). What it leaves is
an operation that is located, then ready. So an order carried out at once either
is refused and changes nothing, or carries its whole range (`Order.perform`), and
that is what a device does with it in synchronous mode.

Which entries are directories never changes, so how each operation ends can be
told from the storage at the start.

Key definitions: `Storage.SameDirectories`, `Order.perform`, `Order.performAll`,
`PosixDevice.openings`.
Key theorems: `Operation.locate_spec`, `Operation.ready_of_fit`,
`PosixDevice.serve_sync`, `PosixDevice.serveAll_sync`.
-/

namespace BlockTransfer

/-! ### Directories -/

namespace Storage

/-- The same paths hold directories. -/
def SameDirectories (s s' : Storage) : Prop :=
  ∀ p, s.files.entryAt? p = some .directory ↔ s'.files.entryAt? p = some .directory

variable {s s' s'' : Storage}

theorem SameDirectories.refl (s : Storage) : s.SameDirectories s := fun _ => .rfl

theorem SameDirectories.trans (h : s.SameDirectories s') (h' : s'.SameDirectories s'') :
    s.SameDirectories s'' :=
  fun p => (h p).trans (h' p)

/-- A file set where a file or nothing was. -/
theorem putFile_sameDirectories {p : CanonicalPath} (data : Bytes)
    (h : ∀ e, s.files.entryAt? p = some e → e.sort = .file []) :
    (s.putFile p data).SameDirectories s := by
  intro q
  rw [files_putFile, FileSystem.entryAt?_insert]
  split
  · rename_i hq
    rw [hq.1]
    constructor
    · intro he
      cases he
    · intro he
      cases h _ he
  · exact .rfl

end Storage

namespace Operation

variable {o : Operation} {s s' : Storage} {c : Order} {blockSize : Nat}

theorem carry_sameDirectories (h : o.Grounded s) (r : ByteRange) :
    (o.carry r s).SameDirectories s :=
  directory_congr (carry_sameSorts h r)

theorem verdict_of_sameDirectories (h : s.SameDirectories s') : o.verdict s = o.verdict s' := by
  simp only [verdict, h o.handle.at_]

/-! ### Finding or making the file -/

/-- What finding or making the file of an order comes to. -/
structure Locates (c : Order) (blockSize : Nat) (s : Storage) (o : Operation) (s' : Storage) :
    Prop where
  direction : o.direction = c.direction
  buffer : o.buffer = c.buffer
  blockSize : o.blockSize = blockSize
  /-- A file to read is left as it is. -/
  read : o.direction = .read → s' = s
  /-- A file to write is emptied, or made empty where nothing was. -/
  write : o.direction = .write → s' = s.putFile o.handle.at_ []
  before : o.direction = .write → ∀ e, s.files.entryAt? o.handle.at_ = some e → e.sort = .file []
  located : o.Located s'

theorem locate_spec (hb : 0 < blockSize) (hm : s.memory.Holds c.buffer)
    (h : locate c blockSize s = .ok (o, s')) : Locates c blockSize s o s' := by
  unfold locate at h
  split at h
  · rename_i hc
    split at h
    · cases h
    · rename_i handle hopen
      cases h
      exact
        { direction := hc.symm
          buffer := rfl
          blockSize := rfl
          read := fun _ => rfl
          write := fun hd => by cases hd
          before := fun hd => by cases hd
          located := ⟨hb, hm, hopen, fun hd => by cases hd⟩ }
  · rename_i hc
    split at h
    · cases h
    · rename_i handle files hcreate
      cases h
      obtain ⟨hne, hfiles, hbefore, hleads⟩ := FileSystem.create_spec hcreate
      subst hfiles
      exact
        { direction := hc.symm
          buffer := rfl
          blockSize := rfl
          read := fun hd => by cases hd
          write := fun _ => rfl
          before := fun _ => hbefore
          located := ⟨hb, hm, hleads (FileSystem.SameSorts.refl _).extends,
            fun _ => ⟨[], FileSystem.keeps_insert [] hne⟩⟩ }

/-- Finding a file to read changes nothing. -/
theorem eq_of_locate_read (h : locate c blockSize s = .ok (o, s')) (hd : o.direction = .read) :
    s' = s := by
  unfold locate at h
  split at h
  · split at h
    · cases h
    · cases h
      rfl
  · split at h
    · cases h
    · cases h
      cases hd

/-- Finding a file looks at the layout alone. -/
theorem locate_congr (h : s.SameLayout s') (c : Order) (blockSize : Nat) :
    (locate c blockSize s).map Prod.fst = (locate c blockSize s').map Prod.fst := by
  unfold locate
  cases c.direction with
  | read =>
    simp only [FileSystem.openRead_congr h.sorts]
    cases s'.files.openRead c.path with
    | error kind => rfl
    | ok handle => rfl
  | write =>
    have hc := FileSystem.create_congr h.sorts c.path
    cases hcreate : s.files.create c.path with
    | error kind =>
      cases hcreate' : s'.files.create c.path with
      | error kind' =>
        rw [hcreate, hcreate'] at hc
        cases hc
        rfl
      | ok x => simp [hcreate, hcreate', Except.map] at hc
    | ok x =>
      cases hcreate' : s'.files.create c.path with
      | error kind' => simp [hcreate, hcreate', Except.map] at hc
      | ok x' =>
        rw [hcreate, hcreate'] at hc
        simp only [Except.map, Except.ok.injEq] at hc
        simp only [Except.map, hc]

theorem locate_error_congr (h : s.SameLayout s') {e : TransferError}
    (hl : locate c blockSize s = .error e) : locate c blockSize s' = .error e := by
  have hc := locate_congr h c blockSize
  rw [hl] at hc
  cases hl' : locate c blockSize s' with
  | error e' =>
    rw [hl'] at hc
    cases hc
    rfl
  | ok x =>
    rw [hl'] at hc
    cases hc

theorem locate_ok_congr (h : s.SameLayout s') {s₁ : Storage}
    (hl : locate c blockSize s = .ok (o, s₁)) : ∃ s₁', locate c blockSize s' = .ok (o, s₁') := by
  have hc := locate_congr h c blockSize
  rw [hl] at hc
  cases hl' : locate c blockSize s' with
  | error e =>
    rw [hl'] at hc
    cases hc
  | ok x =>
    rw [hl'] at hc
    cases hc
    exact ⟨x.2, rfl⟩

theorem Locates.sameDirectories {c : Order} (h : Locates c blockSize s o s') :
    s'.SameDirectories s := by
  cases hd : o.direction with
  | read =>
    rw [h.read hd]
    exact .refl s
  | write =>
    rw [h.write hd]
    exact Storage.putFile_sameDirectories [] (h.before hd)

/-! ### Looking at the length, or giving it -/

theorem fit_write (h : o.direction = .write) (s : Storage) :
    o.fit s = .ok (s.putFile o.handle.at_
      (Bytes.resize (s.files.content o.handle) o.buffer.len)) := by
  rw [fit, h]
  rfl

theorem fit_read (h : o.direction = .read) (s : Storage) :
    o.fit s = if s.files.length o.handle < o.buffer.len then
        .error (.shortRead o.endpoints.path o.buffer.len (s.files.length o.handle))
      else .ok s := by
  rw [fit, h]

theorem eq_of_fit_read (h : o.direction = .read) (hf : o.fit s = .ok s') : s' = s := by
  rw [fit_read h] at hf
  split at hf
  · cases hf
  · cases hf
    rfl

theorem ready_of_fit (h : o.Located s) (hf : o.fit s = .ok s') : o.Ready s' := by
  cases hd : o.direction with
  | write =>
    obtain ⟨old, hk⟩ := h.file hd
    rw [fit_write hd] at hf
    cases hf
    have hsort : ∀ e, s.files.entryAt? o.handle.at_ = some e → e.sort = .file [] := by
      intro e he
      rw [hk.entry] at he
      cases he
      rfl
    refine { toLocated := h.putFile hk.ne_nil hsort _, target := fun _ => ?_, source := ?_ }
    · rw [Storage.files_putFile,
        FileSystem.content_eq (FileSystem.entryAt?_insert_self _ hk.ne_nil), Bytes.length_resize]
    · rw [hd]
      intro hread
      cases hread
  | read =>
    obtain rfl := eq_of_fit_read hd hf
    rw [fit_read hd] at hf
    split at hf
    · cases hf
    · rename_i hlen
      refine { toLocated := h, target := ?_, source := fun _ hs => ?_ }
      · rw [hd]
        intro hwrite
        cases hwrite
      · rw [← length_eq_content hs]
        exact Nat.not_lt.mp hlen

/-- A refusal looks at the layout alone. -/
theorem fit_congr (h : s.SameLayout s') (e : TransferError) :
    o.fit s = .error e ↔ o.fit s' = .error e := by
  cases hd : o.direction with
  | write => simp [fit_write hd]
  | read =>
    rw [fit_read hd, fit_read hd, h.length]
    split <;> simp

/-- Only a read can be refused once its file is found. -/
theorem read_of_fit_error {e : TransferError} (h : o.fit s = .error e) : o.direction = .read := by
  cases hd : o.direction with
  | write =>
    rw [fit_write hd] at h
    cases h
  | read => rfl

theorem fit_sameDirectories (h : o.Located s) (hf : o.fit s = .ok s') : s'.SameDirectories s := by
  cases hd : o.direction with
  | write =>
    obtain ⟨old, hk⟩ := h.file hd
    rw [fit_write hd] at hf
    cases hf
    refine Storage.putFile_sameDirectories _ fun e he => ?_
    rw [hk.entry] at he
    cases he
    rfl
  | read =>
    rw [eq_of_fit_read hd hf]
    exact .refl s

end Operation

/-! ### Orders carried out at once -/

/-- An order is refused and changes nothing, or its file is opened and the whole
range is carried. -/
def Order.perform (blockSize : Nat) (c : Order) (s : Storage) :
    Except TransferError Operation × Storage :=
  match Operation.openFile c blockSize s with
  | .error e => (.error e, s)
  | .ok (o, s) => (.ok o, o.carry ⟨0, o.buffer.len⟩ s)

/-- Orders carried out one after the other. -/
def Order.performAll (blockSize : Nat) :
    List Order → Storage → List (Except TransferError Operation) × Storage
  | [], s => ([], s)
  | c :: cs, s =>
    let (opening, s) := c.perform blockSize s
    let (openings, s) := performAll blockSize cs s
    (opening :: openings, s)

namespace Operation

variable {o : Operation} {s s' : Storage} {c : Order} {blockSize : Nat}

theorem openFile_of_locate {s₁ : Storage} (h : locate c blockSize s = .ok (o, s₁)) :
    openFile c blockSize s = (o.fit s₁).map fun s => (o, s) := by
  rw [openFile, h]

/-- An opened file comes of two moves. -/
theorem openFile_eq_ok (h : openFile c blockSize s = .ok (o, s')) :
    ∃ s₁, locate c blockSize s = .ok (o, s₁) ∧ o.fit s₁ = .ok s' := by
  unfold openFile at h
  cases hl : locate c blockSize s with
  | error e =>
    rw [hl] at h
    cases h
  | ok x =>
    obtain ⟨o₁, s₁⟩ := x
    rw [hl] at h
    cases hf : o₁.fit s₁ with
    | error e =>
      simp only [hf, Except.map] at h
      cases h
    | ok s₂ =>
      simp only [hf, Except.map, Except.ok.injEq, Prod.mk.injEq] at h
      obtain ⟨rfl, rfl⟩ := h
      exact ⟨s₁, rfl, hf⟩

/-- A file is not found, or it does not fit. -/
theorem openFile_eq_error {e : TransferError} (h : openFile c blockSize s = .error e) :
    locate c blockSize s = .error e ∨
      ∃ o s₁, locate c blockSize s = .ok (o, s₁) ∧ o.fit s₁ = .error e := by
  unfold openFile at h
  cases hl : locate c blockSize s with
  | error e' =>
    rw [hl] at h
    cases h
    exact .inl rfl
  | ok x =>
    obtain ⟨o, s₁⟩ := x
    rw [hl] at h
    cases hf : o.fit s₁ with
    | error e' =>
      simp only [hf, Except.map] at h
      cases h
      exact .inr ⟨o, s₁, rfl, hf⟩
    | ok s₂ =>
      simp only [hf, Except.map] at h
      cases h

theorem Locates.memory (h : Locates c blockSize s o s') : s'.memory = s.memory := by
  cases hd : o.direction with
  | read => rw [h.read hd]
  | write => rw [h.write hd, Storage.memory_putFile]

theorem memory_of_fit (h : o.fit s = .ok s') : s'.memory = s.memory := by
  cases hd : o.direction with
  | read => rw [eq_of_fit_read hd h]
  | write =>
    rw [fit_write hd] at h
    cases h
    rfl

/-- What opening a file comes to. -/
structure Opens (c : Order) (s : Storage) (o : Operation) (s' : Storage) : Prop where
  direction : o.direction = c.direction
  buffer : o.buffer = c.buffer
  memory : s'.memory = s.memory
  directories : s'.SameDirectories s
  ready : o.Ready s'

theorem openFile_spec (hb : 0 < blockSize) (hm : s.memory.Holds c.buffer)
    (h : openFile c blockSize s = .ok (o, s')) : Opens c s o s' := by
  obtain ⟨s₁, hl, hf⟩ := openFile_eq_ok h
  have hs := locate_spec hb hm hl
  exact
    { direction := hs.direction
      buffer := hs.buffer
      memory := (memory_of_fit hf).trans hs.memory
      directories := (fit_sameDirectories hs.located hf).trans hs.sameDirectories
      ready := ready_of_fit hs.located hf }

/-- Opening a file to read changes nothing. -/
theorem eq_of_openFile_read (h : openFile c blockSize s = .ok (o, s'))
    (hd : o.direction = .read) : s' = s := by
  obtain ⟨s₁, hl, hf⟩ := openFile_eq_ok h
  rw [eq_of_fit_read hd hf, eq_of_locate_read hl hd]

/-- Opening looks at the layout alone, and leaves one layout. -/
theorem openFile_congr (hb : 0 < blockSize) (hm : s.memory.Holds c.buffer) (h : s.SameLayout s') :
    match openFile c blockSize s with
    | .error e => openFile c blockSize s' = .error e
    | .ok (o, s₁) => ∃ s₁', openFile c blockSize s' = .ok (o, s₁') ∧ s₁.SameLayout s₁' := by
  have hm' := (h.holds _).mp hm
  unfold openFile
  cases hl : locate c blockSize s with
  | error e => simp only [locate_error_congr h hl]
  | ok x =>
    obtain ⟨o, s₁⟩ := x
    obtain ⟨s₁', hl'⟩ := locate_ok_congr h hl
    have hs := locate_spec hb hm hl
    have hs' := locate_spec hb hm' hl'
    simp only [hl']
    cases hd : o.direction with
    | read =>
      obtain rfl := hs.read hd
      obtain rfl := hs'.read hd
      cases hf : o.fit s₁ with
      | error e => simp only [(fit_congr h e).mp hf, Except.map]
      | ok s₂ =>
        cases hf' : o.fit s₁' with
        | error e =>
          rw [(fit_congr h e).mpr hf'] at hf
          cases hf
        | ok s₂' =>
          obtain rfl := eq_of_fit_read hd hf
          obtain rfl := eq_of_fit_read hd hf'
          exact ⟨_, rfl, h⟩
    | write =>
      rw [hs.write hd, hs'.write hd, fit_write hd, fit_write hd]
      simp only [Except.map, Storage.putFile_putFile]
      exact ⟨_, rfl, h.putFile _ (by rw [Bytes.length_resize, Bytes.length_resize])⟩

end Operation

namespace Order

open Operation

variable {s : Storage} {c : Order} {blockSize : Nat}

theorem perform_holds (hb : 0 < blockSize) (hm : s.memory.Holds c.buffer) (b : Buffer) :
    (c.perform blockSize s).2.memory.Holds b ↔ s.memory.Holds b := by
  unfold perform
  cases ho : openFile c blockSize s with
  | error e => rfl
  | ok x =>
    have hs := openFile_spec hb hm ho
    rw [(carry_sameLayout hs.ready (Nat.le_refl _)).holds b, hs.memory]

theorem perform_sameDirectories (hb : 0 < blockSize) (hm : s.memory.Holds c.buffer) :
    (c.perform blockSize s).2.SameDirectories s := by
  unfold perform
  cases ho : openFile c blockSize s with
  | error e => exact .refl s
  | ok x =>
    have hs := openFile_spec hb hm ho
    exact (carry_sameDirectories hs.ready.grounded _).trans hs.directories

/-- An order that is not refused has its file opened. -/
theorem openFile_of_perform {o : Operation} (h : (c.perform blockSize s).1 = .ok o) :
    ∃ s₁, openFile c blockSize s = .ok (o, s₁) := by
  unfold perform at h
  cases ho : openFile c blockSize s with
  | error e =>
    rw [ho] at h
    cases h
  | ok x =>
    rw [ho] at h
    cases h
    exact ⟨x.2, rfl⟩

/-- An order that is refused changes nothing. -/
theorem perform_of_refused {e : TransferError} (h : (c.perform blockSize s).1 = .error e) :
    openFile c blockSize s = .error e ∧ (c.perform blockSize s).2 = s := by
  unfold perform at h ⊢
  cases ho : openFile c blockSize s with
  | error e' =>
    rw [ho] at h
    cases h
    exact ⟨rfl, rfl⟩
  | ok x =>
    rw [ho] at h
    cases h

/-- What an order comes to depends on the layout alone. -/
theorem perform_congr {s' : Storage} (hb : 0 < blockSize) (hm : s.memory.Holds c.buffer)
    (h : s.SameLayout s') : (c.perform blockSize s).1 = (c.perform blockSize s').1 ∧
      (c.perform blockSize s).2.SameLayout (c.perform blockSize s').2 := by
  have hopen := openFile_congr hb hm h
  unfold perform
  cases ho : openFile c blockSize s with
  | error e =>
    rw [ho] at hopen
    simp only at hopen
    rw [hopen]
    exact ⟨rfl, h⟩
  | ok x =>
    obtain ⟨o, s₁⟩ := x
    rw [ho] at hopen
    obtain ⟨s₁', ho', hlayout⟩ := hopen
    have hr := (openFile_spec hb hm ho).ready
    have hr' := (openFile_spec hb ((h.holds _).mp hm) ho').ready
    rw [ho']
    exact ⟨rfl, (carry_sameLayout hr (Nat.le_refl _)).trans
      (hlayout.trans (carry_sameLayout hr' (Nat.le_refl _)).symm)⟩

theorem performAll_congr (hb : 0 < blockSize) : ∀ {calls : List Order} {s s' : Storage},
    (∀ c ∈ calls, s.memory.Holds c.buffer) → s.SameLayout s' →
      (performAll blockSize calls s).1 = (performAll blockSize calls s').1
  | [], _, _, _, _ => rfl
  | c :: calls, s, s', hm, h => by
    have hc := hm c List.mem_cons_self
    obtain ⟨hopening, hlayout⟩ := perform_congr hb hc h
    have ih := performAll_congr hb
      (fun c' (hc' : c' ∈ calls) =>
        (perform_holds hb hc _).mpr (hm c' (List.mem_cons_of_mem _ hc'))) hlayout
    simp only [performAll, hopening, ih]

theorem performAll_holds (hb : 0 < blockSize) : ∀ {calls : List Order} {s : Storage},
    (∀ c ∈ calls, s.memory.Holds c.buffer) → ∀ b,
      (performAll blockSize calls s).2.memory.Holds b ↔ s.memory.Holds b
  | [], _, _, _ => .rfl
  | c :: calls, s, hm, b => by
    have hc := hm c List.mem_cons_self
    have ih := performAll_holds hb (s := (c.perform blockSize s).2)
      fun c' (hc' : c' ∈ calls) => (perform_holds hb hc _).mpr (hm c' (List.mem_cons_of_mem _ hc'))
    exact (ih b).trans (perform_holds hb hc b)

theorem performAll_append (blockSize : Nat) : ∀ (xs ys : List Order) (s : Storage),
    performAll blockSize (xs ++ ys) s =
      ((performAll blockSize xs s).1 ++
          (performAll blockSize ys (performAll blockSize xs s).2).1,
        (performAll blockSize ys (performAll blockSize xs s).2).2)
  | [], _, _ => rfl
  | x :: xs, ys, s => by
    simp only [List.cons_append, performAll, performAll_append blockSize xs ys]

/-- If the openings fall into two parts, so do the orders. -/
theorem exists_append_of_performAll {calls : List Order} {s : Storage}
    {xs ys : List (Except TransferError Operation)}
    (h : (performAll blockSize calls s).1 = xs ++ ys) : ∃ cs ds, calls = cs ++ ds ∧
      (performAll blockSize cs s).1 = xs ∧
      (performAll blockSize ds (performAll blockSize cs s).2).1 = ys := by
  induction xs generalizing calls s with
  | nil => exact ⟨[], calls, rfl, rfl, h⟩
  | cons x xs ih =>
    cases calls with
    | nil => cases h
    | cons c calls =>
      obtain ⟨hx, htail⟩ := List.cons.inj h
      obtain ⟨cs, ds, rfl, hcs, hds⟩ := ih htail
      refine ⟨c :: cs, ds, rfl, ?_, hds⟩
      show _ :: _ = _
      rw [hcs]
      exact congrArg (· :: xs) hx

/-- Orders that are all refused change nothing. -/
theorem performAll_of_refused {calls : List Order} {s : Storage}
    (h : ∀ x ∈ (performAll blockSize calls s).1, ∃ e, x = .error e) :
    (∀ c ∈ calls, ∃ e, openFile c blockSize s = .error e) ∧
      (performAll blockSize calls s).2 = s := by
  induction calls with
  | nil => exact ⟨fun c hc => absurd hc List.not_mem_nil, rfl⟩
  | cons c calls ih =>
    obtain ⟨e, he⟩ := h _ List.mem_cons_self
    obtain ⟨hopen, hsame⟩ := perform_of_refused he
    have hrest : (performAll blockSize (c :: calls) s).1 =
        (c.perform blockSize s).1 :: (performAll blockSize calls s).1 := by
      simp only [performAll, hsame]
    rw [hrest] at h
    obtain ⟨hrefused, hsame'⟩ := ih fun x hx => h x (List.mem_cons_of_mem _ hx)
    refine ⟨fun c' hc' => ?_, ?_⟩
    · rcases List.mem_cons.mp hc' with rfl | hc'
      · exact ⟨e, hopen⟩
      · exact hrefused c' hc'
    · simp only [performAll, hsame, hsame']

/-- If all orders but the last one are refused, that one is carried out as if it
were alone. -/
theorem exists_last_of_performAll {calls : List Order} {s : Storage}
    {errors : List (Except TransferError Operation)} {o : Operation}
    (h : (performAll blockSize calls s).1 = errors ++ [.ok o])
    (herrors : ∀ x ∈ errors, ∃ e, x = .error e) : ∃ refused c s₁, calls = refused ++ [c] ∧
      (∀ c' ∈ refused, ∃ e, openFile c' blockSize s = .error e) ∧
      openFile c blockSize s = .ok (o, s₁) ∧
      (performAll blockSize calls s).2 = o.carry ⟨0, o.buffer.len⟩ s₁ := by
  obtain ⟨refused, last, rfl, hrefused, hlast⟩ := exists_append_of_performAll h
  rw [← hrefused] at herrors
  obtain ⟨hall, hsame⟩ := performAll_of_refused herrors
  rw [hsame] at hlast
  cases last with
  | nil => cases hlast
  | cons c cs =>
    obtain ⟨hc, hcs⟩ := List.cons.inj hlast
    cases cs with
    | cons c' cs => cases hcs
    | nil =>
      obtain ⟨s₁, hopen⟩ := openFile_of_perform hc
      refine ⟨refused, c, s₁, rfl, hall, hopen, ?_⟩
      simp only [performAll_append, hsame, performAll, perform, hopen]

/-- What a synchronous call answers, given what opening its file came to. The
storage tells where directories are. -/
def answer (s : Storage) : Except TransferError Operation → Except DeviceError Answer
  | .error e => .error (.transfer e)
  | .ok o =>
    match o.verdict s with
    | .error e => .error (.transfer e)
    | .ok () => .ok (.number o.buffer.len)

end Order

namespace PosixDevice

open Operation

variable {d : PosixDevice}

theorem serve_request (d : PosixDevice) (s : Storage) (c : Order) (mode : Mode) :
    d.serve s (c.request mode) = d.transfer c mode s := by
  obtain ⟨direction, buffer, path, validate⟩ := c
  cases direction <;> rfl

/-- A synchronous call carries out its order. -/
theorem serve_sync {s s₀ : Storage} {c : Order} (hb : 0 < d.settings.blockSize)
    (hm : s.memory.Holds c.buffer) (hs : s.SameDirectories s₀) :
    d.serve s (c.request .sync) =
      (Order.answer s₀ (c.perform d.settings.blockSize s).1, d,
        (c.perform d.settings.blockSize s).2) := by
  rw [serve_request, transfer, Order.perform]
  cases ho : openFile c d.settings.blockSize s with
  | error e => rfl
  | ok x =>
    obtain ⟨o, s₁⟩ := x
    have ho' := openFile_spec hb hm ho
    have hv : o.verdict s₁ = o.verdict s₀ :=
      verdict_of_sameDirectories (ho'.directories.trans hs)
    simp only [runInline_eq ho'.ready, Order.answer, hv, ← ho'.buffer]
    cases o.verdict s₀ with
    | error e => rfl
    | ok _ => rfl

/-- Synchronous calls carry out their orders in turn. -/
theorem serveAll_sync (hb : 0 < d.settings.blockSize) {s₀ : Storage} :
    ∀ (calls : List Order) {s : Storage}, (∀ c ∈ calls, s.memory.Holds c.buffer) →
      s.SameDirectories s₀ →
      d.serveAll (calls.map (·.request .sync)) s =
        ((Order.performAll d.settings.blockSize calls s).1.map (Order.answer s₀), d,
          (Order.performAll d.settings.blockSize calls s).2)
  | [], _, _, _ => rfl
  | c :: cs, s, hm, hs => by
    have hc := hm c List.mem_cons_self
    have ih := serveAll_sync hb cs (s := (c.perform d.settings.blockSize s).2)
      (fun c' hc' => (Order.perform_holds hb hc _).mpr (hm c' (List.mem_cons_of_mem _ hc')))
      ((Order.perform_sameDirectories hb hc).trans hs)
    rw [List.map_cons, serveAll, serve_sync hb hc hs]
    simp only [ih, Order.performAll, List.map_cons]

/-- What opening the files of calls comes to, one call after the other in
synchronous mode. -/
def openings (d : PosixDevice) : List Order → Storage → List (Except TransferError Operation)
  | [], _ => []
  | c :: cs, s =>
    (Operation.openFile c d.settings.blockSize s).map Prod.fst ::
      openings d cs (d.serve s (c.request .sync)).2.2

theorem openings_eq (hb : 0 < d.settings.blockSize) : ∀ (calls : List Order) {s : Storage},
    (∀ c ∈ calls, s.memory.Holds c.buffer) →
      d.openings calls s = (Order.performAll d.settings.blockSize calls s).1
  | [], _, _ => rfl
  | c :: cs, s, hm => by
    have hc := hm c List.mem_cons_self
    have ih := openings_eq hb cs (s := (c.perform d.settings.blockSize s).2)
      (fun c' hc' => (Order.perform_holds hb hc _).mpr (hm c' (List.mem_cons_of_mem _ hc')))
    have hhead : (openFile c d.settings.blockSize s).map Prod.fst =
        (c.perform d.settings.blockSize s).1 := by
      unfold Order.perform
      cases openFile c d.settings.blockSize s <;> rfl
    rw [openings, serve_sync hb hc (.refl s), ih, hhead]
    rfl

end PosixDevice
end BlockTransfer
