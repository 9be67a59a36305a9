import BlockTransfer.Proofs.Cli.Devices
import BlockTransfer.Proofs.Config.Files
/-!
# Writing and reading files from the command line

A write of a whole number of elements that can be had, through a posix device that
is loaded, leaves its file with the bytes of the pattern and nothing else; every
other failure comes before the file is opened. A read never changes a file, and
succeeds for a file of a whole number of elements. What holds of both commands is in
`Program.TransferLaw`.

Key definitions: `Program.Written`, `Program.TransferLaw`.
Key theorems: `Program.write_of_loadsPosix`, `Program.read_of_loadsPosix`,
`Program.transferLaw`.
-/

namespace BlockTransfer

/-- The world with other memory. -/
def World.withMemory (w : World) (memory : Memory) : World :=
  { w with storage := { w.storage with memory } }

namespace Program

variable {type : ElementType} {count : Nat} {content : Nat → Option Bytes} {w : World}

theorem length_pattern (len : Nat) : (pattern len).length = len := by
  simp [pattern]

/-- A buffer that can be had is made, with the content that was asked for. -/
theorem exists_makeBuffer (type : ElementType) (count : Nat) (content : Nat → Option Bytes)
    (w : World) (h : w.storage.memory.reserve none (count * type.size) = .ok ())
    (hcontent : ∀ data, content (count * type.size) = some data → data.length = count * type.size) :
    ∃ b memory, makeBuffer type count content w = .ok (b, w.withMemory memory) ∧
      b.len = count * type.size ∧ memory.Holds b ∧
      ∀ data, content (count * type.size) = some data → memory.bytes b = data := by
  have helements : w.storage.memory.reserveElements none type count = .ok (count * type.size) :=
    Memory.reserveElements_eq_ok_iff.mpr ⟨h, rfl⟩
  let x := w.storage.memory.allocate type none (Bytes.zeros (count * type.size))
  have hzeroed : w.storage.memory.zeroed? type count = .ok x := by
    simp only [Memory.zeroed?, Memory.zeroedWith?, helements, x]
  have hzeros : (Bytes.zeros (count * type.size)).length = count * type.size :=
    List.length_replicate
  have hlen : x.1.len = count * type.size := hzeros
  have hholds : x.2.Holds x.1 :=
    Memory.holds_allocate _ none (hzeros.symm ▸ Memory.le_of_reserve h)
  cases hc : content (count * type.size) with
  | none =>
    refine ⟨x.1, x.2, ?_, hlen, hholds, nofun⟩
    unfold makeBuffer
    rw [hzeroed]
    simp only [bind, Except.bind, hlen, hc]
    rfl
  | some data =>
    have hdata := hcontent data hc
    have hsame : data.length = (x.2.bytes x.1).length := by rw [hholds.length, hlen, hdata]
    refine ⟨x.1, x.2.store x.1 data, ?_, hlen, (Memory.holds_store_iff _ _ _ hsame).mpr hholds, ?_⟩
    · unfold makeBuffer
      rw [hzeroed]
      simp only [bind, Except.bind, hlen, hc, Memory.fill, hdata, if_true]
      rfl
    · intro _ heq
      cases heq
      exact Memory.bytes_store _ _ _ hholds.region

theorem makeBuffer_error (content : Nat → Option Bytes) (w : World)
    (h : w.storage.memory.reserve none (count * type.size) ≠ .ok ()) :
    ∃ e, makeBuffer type count content w = .error e := by
  cases helements : w.storage.memory.reserveElements none type count with
  | ok n => exact absurd (Memory.reserveElements_eq_ok_iff.mp helements).1 h
  | error fault =>
    refine ⟨.invalidBuffer fault, ?_⟩
    unfold makeBuffer
    simp only [Memory.zeroed?, Memory.zeroedWith?, helements]
    rfl

end Program

/-- An order to read changes no file. -/
theorem Order.files_perform {c : Order} (hc : c.direction = .read) {blockSize : Nat}
    (hb : 0 < blockSize) {s : Storage} (hm : s.memory.Holds c.buffer) :
    (c.perform blockSize s).2.files = s.files := by
  rw [perform]
  cases hopen : Operation.openFile c blockSize s with
  | error e => rfl
  | ok x =>
    obtain ⟨o, s'⟩ := x
    have hd : o.direction = .read := (Operation.openFile_spec hb hm hopen).direction.trans hc
    obtain rfl := Operation.eq_of_openFile_read hopen hd
    by_cases hdir : s'.files.entryAt? o.handle.at_ = some .directory
    · simp only [Operation.carry_directory hd hdir]
    · simp only [Operation.carry_read hd hdir, Storage.files_putBytes]

namespace Program

/-! ### Transfers -/

section

variable {i : Invocation} {env : Variables} {w w₂ : World} {direction : Direction} {file : String}
  {count : Nat} {o : TransferOptions} {content : Nat → Option Bytes}
  {d : Dispatcher World Device} {p : PosixDevice} {b : Buffer}

/-- A posix device that a command gets is at rest, and its block size is a word. -/
theorem atRest_of_has (hd : (dispatcher i env w).1 = .ok d) (hp : d.Has (.posix p)) :
    p.AtRest ∧ p.settings.blockSize < Word.count := by
  obtain ⟨c, device, hc, ⟨a, hslot, hdevice⟩, hmade⟩ := made_of_dispatcher hd
  obtain ⟨a', hslot', hdevice'⟩ := hp
  obtain rfl : a = a' := Option.some.inj (hslot.symm.trans hslot')
  rw [← hdevice, hdevice'] at hmade
  cases hmade with
  | posix atRest same => exact ⟨atRest, same ▸ (settings_of_config hc).2⟩

/-- The transfer, once a device and a buffer are there. -/
theorem transfer_eq (hd : (dispatcher i env w).1 = .ok d)
    (hb : makeBuffer o.elementType count content (dispatcher i env w).2 = .ok (b, w₂)) :
    transfer i direction file count o content env w =
      ((forwardAll (transferCalls direction b file o) d w₂).1.map fun _ => b,
        (forwardAll (transferCalls direction b file o) d w₂).2.1.close Device.platform
          (forwardAll (transferCalls direction b file o) d w₂).2.2) := by
  have hpair : dispatcher i env w = (.ok d, (dispatcher i env w).2) := Prod.ext hd rfl
  unfold transfer
  rw [hpair]
  simp only [hb]

/-- On a posix device a transfer that its byte store does not refuse succeeds. -/
theorem transfer_of_store (names : String → CanonicalPath) {store : ByteStore}
    (direction : Direction) (file : String) (hd : (dispatcher i env w).1 = .ok d)
    (hp : d.Has (.posix p))
    (hb : makeBuffer o.elementType count content (dispatcher i env w).2 = .ok (b, w₂))
    (hm : w₂.storage.memory.Holds b) (hn : w₂.storage.files.Names file (names file))
    (hstore : (p.store w₂.storage).transfer names (orderOf direction b file o) = .ok store) :
    ∃ w', transfer i direction file count o content env w = (.ok b, w') ∧ w'.storage =
      ((orderOf direction b file o).perform p.settings.blockSize w₂.storage).2 := by
  obtain ⟨hrest, hlt⟩ := atRest_of_has hd hp
  have hserved : PosixDevice.Served names p w₂.storage (accessOf direction b file o) _ _ _ :=
    PosixDevice.served_of_serves hrest hlt hm hn (.own _)
  rcases hall : p.serveAll (accessOf direction b file o).requests w₂.storage with ⟨replies, p', s'⟩
  rw [hall] at hserved
  obtain ⟨answers, rfl⟩ : ∃ answers : List Answer, replies = answers.map .ok := by
    have haccess : replies = ((p.store w₂.storage).access names (accessOf direction b file o)).1 :=
      congrArg Prod.fst hserved.access
    rw [haccess, ByteStore.access, show (p.store w₂.storage).transfer names
      (accessOf direction b file o).order = .ok store from hstore]
    dsimp only
    split
    · exact ⟨[.number _, .number 1], rfl⟩
    · exact ⟨[.number _], rfl⟩
  rw [← requests_transferCalls] at hall
  obtain ⟨d', hforward, hhas⟩ := forwardAll_of_serveAll hp hall
  refine ⟨d'.close Device.platform { w₂ with storage := s' }, ?_, ?_⟩
  · rw [transfer_eq hd hb, hforward]
    rfl
  · rw [Dispatcher.close_quiet hhas (.posix hserved.atRest.idle)]
    exact hserved.storage

/-- A call that a bare device gets fails. -/
theorem forwardAll_bare (direction : Direction) (file : String) (o : TransferOptions) (b : Buffer)
    {name : String} (hd : d.Has (.bare name)) (w : World) :
    ∃ message d', forwardAll (transferCalls direction b file o) d w = (.error message, d', w) ∧
      d'.Has (.bare name) := by
  obtain ⟨call, calls, hcalls⟩ : ∃ call calls, transferCalls direction b file o = call :: calls :=
    ⟨_, _, rfl⟩
  obtain ⟨d', hforward, hhas⟩ := Dispatcher.forward_has hd call w
    (show Device.platform.serve call.request (.bare name) w = (.error _, .bare name, w) from rfl)
  refine ⟨(DispatchError.device (unsupported name call.request)).message, d', ?_, hhas⟩
  rw [hcalls, forwardAll, hforward]
  rfl

/-- A transfer whose buffer cannot be had leaves the storage alone, and so does one
without a device. -/
theorem transfer_of_no_buffer (direction : Direction) (file : String)
    (content : Nat → Option Bytes) (h : (∃ message, (dispatcher i env w).1 = .error message) ∨
      w.storage.memory.reserve none (count * o.elementType.size) ≠ .ok ()) :
    ∃ message w', transfer i direction file count o content env w = (.error message, w') ∧
      w'.storage = w.storage := by
  have hstorage := storage_dispatcher i env w
  cases hd : (dispatcher i env w).1 with
  | error message =>
    have hpair : dispatcher i env w = (.error message, (dispatcher i env w).2) := Prod.ext hd rfl
    refine ⟨message, _, ?_, hstorage⟩
    unfold transfer
    rw [hpair]
  | ok d =>
    have hreserve := h.resolve_left fun ⟨message, herror⟩ => by
      rw [hd] at herror
      cases herror
    obtain ⟨e, hb⟩ := makeBuffer_error content (dispatcher i env w).2 (hstorage ▸ hreserve)
    have hpair : dispatcher i env w = (.ok d, (dispatcher i env w).2) := Prod.ext hd rfl
    obtain ⟨c, device, -, hhas, hmade⟩ := made_of_dispatcher hd
    refine ⟨e.message, d.close Device.platform (dispatcher i env w).2, ?_, ?_⟩
    · unfold transfer
      rw [hpair]
      simp only [hb]
    · rw [Dispatcher.close_quiet hhas hmade.quiet, hstorage]

/-- A bare device transfers nothing. -/
theorem transfer_bare {name : String} (hd : (dispatcher i env w).1 = .ok d)
    (hhas : d.Has (.bare name)) (direction : Direction) (file : String) (count : Nat)
    (o : TransferOptions) (content : Nat → Option Bytes) :
    ∃ message w', transfer i direction file count o content env w = (.error message, w') := by
  cases hb : makeBuffer o.elementType count content (dispatcher i env w).2 with
  | error e =>
    have hpair : dispatcher i env w = (.ok d, (dispatcher i env w).2) := Prod.ext hd rfl
    unfold transfer
    rw [hpair]
    simp only [hb]
    exact ⟨_, _, rfl⟩
  | ok made =>
    obtain ⟨b, w₂⟩ := made
    obtain ⟨message, d', hforward, -⟩ := forwardAll_bare direction file o b hhas w₂
    rw [transfer_eq hd hb, hforward]
    exact ⟨message, _, rfl⟩

/-- Reading never changes a file, however it goes. -/
theorem files_transfer_read :
    (transfer i .read file count o (fun _ => none) env w).2.storage.files = w.storage.files := by
  by_cases h : (∃ message, (dispatcher i env w).1 = .error message) ∨
      w.storage.memory.reserve none (count * o.elementType.size) ≠ .ok ()
  · obtain ⟨message, w', heq, hstorage⟩ := transfer_of_no_buffer .read file _ h
    rw [heq, hstorage]
  · obtain ⟨hloads, hreserve⟩ := not_or.mp h
    obtain ⟨b, memory, hb, -, hm, -⟩ := exists_makeBuffer _ _ (fun _ => none)
      (dispatcher i env w).2 ((storage_dispatcher i env w).symm ▸ not_not.mp hreserve) nofun
    cases hd : (dispatcher i env w).1 with
    | error message => exact absurd ⟨message, hd⟩ hloads
    | ok d =>
      obtain ⟨c, device, -, hhas, hmade⟩ := made_of_dispatcher hd
      rw [transfer_eq hd hb, ← storage_dispatcher i env w]
      cases hmade with
      | bare =>
        obtain ⟨message, d', hforward, hhas'⟩ := forwardAll_bare .read file o b hhas
          ((dispatcher i env w).2.withMemory memory)
        rw [hforward]
        simp only [Dispatcher.close_quiet hhas' (.bare _)]
        rfl
      | posix atRest same =>
        obtain ⟨-, hlt⟩ := atRest_of_has hd hhas
        obtain ⟨answers, d', w', p', hforward, hhas', hidle, hleft⟩ := forwardAll_posix
          (w := (dispatcher i env w).2.withMemory memory) .read file o hhas atRest hlt hm
        rw [hforward]
        simp only [Dispatcher.close_quiet hhas' (.posix hidle), hleft]
        exact Order.files_perform (c := orderOf .read b file o) rfl atRest.blockSize_pos hm

end

/-! ### The two commands -/

section

variable {i : Invocation} {env : Variables} {w : World} {file : String} {size : Nat}
  {o : TransferOptions} {p : CanonicalPath}

/-- What a write reports. -/
def wrote (noColor : Bool) (size : Nat) (file : String) : List Piece :=
  [.text s!"{tick noColor} Wrote {size} bytes to {file} in ", .elapsed, .text "s\n"]

/-- What a read reports. -/
def didRead (noColor : Bool) (size count : Nat) (type : ElementType) (file : String) : List Piece :=
  [.text s!"{tick noColor} Read {size} bytes ({count} x {type.name}) from ",
    .text s!"{file} in ", .elapsed, .text "s\n"]

theorem elementCount_of_dvd {type : ElementType} (h : type.size ∣ size) :
    elementCount size type = .ok (size / type.size) := by
  rw [elementCount, if_pos (Nat.mod_eq_zero_of_dvd h)]

theorem elementCount_of_not_dvd {type : ElementType} (h : ¬type.size ∣ size) :
    ∃ message, elementCount size type = .error message :=
  ⟨_, by rw [elementCount, if_neg fun hmod => h (Nat.dvd_of_mod_eq_zero hmod)]⟩

theorem write_of_loadsPosix (hp : LoadsPosix i env w) (hn : w.storage.files.Names file p)
    (hdvd : o.elementType.size ∣ size)
    (hreserve : w.storage.memory.reserve none size = .ok ()) : ∃ w', write i file size o env w =
        (.ok (wrote i.noColor size file), w') ∧
      w'.storage.files = w.storage.files.insert p (.file (pattern size)) := by
  obtain ⟨d, device, hd, hhas⟩ := hp
  have hstorage := storage_dispatcher i env w
  have hcount : size / o.elementType.size * o.elementType.size = size := Nat.div_mul_cancel hdvd
  obtain ⟨b, memory, hb, hlen, hm, hbytes⟩ := exists_makeBuffer o.elementType
    (size / o.elementType.size) (fun len => some (pattern len)) (dispatcher i env w).2
    (by rwa [hcount, hstorage])
    (fun data hdata => Option.some.inj hdata ▸ length_pattern _)
  have hn' : (dispatcher i env w).2.storage.files.Names file p := by rwa [hstorage]
  obtain ⟨w', heq, hleft⟩ := transfer_of_store (fun _ => p) .write file hd hhas hb hm hn' rfl
  refine ⟨w', ?_, ?_⟩
  · unfold write
    rw [elementCount_of_dvd hdvd]
    simp only [heq, Except.map, hlen, hcount]
    rfl
  · rw [hleft, Order.perform_write hm rfl hn', Storage.files_putFile, ← hstorage]
    exact congrArg (fun data => FileSystem.insert _ p (.file data))
      ((hbytes _ rfl).trans (by rw [hcount]))

/-- A write that cannot go well opens no file. -/
theorem write_refused (file : String) (h : ¬o.elementType.size ∣ size ∨
    (∃ message, (dispatcher i env w).1 = .error message) ∨
      w.storage.memory.reserve none size ≠ .ok ()) :
    ∃ message w', write i file size o env w = (.error message, w') ∧ w'.storage = w.storage := by
  unfold write
  by_cases hdvd : o.elementType.size ∣ size
  · have hcount : size / o.elementType.size * o.elementType.size = size := Nat.div_mul_cancel hdvd
    rw [elementCount_of_dvd hdvd]
    obtain ⟨message, w', heq, hstorage⟩ := transfer_of_no_buffer .write
      file (fun len => some (pattern len)) (hcount.symm ▸ h.resolve_left (not_not.mpr hdvd))
    exact ⟨message, w', by simp only [heq, Except.map], hstorage⟩
  · obtain ⟨message, herror⟩ := elementCount_of_not_dvd hdvd
    exact ⟨message, w, by rw [herror], rfl⟩

/-- A bare device writes nothing, and the command fails. -/
theorem write_bare {d : Dispatcher World Device} {name : String}
    (hd : (dispatcher i env w).1 = .ok d) (hhas : d.Has (.bare name)) (file : String) (size : Nat)
    (o : TransferOptions) : ∃ message w', write i file size o env w = (.error message, w') := by
  unfold write
  cases elementCount size o.elementType with
  | error message => exact ⟨message, w, rfl⟩
  | ok count =>
    obtain ⟨message, w', heq⟩ := transfer_bare hd hhas .write file count o
      fun len => some (pattern len)
    exact ⟨message, w', by simp only [heq, Except.map]⟩

theorem read_of_loadsPosix {data : Bytes} (hp : LoadsPosix i env w)
    (hn : w.storage.files.Names file p) (hdata : w.storage.files.bytes? p = some data)
    (hreserve : w.storage.memory.reserve none data.length = .ok ()) :
    if o.elementType.size ∣ data.length then
      (read i file o env w).1 =
        .ok (didRead i.noColor data.length (data.length / o.elementType.size) o.elementType file)
    else ∃ message, (read i file o env w).1 = .error message := by
  have hlength : w.storage.files.length ⟨p⟩ = data.length :=
    FileSystem.length_eq (FileSystem.bytes?_eq_some_iff.mp hdata)
  unfold read
  rw [hn.openRead_of_some hdata]
  simp only [hlength]
  split
  · rename_i hdvd
    obtain ⟨d, device, hd, hhas⟩ := hp
    have hstorage := storage_dispatcher i env w
    have hcount : data.length / o.elementType.size * o.elementType.size = data.length :=
      Nat.div_mul_cancel hdvd
    obtain ⟨b, memory, hb, hlen, hm, -⟩ := exists_makeBuffer o.elementType
      (data.length / o.elementType.size) (fun _ => none) (dispatcher i env w).2
      (by rwa [hcount, hstorage]) nofun
    rw [hcount] at hlen
    have hn' : (dispatcher i env w).2.storage.files.Names file p := by rwa [hstorage]
    have hdata' : (dispatcher i env w).2.storage.files.bytes? p = some data := by rwa [hstorage]
    let w₂ := (dispatcher i env w).2.withMemory memory
    have hstore : (device.store w₂.storage).transfer (fun _ => p) (orderOf .read b file o) =
        .ok { device.store w₂.storage with memory := memory.store b (data.take b.len) } := by
      show ByteStore.read _ file p b = _
      rw [ByteStore.read, show (device.store w₂.storage).files p = some data from hdata']
      exact if_neg (by omega)
    obtain ⟨w', heq, -⟩ := transfer_of_store (fun _ => p) .read file hd hhas hb hm hn' hstore
    rw [elementCount_of_dvd hdvd]
    simp only [heq, Except.map, hlen]
    rfl
  · rename_i hdvd
    obtain ⟨message, herror⟩ := elementCount_of_not_dvd hdvd
    exact ⟨message, by rw [herror]⟩

/-- Reading never changes a file. -/
theorem files_read : (read i file o env w).2.storage.files = w.storage.files := by
  unfold read
  split
  · rfl
  · split
    · rfl
    · exact files_transfer_read

end

/-! ### Runs of the program -/

/-- The file at `p` has `size` bytes, of which each tells its place modulo 251, and
nothing else changed. -/
structure Written (files files' : FileSystem) (p : CanonicalPath) (size : Nat) : Prop where
  data : ∃ data, files'.bytes? p = some data ∧ data.length = size ∧
    ∀ i < size, (data[i]?).map UInt8.toNat = some (i % 251)
  others : ∀ q, q ≠ p → files'.entryAt? q = files.entryAt? q

theorem written_insert {files : FileSystem} {p : CanonicalPath} (hp : p ≠ []) (size : Nat) :
    Written files (files.insert p (.file (pattern size))) p size where
  data := by
    refine ⟨pattern size, ?_, length_pattern size, fun i hi => ?_⟩
    · rw [FileSystem.bytes?_eq_some_iff, FileSystem.entryAt?_insert_self _ hp]
    · have hsmall : i % 251 < 256 := Nat.lt_trans (Nat.mod_lt i (by decide)) (by decide)
      simp only [pattern, List.getElem?_map, List.getElem?_range hi, Option.map_some,
        UInt8.toNat_ofNat', Nat.mod_eq_of_lt hsmall]
  others q hq := FileSystem.entryAt?_insert_of_ne _ hq

section

variable {parse : List String → Except Arguments.Stop Invocation} {args args' : List String}
  {env env' : Variables} {w w' : World} {i i' : Invocation} {file : String} {size : Nat}
  {o o' : TransferOptions} {p : CanonicalPath} {data : Bytes} {c : Config}

theorem run_ok {pieces : List Piece} (hi : parse args = .ok i)
    (h : perform i env w = (.ok pieces, w')) :
    runWith parse args env w = (⟨0, pieces, none⟩, w') := by
  rw [runWith, hi]
  simp only [h]

theorem run_error {message : String} (hi : parse args = .ok i)
    (h : perform i env w = (.error message, w')) :
    runWith parse args env w = (⟨1, [], some ("Error: " ++ message)⟩, w') := by
  rw [runWith, hi]
  simp only [h]

/-- How the commands that write and read a file go, in an environment and a world, whatever
takes their arguments apart. -/
structure TransferLaw (parse : List String → Except Arguments.Stop Invocation) (env : Variables)
    (w : World) : Prop where
  /-- The program's own posix device, if it is selected, is there exactly if its engine
  starts; otherwise the command has no device. -/
  selects : ∀ i c, config i env w = .ok c → selected? i c = some PosixDevice.typeName →
    (LoadsPosix i env w ↔ ∃ e, Engine.start w.host c.settings = .ok e) ∧
      (LoadsPosix i env w ∨ ∃ message, (dispatcher i env w).1 = .error message)
  /-- A write of whole elements that can be had sets its file and nothing else. -/
  write : ∀ args i file size o p, parse args = .ok i → i.command = .write file size o →
    w.storage.files.Names file p → LoadsPosix i env w → o.elementType.size ∣ size →
    w.storage.memory.reserve none size = .ok () →
    (runWith parse args env w).1 = ⟨0, wrote i.noColor size file, none⟩ ∧
      Written w.storage.files (runWith parse args env w).2.storage.files p size
  /-- A write of a broken element, without a device or without a buffer fails, and
  leaves all files alone. -/
  refuse : ∀ args i file size o, parse args = .ok i → i.command = .write file size o →
    (¬o.elementType.size ∣ size ∨ (∃ message, (dispatcher i env w).1 = .error message) ∨
      w.storage.memory.reserve none size ≠ .ok ()) →
    (runWith parse args env w).1.status ≠ 0 ∧
      (runWith parse args env w).2.storage.files = w.storage.files
  /-- A read of a file succeeds exactly if the file is a whole number of elements. -/
  read : ∀ args i file o p data, parse args = .ok i → i.command = .read file o →
    w.storage.files.Names file p → w.storage.files.bytes? p = some data → LoadsPosix i env w →
    w.storage.memory.reserve none data.length = .ok () →
    ((runWith parse args env w).1.status = 0 ↔ o.elementType.size ∣ data.length) ∧
      ((runWith parse args env w).1.status = 0 →
        (runWith parse args env w).1 = ⟨0, didRead i.noColor data.length
          (data.length / o.elementType.size) o.elementType file, none⟩)
  /-- However a read goes, it changes no file. -/
  keep : ∀ args i file o, parse args = .ok i → i.command = .read file o →
    (runWith parse args env w).2.storage.files = w.storage.files
  /-- What was written can be read as elements of the same type, in any environment and any
  world with the files that are left, where there is a posix device and a buffer. -/
  readBack : ∀ args args' i i' file size o o' p env' w', parse args = .ok i →
    parse args' = .ok i' → i.command = .write file size o → i'.command = .read file o' →
    o'.elementType = o.elementType → w.storage.files.Names file p →
    (runWith parse args env w).1.status = 0 →
    w'.storage.files = (runWith parse args env w).2.storage.files → LoadsPosix i' env' w' →
    w'.storage.memory.reserve none size = .ok () →
    (runWith parse args' env' w').1 =
      ⟨0, didRead i'.noColor size (size / o.elementType.size) o.elementType file, none⟩
  /-- A later command has the same configuration, unless one of its files was written, if
  entries come in the same order and the user has the same home. -/
  keepsConfig : ∀ args i i' file size o p w', parse args = .ok i →
    i.command = .write file size o → i'.project = i.project → w.storage.files.Names file p →
    (runWith parse args env w).1.status = 0 →
    w'.storage.files = (runWith parse args env w).2.storage.files →
    w'.host.arrangement = w.host.arrangement → w'.host.home? = w.host.home? →
    ¬(sources i env w').Reads p → ∀ c, config i env w = .ok c → config i' env w' = .ok c

theorem run_write (hi : parse args = .ok i) (hc : i.command = .write file size o)
    (hn : w.storage.files.Names file p) (hp : LoadsPosix i env w)
    (hdvd : o.elementType.size ∣ size) (hreserve : w.storage.memory.reserve none size = .ok ()) :
    (runWith parse args env w).1 = ⟨0, wrote i.noColor size file, none⟩ ∧
      (runWith parse args env w).2.storage.files =
        w.storage.files.insert p (.file (pattern size)) := by
  obtain ⟨w', hwrite, hfiles⟩ := write_of_loadsPosix hp hn hdvd hreserve
  rw [run_ok hi (by rw [perform, hc]; exact hwrite)]
  exact ⟨rfl, hfiles⟩

theorem run_refused (hi : parse args = .ok i) (hc : i.command = .write file size o)
    (h : ¬o.elementType.size ∣ size ∨ (∃ message, (dispatcher i env w).1 = .error message) ∨
      w.storage.memory.reserve none size ≠ .ok ()) :
    (runWith parse args env w).1.status ≠ 0 ∧
      (runWith parse args env w).2.storage.files = w.storage.files := by
  obtain ⟨message, w', hwrite, hstorage⟩ := write_refused file h
  rw [run_error hi (by rw [perform, hc]; exact hwrite), hstorage]
  exact ⟨Nat.one_ne_zero, rfl⟩

theorem run_read (hi : parse args = .ok i) (hc : i.command = .read file o)
    (hn : w.storage.files.Names file p) (hdata : w.storage.files.bytes? p = some data)
    (hp : LoadsPosix i env w) (hreserve : w.storage.memory.reserve none data.length = .ok ()) :
    if o.elementType.size ∣ data.length then
      (runWith parse args env w).1 = ⟨0, didRead i.noColor data.length
        (data.length / o.elementType.size) o.elementType file, none⟩
    else (runWith parse args env w).1.status ≠ 0 := by
  have h := read_of_loadsPosix (o := o) hp hn hdata hreserve
  have hperform : perform i env w = read i file o env w := by rw [perform, hc]
  split
  · rename_i hdvd
    rw [if_pos hdvd] at h
    rw [run_ok hi (hperform.trans (Prod.ext h rfl))]
  · rename_i hdvd
    rw [if_neg hdvd] at h
    obtain ⟨message, herror⟩ := h
    rw [run_error hi (hperform.trans (Prod.ext herror rfl))]
    exact Nat.one_ne_zero

/-- Only a posix device writes, and only whole elements that can be had. -/
theorem written_of_run (hi : parse args = .ok i) (hc : i.command = .write file size o)
    (hn : w.storage.files.Names file p) (hstatus : (runWith parse args env w).1.status = 0) :
    o.elementType.size ∣ size ∧ (runWith parse args env w).2.storage.files =
      w.storage.files.insert p (.file (pattern size)) := by
  have hno : ¬(¬o.elementType.size ∣ size ∨ (∃ message, (dispatcher i env w).1 = .error message) ∨
      w.storage.memory.reserve none size ≠ .ok ()) := fun h => (run_refused hi hc h).1 hstatus
  have hdvd : o.elementType.size ∣ size := not_not.mp fun h => hno (.inl h)
  have hreserve : w.storage.memory.reserve none size = .ok () :=
    not_not.mp fun h => hno (.inr (.inr h))
  obtain ⟨d, hd⟩ : ∃ d, (dispatcher i env w).1 = .ok d := by
    cases hd : (dispatcher i env w).1 with
    | ok d => exact ⟨d, rfl⟩
    | error message => exact absurd (.inr (.inl ⟨message, hd⟩)) hno
  obtain ⟨c, device, -, hhas, hmade⟩ := made_of_dispatcher hd
  cases hmade with
  | posix atRest same => exact ⟨hdvd, (run_write hi hc hn ⟨d, _, hd, hhas⟩ hdvd hreserve).2⟩
  | bare =>
    obtain ⟨message, w', hwrite⟩ := write_bare hd hhas file size o
    rw [run_error hi (by rw [perform, hc]; exact hwrite)] at hstatus
    exact absurd hstatus Nat.one_ne_zero

theorem run_readBack (hi : parse args = .ok i) (hi' : parse args' = .ok i')
    (hc : i.command = .write file size o) (hc' : i'.command = .read file o')
    (htype : o'.elementType = o.elementType) (hn : w.storage.files.Names file p)
    (hstatus : (runWith parse args env w).1.status = 0)
    (hleft : w'.storage.files = (runWith parse args env w).2.storage.files)
    (hp : LoadsPosix i' env' w') (hreserve : w'.storage.memory.reserve none size = .ok ()) :
    (runWith parse args' env' w').1 =
      ⟨0, didRead i'.noColor size (size / o.elementType.size) o.elementType file, none⟩ := by
  obtain ⟨hdvd, hfiles⟩ := written_of_run hi hc hn hstatus
  rw [hfiles] at hleft
  have hn' : w'.storage.files.Names file p := by
    rw [hleft]
    exact hn.insert hn _
  have hdata : w'.storage.files.bytes? p = some (pattern size) := by
    rw [hleft, FileSystem.bytes?_eq_some_iff, FileSystem.entryAt?_insert_self _ hn.ne_nil]
  have hread := run_read (o := o') hi' hc' hn' hdata hp (by rwa [length_pattern])
  rw [length_pattern, htype, if_pos hdvd] at hread
  exact hread

theorem config_eq_ok_iff : config i env w = .ok c ↔ (sources i env w).load = .ok c := by
  unfold config
  cases (sources i env w).load with
  | ok c' => simp
  | error e => exact ⟨nofun, nofun⟩

theorem run_keepsConfig (hi : parse args = .ok i) (hc : i.command = .write file size o)
    (hproject : i'.project = i.project) (hn : w.storage.files.Names file p)
    (hstatus : (runWith parse args env w).1.status = 0)
    (hleft : w'.storage.files = (runWith parse args env w).2.storage.files)
    (harrangement : w'.host.arrangement = w.host.arrangement)
    (hhome : w'.host.home? = w.host.home?) (hreads : ¬(sources i env w').Reads p)
    (hconfig : config i env w = .ok c) : config i' env w' = .ok c := by
  rw [(written_of_run hi hc hn hstatus).2] at hleft
  have hsame {j : Invocation} (hj : j.project = i.project) : sources j env w' =
      (sources i env w).within (w.storage.files.insert p (.file (pattern size))) := by
    unfold sources ConfigSources.within
    rw [hj, hleft, harrangement, hhome]
  rw [config_eq_ok_iff] at hconfig ⊢
  rw [hsame rfl] at hreads
  rw [hsame hproject, ← hconfig]
  exact ConfigSources.load_insert hn.sort hn.ne_nil hreads

/-- The law holds in every environment and every world. -/
theorem transferLaw (parse : List String → Except Arguments.Stop Invocation) (env : Variables)
    (w : World) : TransferLaw parse env w where
  selects _ _ hc hs := loadsPosix_iff hc hs
  write _ _ _ _ _ _ hi hc hn hp hdvd hreserve := by
    obtain ⟨houtcome, hfiles⟩ := run_write hi hc hn hp hdvd hreserve
    exact ⟨houtcome, hfiles ▸ written_insert hn.ne_nil _⟩
  refuse _ _ _ _ _ hi hc h := run_refused hi hc h
  read _ _ _ _ _ _ hi hc hn hdata hp hreserve := by
    have h := run_read hi hc hn hdata hp hreserve
    split at h
    · rename_i hdvd
      rw [h]
      exact ⟨⟨fun _ => hdvd, fun _ => rfl⟩, fun _ => rfl⟩
    · rename_i hdvd
      exact ⟨⟨fun h0 => absurd h0 h, fun hd => absurd hd hdvd⟩, fun h0 => absurd h0 h⟩
  keep args i file o hi hc := by
    have hfiles : (Program.read i file o env w).2.storage.files = w.storage.files := files_read
    have hperform : perform i env w = Program.read i file o env w := by rw [perform, hc]
    cases h : (Program.read i file o env w).1 with
    | ok pieces => rw [run_ok hi (hperform.trans (Prod.ext h rfl)), hfiles]
    | error message => rw [run_error hi (hperform.trans (Prod.ext h rfl)), hfiles]
  readBack _ _ _ _ _ _ _ _ _ _ _ hi hi' hc hc' htype hn hstatus hleft hp hreserve :=
    run_readBack hi hi' hc hc' htype hn hstatus hleft hp hreserve
  keepsConfig _ _ _ _ _ _ _ _ hi hc hproject hn hstatus hleft harrangement hhome hreads _ hconfig :=
    run_keepsConfig hi hc hproject hn hstatus hleft harrangement hhome hreads hconfig

end

/-- Six bytes are written asynchronously in an empty directory, and read as three
elements of two bytes. Seven bytes are not written. -/
theorem transferLaw_write_then_read : ∃ w w' : World,
    (run ["write", "out", "-s", "6", "--async", "-e", "u16"] [] w).1 =
      ⟨0, wrote false 6 "out", none⟩ ∧
    Written w.storage.files
      (run ["write", "out", "-s", "6", "--async", "-e", "u16"] [] w).2.storage.files ["out"] 6 ∧
    (run ["read", "out", "-e", "U16"] [] w').1 = ⟨0, didRead false 6 3 .u16 "out", none⟩ ∧
    (run ["write", "out", "-s", "7", "-e", "u16"] [] w).1.status ≠ 0 := by
  let w : World := { nextPool := 1 }
  let o : TransferOptions := { elementType := .u16, async := true }
  let i : Invocation := { command := .write "out" 6 o }
  let i' : Invocation := { command := .read "out" { elementType := .u16 } }
  let j : Invocation := { command := .write "out" 7 { elementType := .u16 } }
  have hi : Arguments.parse ["write", "out", "-s", "6", "--async", "-e", "u16"] = .ok i := by
    decide +kernel
  have hi' : Arguments.parse ["read", "out", "-e", "U16"] = .ok i' := by decide +kernel
  have hj : Arguments.parse ["write", "out", "-s", "7", "-e", "u16"] = .ok j := by decide +kernel
  let law := transferLaw Arguments.parse [] w
  have hconfig : config i [] w = .ok { pluginsRoot := "./plugins" } := by decide +kernel
  have hn : w.storage.files.Names "out" ["out"] := by decide +kernel
  have hposix : LoadsPosix i [] w := (law.selects i _ hconfig rfl).1.mpr ⟨_, rfl⟩
  obtain ⟨hwrite, hwritten⟩ :=
    law.write _ i "out" 6 o ["out"] hi rfl hn hposix (by decide) (by decide)
  have hstatus := congrArg Outcome.status hwrite
  let w' : World := {
    storage := { files := w.storage.files.insert ["out"] (.file (pattern 6)) }, nextPool := 1 }
  have hleft : w'.storage.files = (runWith Arguments.parse _ [] w).2.storage.files :=
    (run_write hi rfl hn hposix (by decide) (by decide)).2.symm
  have hreads : ¬(sources i [] w').Reads ["out"] := by decide +kernel
  have hconfig' : config i' [] w' = .ok { pluginsRoot := "./plugins" } :=
    law.keepsConfig _ i i' "out" 6 o _ w' hi rfl rfl hn hstatus hleft rfl rfl hreads _ hconfig
  have hposix' : LoadsPosix i' [] w' :=
    ((transferLaw Arguments.parse [] w').selects i' _ hconfig' rfl).1.mpr ⟨_, rfl⟩
  have hback := law.readBack _ _ i i' "out" 6 o _ ["out"] [] w' hi hi' rfl rfl rfl hn hstatus hleft
    hposix' (by decide)
  have hcount : 6 / o.elementType.size = 3 := by decide
  rw [hcount] at hback
  exact ⟨w, w', hwrite, hwritten, hback, (law.refuse _ j "out" 7 _ hj rfl (.inl (by decide))).1⟩

end Program
end BlockTransfer
