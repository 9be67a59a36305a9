import BlockTransfer.Cli.Program
import BlockTransfer.Proofs.Config.Ranges
import BlockTransfer.Proofs.Device.ByteStore
import BlockTransfer.Proofs.Device.Loading
import BlockTransfer.Proofs.Device.Waiting
/-!
# The device of a command

A command loads the device that its arguments or its configuration select. Loading
touches no file and no memory (`Device.storage_load`), and what is loaded is a bare
device or a posix device at rest (`Program.made_of_dispatcher`); the posix device of
the program itself, if it is selected, is loaded exactly if its engine starts
(`Program.loadsPosix_iff`).

A transfer puts one call to the device, and waits if the call is asynchronous. On a
posix device the files are then what carrying the order out at once makes of them,
and giving the device up leaves them so (`Program.forwardAll_posix`,
`Dispatcher.close_quiet`).

Key definitions: `Program.selected?`, `Program.LoadsPosix`, `Dispatcher.Has`,
`Program.Performs`.
Key theorems: `Program.dispatcher_eq`, `Program.loadsPosix_iff`,
`Program.forwardAll_posix`, `Dispatcher.close_quiet`.
-/

namespace BlockTransfer

/-! ### Loading leaves the storage alone -/

namespace Device

variable {l : Loader World Device} {t path : String} {w w' : World}

theorem storage_createPosix (settings : DeviceSettings) (w : World) :
    (createPosix settings w).2.storage = w.storage := by
  unfold createPosix
  split <;> rfl

theorem storage_ofBackend (library : Nat) (backend : ModuleBackend) (settings : DeviceSettings)
    (w : World) : (ofBackend library backend settings w).2.storage = w.storage := by
  cases backend with
  | posix =>
    simp only [ofBackend, createPosixIn]
    split <;> rfl
  | _ => rfl

theorem storage_instantiate {create : Factory World Device}
    (hc : ∀ settings w, (create settings w).2.storage = w.storage) (t : String)
    (settings : DeviceSettings) (w : World) :
    (Loader.instantiate create t settings w).2.storage = w.storage := by
  have h := hc settings w
  unfold Loader.instantiate
  split <;> rename_i heq <;> rwa [heq] at h

/-- Loading one of the program's devices touches no file and no memory. -/
theorem storage_load (hr : l.registry = registry) (t : String) (w : World) :
    (l.load platform t w).2.storage = w.storage := by
  unfold Loader.load
  split
  · rename_i create hget
    rw [hr] at hget
    have hmade : (Loader.instantiate create t l.settings w).2.storage = w.storage := by
      rw [create_of_registry hget]
      exact storage_instantiate storage_createPosix t l.settings w
    split <;> rename_i heq <;> rwa [heq] at hmade
  · unfold Loader.loadModule
    split
    · rfl
    · rename_i library w₁ hopen
      obtain ⟨c, libraries, -, -, rfl, hentry⟩ := openLibrary_ok hopen
      split
      · rfl
      · rename_i create hcheck
        obtain ⟨entry, hlibrary, rfl⟩ := Loader.checkEntry_ok hcheck
        obtain ⟨backend, hbackend⟩ := hentry entry hlibrary
        rw [hbackend]
        have hmade := storage_instantiate (storage_ofBackend c.number backend) t l.settings
          { w with libraries }
        split <;> rename_i heq <;> rw [heq] at hmade <;> exact hmade

/-- What is made for a command: a device that implements nothing, or a posix device
at rest with the settings of the configuration. -/
inductive Made (settings : DeviceSettings) : Device → Prop where
  | bare : Made settings (.bare "bare")
  | posix {p : PosixDevice} (atRest : p.AtRest) (same : p.settings = settings) :
    Made settings (.posix p)

theorem made_createPosix {host : Host} {settings : DeviceSettings} {pool : Nat} {p : PosixDevice}
    (h : PosixDevice.create host settings pool = .ok p) : Made settings (.posix p) :=
  .posix (PosixDevice.atRest_create h).1 (PosixDevice.atRest_create h).2

theorem made_load (hr : l.registry = registry) {loaded : LoadedDevice Device}
    (h : l.load platform t w = (.ok loaded, w')) : Made l.settings loaded.device := by
  cases loaded_load h with
  | bare => exact .bare
  | posix _ make => exact made_createPosix make
  | builtin get make =>
    rw [hr] at get
    obtain rfl := create_of_registry get
    unfold createPosix at make
    split at make <;> cases make
    exact made_createPosix ‹_›

end Device

/-! ### The device that is selected -/

namespace Program

variable {i : Invocation} {env : Variables} {w w' : World} {c : Config}

/-- The configuration with the device type that the arguments ask for. -/
def chosen (i : Invocation) (c : Config) : Config :=
  match i.device with
  | some t => { c with defaultType := some t }
  | none => c

/-- The device type that the arguments or else the configuration ask for. -/
def selected? (i : Invocation) (c : Config) : Option String := (chosen i c).defaultDevice?

/-- The loader that a configuration asks for. -/
def loaderOf (c : Config) : Loader World Device := ⟨c.pluginsRoot, Device.registry, c.settings⟩

/-- The dispatcher of a command, with a device loaded. -/
def holding (c : Config) (loaded : LoadedDevice Device) : Dispatcher World Device :=
  { loader := loaderOf c
    policy := c.lockedBuffers
    slot := some { loaded, generation := 1 }
    lastGeneration := 1 }

theorem settings_chosen (i : Invocation) (c : Config) : (chosen i c).settings = c.settings := by
  unfold chosen
  split <;> rfl

/-- Loading the device of a command is loading the type that is selected. -/
theorem dispatcher_eq (hc : config i env w = .ok c) : dispatcher i env w =
    match selected? i c with
    | none => (.error "No device selected. Pass --device or set [device] default_type.", w)
    | some t =>
      match (loaderOf (chosen i c)).load Device.platform t w with
      | (.error _, w) => (.error "Failed to load device", w)
      | (.ok loaded, w) => (.ok (holding (chosen i c) loaded), w) := by
  unfold dispatcher selected?
  rw [hc]
  cases hdevice : i.device <;> simp only [chosen, hdevice, Config.dispatcher]
  all_goals
    rcases Config.defaultDevice? _ with _ | t
    · rfl
    · simp only [Dispatcher.load, Dispatcher.drainCurrent, Dispatcher.checkOutstanding, loaderOf]
      rcases Loader.load Device.platform _ t w with ⟨_ | loaded, w'⟩ <;> rfl

/-- No file is touched before the transfer. -/
theorem storage_dispatcher (i : Invocation) (env : Variables) (w : World) :
    (dispatcher i env w).2.storage = w.storage := by
  cases hc : config i env w with
  | error message =>
    unfold dispatcher
    rw [hc]
  | ok c =>
    rw [dispatcher_eq hc]
    cases selected? i c with
    | none => rfl
    | some t =>
      have h := Device.storage_load (l := loaderOf (chosen i c)) rfl t w
      simp only
      split <;> rename_i heq <;> rwa [heq] at h

end Program

/-- The device is the active one. -/
def Dispatcher.Has (d : Dispatcher World Device) (device : Device) : Prop :=
  ∃ a, d.slot = some a ∧ a.loaded.device = device

namespace Program

variable {i : Invocation} {env : Variables} {w w' : World} {c : Config}
  {d : Dispatcher World Device}

/-- The command gets a posix device, the program's own or one of a module. -/
def LoadsPosix (i : Invocation) (env : Variables) (w : World) : Prop :=
  ∃ d p, (dispatcher i env w).1 = .ok d ∧ d.Has (.posix p)

/-- A configuration is there, and its device is of one of two kinds. -/
theorem made_of_dispatcher (h : (dispatcher i env w).1 = .ok d) : ∃ c device,
    config i env w = .ok c ∧ d.Has device ∧ device.Made c.settings := by
  cases hc : config i env w with
  | error message =>
    unfold dispatcher at h
    rw [hc] at h
    cases h
  | ok c =>
    rw [dispatcher_eq hc] at h
    cases hs : selected? i c with
    | none =>
      rw [hs] at h
      cases h
    | some t =>
      rw [hs] at h
      simp only at h
      split at h
      · cases h
      · rename_i loaded w' hload
        cases h
        have hmade := Device.made_load rfl hload
        rw [loaderOf, settings_chosen] at hmade
        exact ⟨c, loaded.device, rfl, ⟨_, rfl, rfl⟩, hmade⟩

/-- What a configuration that was loaded keeps to. -/
theorem settings_of_config (hc : config i env w = .ok c) :
    c.settings.Valid ∧ c.settings.blockSize < Word.count := by
  unfold config at hc
  split at hc
  · cases hc
    exact ConfigSources.settings_of_load ‹_›
  · cases hc

/-- If the program's own posix device is selected, it is loaded exactly if its engine
starts; otherwise there is no device. -/
theorem loadsPosix_iff (hc : config i env w = .ok c)
    (hs : selected? i c = some PosixDevice.typeName) :
    (LoadsPosix i env w ↔ ∃ e, Engine.start w.host c.settings = .ok e) ∧
      (LoadsPosix i env w ∨ ∃ message, (dispatcher i env w).1 = .error message) := by
  obtain ⟨hvalid, -⟩ := settings_of_config hc
  have hcheck := (DeviceSettings.check_eq_ok_iff c.settings).mpr hvalid
  have hget : (loaderOf (chosen i c)).registry.get? PosixDevice.typeName =
      some Device.createPosix := rfl
  cases hstart : Engine.start w.host c.settings with
  | error fault =>
    have hcreate : PosixDevice.create w.host (loaderOf (chosen i c)).settings w.nextPool =
        .error (PosixDevice.ofStartFault fault) := by
      rw [loaderOf, settings_chosen, PosixDevice.create, hcheck]
      simp only [hstart]
    have hnone : (dispatcher i env w).1 = .error "Failed to load device" := by
      rw [dispatcher_eq hc, hs]
      simp only [Loader.load, hget, Loader.instantiate, Device.createPosix, hcreate]
      cases fault <;> rfl
    refine ⟨⟨fun ⟨d, p, hd, _⟩ => ?_, nofun⟩, .inr ⟨_, hnone⟩⟩
    cases hnone.symm.trans hd
  | ok engine =>
    let p : PosixDevice := ⟨c.settings, engine, ⟨w.nextPool, 1, []⟩⟩
    have hcreate : PosixDevice.create w.host (loaderOf (chosen i c)).settings w.nextPool =
        .ok p := by
      rw [loaderOf, settings_chosen, PosixDevice.create, hcheck]
      simp only [hstart, p]
    have hload : (loaderOf (chosen i c)).load Device.platform PosixDevice.typeName w =
        (.ok ⟨.posix p, PosixDevice.typeName, .builtin⟩,
          { w with nextPool := w.nextPool + 1 }) := by
      simp only [Loader.load, hget, Loader.instantiate, Device.createPosix, hcreate]
    have hloads : LoadsPosix i env w := by
      refine ⟨holding (chosen i c) ⟨.posix p, PosixDevice.typeName, .builtin⟩, p, ?_,
        ⟨_, rfl, rfl⟩⟩
      rw [dispatcher_eq hc, hs]
      simp only [hload]
    exact ⟨⟨fun _ => ⟨engine, rfl⟩, fun _ => hloads⟩, .inl hloads⟩

end Program

/-! ### Calls to the device -/

theorem PosixDevice.AtRest.idle {p : PosixDevice} (h : p.AtRest) : p.Idle where
  inboxes b hb := by
    rw [h.inboxes] at hb
    exact List.eq_of_mem_replicate hb
  completed := by rw [h.completion]
  failures := by rw [h.completion]

/-- The device has nothing to wait for. -/
inductive Device.Quiet : Device → Prop where
  | bare (name : String) : Quiet (.bare name)
  | posix {p : PosixDevice} (idle : p.Idle) : Quiet (.posix p)

theorem Device.Made.quiet {settings : DeviceSettings} {device : Device}
    (h : device.Made settings) : device.Quiet := by
  cases h with
  | bare => exact .bare _
  | posix atRest => exact .posix atRest.idle

/-- A posix device acts on the storage of the world. -/
theorem Device.platform_serve_posix (r : Request) (p : PosixDevice) (w : World) :
    Device.platform.serve r (.posix p) w = ((p.serve w.storage r).1,
      .posix (p.serve w.storage r).2.1, { w with storage := (p.serve w.storage r).2.2 }) :=
  rfl

namespace Dispatcher

variable {d : Dispatcher World Device} {device : Device} {w : World}

/-- Giving up a device that has nothing to wait for leaves the storage alone. -/
theorem close_quiet (h : d.Has device) (hq : device.Quiet) :
    (d.close Device.platform w).storage = w.storage := by
  obtain ⟨a, hslot, hdevice⟩ := h
  obtain ⟨answer, hwait⟩ :
      ∃ answer, Device.platform.serve .wait device w = (answer, device, w) := by
    cases hq with
    | bare name => exact ⟨_, rfl⟩
    | posix idle => exact ⟨_, by rw [Device.platform_serve_posix, idle.serve_wait]⟩
  have hgive : (Device.platform.discard device w).storage = w.storage := by
    cases hq with
    | bare name => rfl
    | @posix p idle =>
      show (p.engine.settle w.storage).2 = w.storage
      rw [Engine.settle_of_empty idle.inboxes]
  have hclose : d.close Device.platform w =
      (⟨device, a.loaded.deviceType, a.loaded.origin⟩ : LoadedDevice Device).discard
        Device.platform w := by
    rw [close, hslot]
    simp only [Activation.release, Activation.drain, hdevice, hwait, Activation.setDevice]
  rw [hclose, ← hgive, LoadedDevice.discard]
  cases a.loaded.origin <;> rfl

/-- A call goes to the active device, which stays the active one. -/
theorem forward_has (h : d.Has device) (call : Call) (w : World)
    {answer : Except DeviceError Answer} {device' : Device} {w' : World}
    (hserve : Device.platform.serve call.request device w = (answer, device', w')) :
    ∃ d', d.forward Device.platform call w = (answer.mapError .device, d', w') ∧
      d'.Has device' := by
  obtain ⟨a, hslot, rfl⟩ := h
  refine ⟨{ d with slot := some (a.setDevice device') }, ?_, _, rfl, rfl⟩
  rw [forward, serveActive, hslot]
  simp only [hserve]

end Dispatcher

namespace Program

variable {d : Dispatcher World Device} {p p' : PosixDevice} {w : World}

/-- Whatever a single call comes to, its device stays the active one. -/
theorem forwardAll_singleton {device device' : Device} {w' : World}
    {answer : Except DeviceError Answer} (hd : d.Has device) (call : Call)
    (hserve : Device.platform.serve call.request device w = (answer, device', w')) :
    ∃ answers d', forwardAll [call] d w = (answers, d', w') ∧ d'.Has device' := by
  obtain ⟨d', hforward, hhas⟩ := Dispatcher.forward_has hd call w hserve
  rw [forwardAll, hforward]
  cases answer with
  | error e => exact ⟨_, d', rfl, hhas⟩
  | ok answer => exact ⟨_, d', rfl, hhas⟩

/-- Calls that succeed one after the other on a posix device succeed as a whole. -/
theorem forwardAll_of_serveAll {calls : List Call} {answers : List Answer} {s' : Storage}
    (hd : d.Has (.posix p)) (h : p.serveAll (calls.map Call.request) w.storage =
      (answers.map .ok, p', s')) : ∃ d',
    forwardAll calls d w = (.ok answers, d', { w with storage := s' }) ∧ d'.Has (.posix p') := by
  induction calls generalizing d p w answers with
  | nil =>
    cases answers with
    | nil =>
      cases h
      exact ⟨d, rfl, hd⟩
    | cons => cases h
  | cons call calls ih =>
    simp only [List.map_cons, PosixDevice.serveAll] at h
    cases answers with
    | nil => cases h
    | cons answer answers =>
      obtain ⟨d₁, hforward, hhas⟩ :=
        Dispatcher.forward_has hd call w (Device.platform_serve_posix _ p w)
      have hanswer : (p.serve w.storage call.request).1 = .ok answer := by
        have := congrArg Prod.fst h
        simp only [List.map_cons, List.cons.injEq] at this
        exact this.1
      have hlater : (p.serve w.storage call.request).2.1.serveAll (calls.map Call.request)
          (p.serve w.storage call.request).2.2 = (answers.map .ok, p', s') := by
        refine Prod.ext ?_ (congrArg (fun x => x.2) h :)
        have := congrArg Prod.fst h
        simp only [List.map_cons, List.cons.injEq] at this
        exact this.2
      obtain ⟨d₂, hrest, hhas'⟩ :=
        ih (w := { w with storage := (p.serve w.storage call.request).2.2 }) hhas hlater
      refine ⟨d₂, ?_, hhas'⟩
      rw [hanswer] at hforward
      rw [forwardAll, hforward]
      simp only [Except.mapError, hrest, Except.map]

/-- The order that a transfer puts to its device. -/
def orderOf (direction : Direction) (b : Buffer) (file : String) (o : TransferOptions) : Order :=
  ⟨direction, b, file, o.validate⟩

/-- How a transfer asks for it. -/
def accessOf (direction : Direction) (b : Buffer) (file : String) (o : TransferOptions) : Access :=
  ⟨orderOf direction b file o, if o.async then .async else .sync⟩

theorem requests_transferCalls (direction : Direction) (b : Buffer) (file : String)
    (o : TransferOptions) : (transferCalls direction b file o).map Call.request =
      (accessOf direction b file o).requests := by
  unfold transferCalls accessOf Access.requests
  cases direction <;> cases o.async <;> rfl

/-- The calls leave the storage as carrying an order out at once does, and a posix device
that has nothing to wait for. -/
def Performs (p : PosixDevice) (d : Dispatcher World Device) (w : World) (calls : List Call)
    (c : Order) : Prop :=
  ∃ answers d' w' p', forwardAll calls d w = (answers, d', w') ∧ d'.Has (.posix p') ∧ p'.Idle ∧
    w'.storage = (c.perform p.settings.blockSize w.storage).2

section

variable {c : Order} {call : Call} (hd : d.Has (.posix p)) (hp : p.AtRest)
  (hm : w.storage.memory.Holds c.buffer)

include hd hp hm

theorem performs_sync (hrequest : call.request = c.request .sync) : Performs p d w [call] c := by
  have hserve := Device.platform_serve_posix call.request p w
  rw [hrequest, PosixDevice.serve_sync hp.blockSize_pos hm (.refl _), ← hrequest] at hserve
  obtain ⟨answers, d', hforward, hhas⟩ := forwardAll_singleton hd call hserve
  exact ⟨answers, d', _, p, hforward, hhas, hp.idle, rfl⟩

/-- A call that is waited for leaves what one schedule of the workers leaves. -/
theorem performs_async (hlt : p.settings.blockSize < Word.count)
    (hrequest : call.request = c.request .async) : Performs p d w [call, .wait] c := by
  obtain ⟨d₁, hforward, hhas⟩ :=
    Dispatcher.forward_has hd call w (Device.platform_serve_posix _ p w)
  have hserve : p.serve w.storage call.request = p.transfer c .async w.storage := by
    rw [hrequest, PosixDevice.serve_request]
  rw [Performs, forwardAll, hforward]
  cases hopen : Operation.openFile c p.settings.blockSize w.storage with
  | error e =>
    -- nothing is submitted
    have htransfer : p.transfer c .async w.storage = (.error (.transfer e), p, w.storage) := by
      rw [PosixDevice.transfer, hopen]
    have hperform : (c.perform p.settings.blockSize w.storage).2 = w.storage := by
      rw [Order.perform, hopen]
    rw [hserve, htransfer] at hhas ⊢
    exact ⟨_, _, _, p, rfl, hhas, hp.idle, hperform.symm⟩
  | ok x =>
    obtain ⟨n, hanswer⟩ : ∃ n, (p.transfer c .async w.storage).1 = .ok (.number n) := by
      rw [PosixDevice.transfer, hopen]
      exact ⟨_, rfl⟩
    obtain ⟨answers, d', hforward', hhas'⟩ := forwardAll_singleton hhas .wait
      (w := { w with storage := (p.serve w.storage call.request).2.2 })
      (Device.platform_serve_posix _ _ _)
    have hidle := PosixDevice.idle_of_wait (p.serve w.storage call.request).2.1
      (p.serve w.storage call.request).2.2
    -- one schedule of the workers is the one that the device has them take
    obtain ⟨schedule, t, hrun, hover, hall⟩ := Traffic.exists_slow_schedule hp [c] w.storage
    obtain ⟨hstorage, -⟩ := PosixDevice.exists_waited hp hlt hm hrun hover
    have hleft : ((p.serve w.storage call.request).2.1.serve
        (p.serve w.storage call.request).2.2 .wait).2.2 = t.ground.storage := by
      rw [hrequest]
      exact congrArg (fun x => x.2.2) hall
    rw [hserve, hanswer, ← hserve]
    simp only [Except.mapError, hforward']
    exact ⟨_, d', _, _, rfl, hhas', hidle, hleft.trans hstorage⟩

end

/-- However a transfer goes on a posix device at rest, the storage is what carrying
its order out at once makes of it, and there is nothing to wait for. -/
theorem forwardAll_posix (direction : Direction) (file : String) (o : TransferOptions) {b : Buffer}
    (hd : d.Has (.posix p)) (hp : p.AtRest) (hlt : p.settings.blockSize < Word.count)
    (hm : w.storage.memory.Holds b) :
    Performs p d w (transferCalls direction b file o) (orderOf direction b file o) := by
  have hm' : w.storage.memory.Holds (orderOf direction b file o).buffer := hm
  unfold transferCalls
  cases o.async with
  | false => cases direction <;> exact performs_sync hd hp hm' rfl
  | true => cases direction <;> exact performs_async hd hp hm' hlt rfl

end Program
end BlockTransfer
