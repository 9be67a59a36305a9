import BlockTransfer.Proofs.LockedPool.Agreement
/-!
# Calls about locked buffers that nobody comes between

The moves of a caller that is not interrupted come to what the dispatcher does
with the active posix device: the same answer, and the same books afterwards.

Key definition: `Books.EndsAs`.
Key theorems: `Books.newLocked_alone`, `Books.freeLocked_alone`.
-/

namespace BlockTransfer
namespace Books

variable {b b' : Books} {i : Nat} {stage : Stage}

/-- The books are those of the active posix device and of its activation. -/
def Keeps (b : Books) (d : Dispatcher World Device) (w : World) : Prop :=
  ∃ a p, d.slot = some a ∧ a.loaded.device = .posix p ∧ b.pool = p.pool ∧ b.set = a.locked ∧
    b.memory = w.storage.memory

/-- The journal's entry for what a caller of the dispatcher is told about a
buffer that it asked for. -/
def Occurrence.ofNewLocked : Except DispatchError Buffer → Option Occurrence
  | .ok buffer => buffer.pin.map (.allocated buffer)
  | .error (.device (.transfer e)) => some (.notAllocated e)
  | .error _ => none

/-- The journal's entry for what a caller of the dispatcher is told about a
buffer that it wants to free. -/
def Occurrence.ofFreeLocked (buffer : Buffer) : Except DispatchError Unit → Option Occurrence
  | .ok _ => buffer.pin.map (.freed buffer)
  | .error (.lifecycle e) | .error (.device (.lifecycle e)) => some (.notFreed buffer e)
  | .error _ => none

/-- A caller that starts a call and goes on with it by itself comes to the end
that the journal tells, and the books are then those of the dispatcher. -/
def EndsAs (b : Books) (i : Nat) (e : Event) (told : Option Occurrence)
    (d : Dispatcher World Device) (w : World) : Prop :=
  ∃ turns b' o, told = some o ∧ b.run? (e :: List.replicate turns (.goOn i)) = some b' ∧
    b'.Keeps d w ∧ b'.callers[i]? = some .free ∧ b'.journal = b.journal ++ [o]

variable {d : Dispatcher World Device} {w : World} {buffer : Buffer}

theorem getElem?_move {s : Stage} (hs : b.callers[i]? = some stage) :
    (b.move i s).callers[i]? = some s :=
  List.getElem?_set_self (List.getElem?_eq_some_iff.mp hs).1

theorem run?_allocate (hs : b.callers[i]? = some .free) (type : ElementType) (count : Nat)
    (rest : List Event) :
    b.run? (.allocate i type count :: rest) = (b.allocate i type count).run? rest := by
  simp only [run?, List.foldlM_cons, step?, Event.caller, hs]
  rfl

theorem run?_free (hs : b.callers[i]? = some .free) (buffer : Buffer) (rest : List Event) :
    b.run? (.free i buffer :: rest) = (b.free i buffer).run? rest := by
  simp only [run?, List.foldlM_cons, step?, Event.caller, hs]
  rfl

/-- The dispatcher passes a request on to the posix device. -/
theorem serveActive_posix {a : Activation Device} {p p' : PosixDevice} {r : Request}
    {answer : Except DeviceError Answer} {storage : Storage} (hslot : d.slot = some a)
    (hdevice : a.loaded.device = .posix p) (h : p.serve w.storage r = (answer, p', storage))
    (operation : String) : d.serveActive Device.platform operation r w =
      (answer.mapError .device, d.setSlot (a.setDevice (.posix p')), { w with storage }) := by
  refine Dispatcher.serveActive_eq hslot ?_ operation
  rw [hdevice]
  exact Device.serve_posix h

/-- The moves of one caller that asks for a buffer come to what the dispatcher
answers, with the same books afterwards. -/
theorem newLocked_alone (hk : b.Keeps d w) (hs : b.callers[i]? = some .free) (count : Nat)
    (like : Buffer) : b.EndsAs i (.allocate i like.elementType count)
      (Occurrence.ofNewLocked (d.newLocked Device.platform count like w).1)
      (d.newLocked Device.platform count like w).2.1
      (d.newLocked Device.platform count like w).2.2 := by
  obtain ⟨a, p, hslot, hdevice, hpool, hset, hmemory⟩ := hk
  have hbegin := run?_allocate hs like.elementType count
  have hnumbered : (b.allocate i like.elementType count).callers[i]? =
      some (.numbered like.elementType count p.pool.nextTag) := hpool ▸ getElem?_move hs
  cases hmake : w.storage.memory.locked? like.elementType count p.pool.nextTag with
  | error e =>
    have hserve : p.serve w.storage (.newLocked count like) =
        (.error (.transfer e), { p with pool := p.pool.advance }, w.storage) := by
      simp only [PosixDevice.serve, LockedPool.allocate, hmake]
    have hfails : (b.allocate i like.elementType count).goOn? i
        (.numbered like.elementType count p.pool.nextTag) =
          some ((b.allocate i like.elementType count).finish i (.notAllocated e)) := by
      simp only [goOn?, allocate, Books.move, hmemory, hmake]
    simp only [Dispatcher.newLocked, serveActive_posix hslot hdevice hserve, Except.mapError]
    exact ⟨1, _, _, rfl, (hbegin _).trans (run?_goOn hnumbered hfails rfl),
      ⟨_, _, rfl, rfl, congrArg LockedPool.advance hpool, hset, hmemory⟩,
      getElem?_move hnumbered, rfl⟩
  | ok made =>
    obtain ⟨buffer, memory⟩ := made
    have hpin := pin_of_locked? hmake
    have hserve : p.serve w.storage (.newLocked count like) =
        (.ok (.buffer buffer), { p with pool := p.pool.advance.enlist p.pool.nextId },
          { w.storage with memory }) := by
      simp only [PosixDevice.serve, LockedPool.allocate, hmake]
    have hmakes : (b.allocate i like.elementType count).goOn? i
        (.numbered like.elementType count p.pool.nextTag) =
          some ({ b.allocate i like.elementType count with memory }.move i
            (.made buffer p.pool.nextTag)) := by
      simp only [goOn?, allocate, Books.move, hmemory, hmake]
    have hmade := getElem?_move (s := .made buffer p.pool.nextTag) hnumbered
    have henlisted := getElem?_move (s := .enlisted buffer p.pool.nextTag) hmade
    simp only [Dispatcher.newLocked, serveActive_posix hslot hdevice hserve, Except.mapError, hpin]
    exact ⟨3, _, .allocated buffer p.pool.nextTag, by simp only [Occurrence.ofNewLocked, hpin,
        Option.map_some], (hbegin _).trans (run?_goOn hnumbered hmakes (run?_goOn hmade rfl
        (run?_goOn henlisted rfl rfl))),
      ⟨_, _, rfl, rfl, congrArg (fun p : LockedPool => p.advance.enlist _) hpool,
        congrArg (LockedSet.insert · _) hset, rfl⟩, getElem?_move henlisted, rfl⟩

/-- A buffer that the dispatcher does not know is refused at once. -/
theorem freeLocked_disowned {a : Activation Device} {e : LifecycleError} (hk : b.Keeps d w)
    (hs : b.callers[i]? = some .free) (hslot : d.slot = some a)
    (hcheck : a.checkOwned buffer = .error e)
    (hfree : b.free i buffer = b.finish i (.notFreed buffer e)) :
    b.EndsAs i (.free i buffer)
      (Occurrence.ofFreeLocked buffer (d.freeLocked Device.platform buffer w).1)
      (d.freeLocked Device.platform buffer w).2.1 (d.freeLocked Device.platform buffer w).2.2 := by
  simp only [Dispatcher.freeLocked, hslot, hcheck]
  have hrun : b.run? (.free i buffer :: []) = some (b.finish i (.notFreed buffer e)) := by
    rw [run?_free hs, hfree]
    rfl
  exact ⟨0, _, _, rfl, hrun, hk, getElem?_move hs, rfl⟩

/-- A buffer that the dispatcher knows is freed if the pool takes it back. -/
theorem freeLocked_owned {a : Activation Device} {tag : PinTag} (hk : b.Keeps d w)
    (hs : b.callers[i]? = some .free) (hslot : d.slot = some a)
    (hcheck : a.checkOwned buffer = .ok tag)
    (hfree : b.free i buffer = b.move i (.known buffer tag)) :
    b.EndsAs i (.free i buffer)
      (Occurrence.ofFreeLocked buffer (d.freeLocked Device.platform buffer w).1)
      (d.freeLocked Device.platform buffer w).2.1 (d.freeLocked Device.platform buffer w).2.2 := by
  obtain ⟨_, p, hslot', hdevice, hpool, hset, hmemory⟩ := hk
  cases hslot.symm.trans hslot'
  have hpin := (Dispatcher.checkOwned_eq_ok_iff.mp hcheck).1
  have hbegin (rest : List Event) : b.run? (.free i buffer :: rest) =
      (b.move i (.known buffer tag)).run? rest := hfree ▸ run?_free hs buffer rest
  have hknown := getElem?_move (s := .known buffer tag) hs
  cases hrelease : p.pool.release buffer with
  | error e =>
    have hserve : p.serve w.storage (.freeLocked buffer) =
        (.error (.lifecycle e), p, w.storage) := by
      simp only [PosixDevice.serve, hrelease]
    have hfails : (b.move i (.known buffer tag)).goOn? i (.known buffer tag) =
        some ((b.move i (.known buffer tag)).finish i (.notFreed buffer e)) := by
      simp only [goOn?, Books.move, hpool, hrelease]
    simp only [Dispatcher.freeLocked, hslot, hcheck, serveActive_posix hslot hdevice hserve,
      Except.mapError]
    exact ⟨1, _, _, rfl, (hbegin _).trans (run?_goOn hknown hfails rfl),
      ⟨_, _, rfl, rfl, hpool, hset, hmemory⟩, getElem?_move hknown, rfl⟩
  | ok pool =>
    have hserve : p.serve w.storage (.freeLocked buffer) =
        (.ok .done, { p with pool }, w.storage) := by
      simp only [PosixDevice.serve, hrelease]
    have hreturns : (b.move i (.known buffer tag)).goOn? i (.known buffer tag) =
        some ({ b.move i (.known buffer tag) with pool }.move i (.returned buffer tag)) := by
      simp only [goOn?, Books.move, hpool, hrelease]
    have hreturned := getElem?_move (s := .returned buffer tag) hknown
    simp only [Dispatcher.freeLocked, hslot, hcheck, serveActive_posix hslot hdevice hserve,
      Except.mapError]
    exact ⟨2, _, .freed buffer tag, by simp only [Occurrence.ofFreeLocked, hpin, Option.map_some],
      (hbegin _).trans (run?_goOn hknown hreturns (run?_goOn hreturned rfl rfl)),
      ⟨_, _, rfl, rfl, rfl, congrArg (LockedSet.erase · tag) hset, hmemory⟩,
      getElem?_move hreturned, rfl⟩

/-- The moves of one caller that frees a buffer come to what the dispatcher
answers, with the same books afterwards. -/
theorem freeLocked_alone (hk : b.Keeps d w) (hs : b.callers[i]? = some .free) (buffer : Buffer) :
    b.EndsAs i (.free i buffer)
      (Occurrence.ofFreeLocked buffer (d.freeLocked Device.platform buffer w).1)
      (d.freeLocked Device.platform buffer w).2.1 (d.freeLocked Device.platform buffer w).2.2 := by
  obtain ⟨a, p, hslot, -, -, hset, -⟩ := id hk
  cases hpin : buffer.pin with
  | none =>
    refine freeLocked_disowned (e := .notLocked) hk hs hslot ?_ ?_
    · simp only [Activation.checkOwned, hpin]
    · simp only [free, hpin]
  | some tag =>
    cases hlisted : a.locked.contains tag with
    | true =>
      refine freeLocked_owned hk hs hslot (Dispatcher.checkOwned_eq_ok_iff.mpr ⟨hpin, hlisted⟩) ?_
      simp only [free, hpin, hset, hlisted, if_true]
    | false =>
      refine freeLocked_disowned (e := .unknown tag.id) hk hs hslot ?_ ?_
      · simp only [Activation.checkOwned, hpin, hlisted, Bool.false_eq_true, if_false]
      · simp only [free, hpin, hset, hlisted, Bool.false_eq_true, if_false]

end Books
end BlockTransfer
