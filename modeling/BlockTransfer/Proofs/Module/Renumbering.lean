import BlockTransfer.Proofs.Device.Loading
import BlockTransfer.Proofs.Loader.Likeness
/-!
# Library numbers do not matter

A library that was opened and closed again has used up a number, and nothing
else (`Libraries.Sound.close_opened`). What comes after is the same with that
number left out. So two worlds that differ in one such number are alike
(`Device.likeness`), and nothing that the devices of this library do shows it
(`Device.likeness_hides`).

Key definitions: `leaveOut`, `World.leaveOut`, `Factory.Independent`,
`Device.likeness`.
Key theorem: `Device.likeness_hides`.
-/

namespace BlockTransfer

/-- The numbers with `N` left out, from which on every number is one greater; or all of
them, if there is no `N`. -/
def leaveOut (N : Option Nat) (n : Nat) : Nat :=
  match N with
  | none => n
  | some N => if n < N then n else n + 1

variable {N : Option Nat} {m n : Nat}

theorem leaveOut_of_lt (h : n < m) : leaveOut (some m) n = n := if_pos h

theorem leaveOut_self (n : Nat) : leaveOut (some n) n = n + 1 := if_neg (Nat.lt_irrefl n)

theorem leaveOut_succ (h : ∀ m ∈ N, m ≤ n) : leaveOut N (n + 1) = leaveOut N n + 1 := by
  cases N with
  | none => rfl
  | some N =>
    have hle : N ≤ n := h N rfl
    simp only [leaveOut]
    split <;> split <;> omega

theorem leaveOut_eq_iff : leaveOut N m = leaveOut N n ↔ m = n := by
  cases N with
  | none => rfl
  | some N =>
    simp only [leaveOut]
    split <;> split <;> omega

/-! ### Copies -/

def LibraryCopy.leaveOut (N : Option Nat) (c : LibraryCopy) : LibraryCopy :=
  { c with number := BlockTransfer.leaveOut N c.number }

namespace Libraries

variable {l : Libraries}

def leaveOut (N : Option Nat) (l : Libraries) : Libraries :=
  ⟨l.copies.map (·.leaveOut N), BlockTransfer.leaveOut N l.nextNumber⟩

/-- Leaving the next number out is skipping it. -/
theorem Sound.leaveOut_next (h : l.Sound) : l.leaveOut (some l.nextNumber) = l.skip := by
  have hcopies : l.copies.map (·.leaveOut (some l.nextNumber)) = l.copies := by
    refine (List.map_congr_left fun c hc => ?_).trans (List.map_id _)
    rw [LibraryCopy.leaveOut, leaveOut_of_lt (h.below c hc)]
    rfl
  rw [leaveOut, hcopies, leaveOut_self]
  rfl

theorem leaveOut_none (l : Libraries) : l.leaveOut none = l := by
  rw [leaveOut, show (LibraryCopy.leaveOut none) = id from rfl, List.map_id]
  rfl

theorem find?_leaveOut (cs : List LibraryCopy) (p : LibraryCopy → Bool)
    (hp : ∀ c : LibraryCopy, p (c.leaveOut N) = p c) :
    (cs.map (·.leaveOut N)).find? p = (cs.find? p).map (·.leaveOut N) := by
  rw [List.find?_map, show p ∘ (·.leaveOut N) = p from funext hp]

theorem map_leaveOut (cs : List LibraryCopy) {f g : LibraryCopy → LibraryCopy}
    (h : ∀ c : LibraryCopy, f (c.leaveOut N) = (g c).leaveOut N) :
    (cs.map (·.leaveOut N)).map f = (cs.map g).map (·.leaveOut N) := by
  rw [List.map_map, List.map_map]
  exact List.map_congr_left fun c _ => h c

theorem hold_leaveOut (l : Libraries) (N : Option Nat) (n : Nat) :
    (l.leaveOut N).hold (BlockTransfer.leaveOut N n) = (l.hold n).leaveOut N := by
  rw [hold, leaveOut, map_leaveOut (g := fun c =>
    if c.number = n then { c with holders := c.holders + 1 } else c)]
  · rfl
  · intro c
    by_cases h : c.number = n <;> simp [LibraryCopy.leaveOut, leaveOut_eq_iff, h]

theorem usePool_leaveOut (l : Libraries) (N : Option Nat) (n : Nat) :
    (l.leaveOut N).usePool (BlockTransfer.leaveOut N n) = (l.usePool n).leaveOut N := by
  rw [usePool, leaveOut, map_leaveOut (g := fun c =>
    if c.number = n then { c with nextPool := c.nextPool + 1 } else c)]
  · rfl
  · intro c
    by_cases h : c.number = n <;> simp [LibraryCopy.leaveOut, leaveOut_eq_iff, h]

theorem close_leaveOut (l : Libraries) (N : Option Nat) (n : Nat) :
    (l.leaveOut N).close (BlockTransfer.leaveOut N n) = (l.close n).leaveOut N := by
  have hdrop : ∀ c : LibraryCopy, dropHolder? (BlockTransfer.leaveOut N n) (c.leaveOut N) =
      (dropHolder? n c).map (·.leaveOut N) := by
    intro c
    by_cases h : c.number = n <;> by_cases hholders : c.holders ≤ 1 <;>
      simp [dropHolder?, LibraryCopy.leaveOut, leaveOut_eq_iff, h, hholders]
  rw [close_eq, close_eq, leaveOut, leaveOut]
  simp only [List.filterMap_map, List.map_filterMap, Function.comp_def, hdrop]

theorem nextPool_leaveOut (l : Libraries) (N : Option Nat) (n : Nat) :
    (l.leaveOut N).nextPool (BlockTransfer.leaveOut N n) = l.nextPool n := by
  have hsame : ∀ c : LibraryCopy, ((c.leaveOut N).number == BlockTransfer.leaveOut N n) =
      (c.number == n) := fun c => by
    rw [Bool.eq_iff_iff, beq_iff_eq, beq_iff_eq]
    exact leaveOut_eq_iff
  simp only [nextPool, leaveOut, List.find?_map, Option.map_map, Function.comp_def, hsame]
  rfl

theorem openPath_leaveOut (h : ∀ m ∈ N, m ≤ l.nextNumber) (host : Host) (files : FileSystem)
    (path : String) :
    (l.leaveOut N).openPath host files path =
      (l.openPath host files path).map fun x => (x.1.leaveOut N, x.2.leaveOut N) := by
  have hheld : ∀ c : LibraryCopy,
      (Except.ok (c.leaveOut N, (l.leaveOut N).hold (c.leaveOut N).number) :
        Except String (LibraryCopy × Libraries)) =
      .ok (c.leaveOut N, (l.hold c.number).leaveOut N) := fun c => by
    rw [← hold_leaveOut]
    rfl
  have hfind : ∀ p : LibraryCopy → Bool, (∀ c : LibraryCopy, p (c.leaveOut N) = p c) →
      (l.leaveOut N).copies.find? p = (l.copies.find? p).map (·.leaveOut N) :=
    find?_leaveOut l.copies
  unfold openPath
  rw [hfind _ fun _ => rfl]
  cases l.copies.find? (·.path == path) with
  | some c => exact hheld c
  | none =>
    simp only [Option.map_none]
    split
    · rfl
    cases openFile host files path with
    | error kind => rfl
    | ok handle =>
      simp only
      rw [hfind _ fun _ => rfl]
      cases l.copies.find? (·.file == handle.at_) with
      | some c => exact hheld c
      | none =>
        simp only [Option.map_none]
        cases ModuleImage.decode? (files.content handle) with
        | none => rfl
        | some image =>
          have hnext : BlockTransfer.leaveOut N (l.nextNumber + 1) =
              BlockTransfer.leaveOut N l.nextNumber + 1 := leaveOut_succ h
          simp only [Except.map, leaveOut, List.map_append, hnext]
          rfl

theorem le_nextNumber_of_opened {c : LibraryCopy} {l' : Libraries} (h : l.Opened c l') :
    l.nextNumber ≤ l'.nextNumber := by
  cases h with
  | held => exact Nat.le_refl _
  | mapped => exact Nat.le_succ _

end Libraries

/-! ### Worlds -/

def World.leaveOut (N : Option Nat) (w : World) : World :=
  { w with libraries := w.libraries.leaveOut N }

theorem World.leaveOut_none (w : World) : w.leaveOut none = w := by
  rw [leaveOut, Libraries.leaveOut_none]

/-- A factory that neither looks at the libraries nor changes them. -/
def Factory.Independent (create : Factory World Device) : Prop :=
  ∀ settings w libraries, create settings { w with libraries } =
    ((create settings w).1, { (create settings w).2 with libraries })

theorem Factory.Independent.libraries {create : Factory World Device} (h : create.Independent)
    (settings : DeviceSettings) (w : World) : (create settings w).2.libraries = w.libraries :=
  congrArg (·.2.libraries) (h settings w w.libraries)

/-- Every builtin factory is independent of the libraries. -/
def Registry.Independent (r : Registry World Device) : Prop :=
  ∀ t create, r.get? t = some create → create.Independent

namespace Device

variable {l : Loader World Device} {w w₁ w₂ : World} {held : Multiset (Nat × Nat)}

theorem serve_leaveOut (r : Request) (device : Device) (w : World) (N : Option Nat) :
    serve r device (w.leaveOut N) =
      ((serve r device w).1, (serve r device w).2.1, (serve r device w).2.2.leaveOut N) := by
  cases device <;> rfl

theorem discard_leaveOut (device : Device) (w : World) (N : Option Nat) :
    discard device (w.leaveOut N) = (discard device w).leaveOut N ∧
      (discard device w).libraries = w.libraries := by
  cases device <;> exact ⟨rfl, rfl⟩

theorem independent_createPosix : createPosix.Independent := by
  intro settings w libraries
  unfold createPosix
  cases PosixDevice.create w.host settings w.nextPool <;> rfl

theorem create_leaveOut {create : Factory World Device} (h : create.Independent)
    (settings : DeviceSettings) (w : World) (N : Option Nat) :
    create settings (w.leaveOut N) =
      ((create settings w).1, (create settings w).2.leaveOut N) := by
  rw [World.leaveOut, h, World.leaveOut, h.libraries]

theorem ofBackend_leaveOut (library : Nat) (backend : ModuleBackend) (settings : DeviceSettings)
    (w : World) (N : Option Nat) :
    ofBackend (BlockTransfer.leaveOut N library) backend settings (w.leaveOut N) =
      ((ofBackend library backend settings w).1,
        (ofBackend library backend settings w).2.leaveOut N) := by
  cases backend with
  | bare => rfl
  | failing => rfl
  | posix =>
    simp only [ofBackend, createPosixIn, World.leaveOut, Libraries.nextPool_leaveOut]
    cases PosixDevice.create w.host settings (w.libraries.nextPool library) with
    | error e => rfl
    | ok p => simp only [Libraries.usePool_leaveOut]

theorem sound_ofBackend (hs : w.libraries.Sound) (library : Nat) (backend : ModuleBackend)
    (settings : DeviceSettings) : (ofBackend library backend settings w).2.libraries.Sound ∧
      (ofBackend library backend settings w).2.libraries.nextNumber = w.libraries.nextNumber := by
  cases backend with
  | bare => exact ⟨hs, rfl⟩
  | failing => exact ⟨hs, rfl⟩
  | posix =>
    simp only [ofBackend, createPosixIn]
    cases PosixDevice.create w.host settings (w.libraries.nextPool library) with
    | error e => exact ⟨hs, rfl⟩
    | ok p => exact ⟨hs.usePool library, rfl⟩

/-! ### Worlds that differ in a number -/

/-- One world is the other with a number left out, or both are the same, and the libraries
that are held were opened under numbers that correspond. -/
structure Renumbered (N : Option Nat) (held : Multiset (Nat × Nat)) (w₁ w₂ : World) : Prop where
  sound : w₁.libraries.Sound
  least : ∀ m ∈ N, m ≤ w₁.libraries.nextNumber
  eq : w₂ = w₁.leaveOut N
  held : ∀ p ∈ held, p.1 < w₁.libraries.nextNumber ∧ p.2 = BlockTransfer.leaveOut N p.1

/-- Worlds that differ at most in a number that one of them has left out. -/
def likeness : Likeness World := fun held w₁ w₂ => ∃ N, Renumbered N held w₁ w₂

theorem likeness_start (hs : w.libraries.Sound) : likeness 0 w w :=
  ⟨none, hs, nofun, w.leaveOut_none.symm, fun _ hp => absurd hp (Multiset.notMem_zero _)⟩

/-- Two worlds stay as they are to each other if the same is done in both and takes no
number. -/
theorem Renumbered.next {N : Option Nat} (h : Renumbered N held w₁ w₂) {w : World}
    (hsound : w.libraries.Sound) (hnext : w.libraries.nextNumber = w₁.libraries.nextNumber) :
    Renumbered N held w (w.leaveOut N) :=
  ⟨hsound, hnext ▸ h.least, rfl, hnext ▸ h.held⟩

theorem Renumbered.keep {N : Option Nat} (h : Renumbered N held w₁ w₂) {w : World}
    (hlibraries : w.libraries = w₁.libraries) : Renumbered N held w (w.leaveOut N) :=
  h.next (hlibraries ▸ h.sound) (hlibraries ▸ rfl)

/-- A world that is like itself has no number left out. -/
theorem Renumbered.eq_none {N : Option Nat} (h : Renumbered N held w w) : N = none := by
  cases N with
  | none => rfl
  | some N =>
    have hnext : w.libraries.nextNumber = BlockTransfer.leaveOut (some N) w.libraries.nextNumber :=
      congrArg (·.libraries.nextNumber) h.eq
    have hle : N ≤ w.libraries.nextNumber := h.least N rfl
    simp only [BlockTransfer.leaveOut] at hnext
    split at hnext <;> omega

/-- The next number can be left out. -/
theorem likeness_skip (h : likeness held w w) : likeness held w (skipLibrary w) := by
  obtain ⟨N, h⟩ := h
  obtain rfl := h.eq_none
  refine ⟨some w.libraries.nextNumber, h.sound, ?_, ?_, fun p hp => ⟨(h.held p hp).1, ?_⟩⟩
  · rintro _ ⟨⟩
    exact Nat.le_refl _
  · rw [World.leaveOut, h.sound.leaveOut_next]
    rfl
  · rw [leaveOut_of_lt (h.held p hp).1]
    exact (h.held p hp).2

theorem openLibrary_leaveOut {N : Option Nat} (h : ∀ m ∈ N, m ≤ w.libraries.nextNumber)
    (path : String) : openLibrary path (w.leaveOut N) =
      match w.libraries.openPath w.host w.storage.files path with
      | .error reason => .error reason
      | .ok (copy, libraries) => .ok (⟨BlockTransfer.leaveOut N copy.number,
          match copy.image.entry with
          | none => .error s!"{path}: undefined symbol"
          | some e =>
            .ok ⟨e.abi, e.contract, ofBackend (BlockTransfer.leaveOut N copy.number) e.backend⟩⟩,
          World.leaveOut N { w with libraries }) := by
  have hopen := Libraries.openPath_leaveOut h w.host w.storage.files path
  unfold openLibrary
  rw [show (w.leaveOut N).libraries = w.libraries.leaveOut N from rfl,
    show (w.leaveOut N).storage = w.storage from rfl,
    show (w.leaveOut N).host = w.host from rfl, hopen]
  cases w.libraries.openPath w.host w.storage.files path <;> rfl

theorem likeness_opens (h : likeness held w₁ w₂) (settings : DeviceSettings) (path : String) :
    likeness.Opens held settings (openLibrary path w₁) (openLibrary path w₂) := by
  obtain ⟨N, h⟩ := h
  rw [h.eq, openLibrary_leaveOut h.least, openLibrary]
  cases hopen : w₁.libraries.openPath w₁.host w₁.storage.files path with
  | error reason => exact .refused reason
  | ok opened =>
    obtain ⟨c, libraries⟩ := opened
    have hopened := Libraries.opened_openPath hopen
    have hsound : libraries.Sound := h.sound.opened hopened
    have hle := Libraries.le_nextNumber_of_opened hopened
    have hworlds : Renumbered N ((c.number, BlockTransfer.leaveOut N c.number) ::ₘ held)
        { w₁ with libraries } (World.leaveOut N { w₁ with libraries }) := by
      refine ⟨hsound, fun m hm => (h.least m hm).trans hle, rfl, fun p hp => ?_⟩
      rcases Multiset.mem_cons.mp hp with rfl | hp
      · exact ⟨hopened.has.lt hsound, rfl⟩
      · exact ⟨(h.held p hp).1.trans_le hle, (h.held p hp).2⟩
    refine .opened ⟨N, hworlds⟩ ?_
    cases c.image.entry with
    | none => exact .missing _
    | some e =>
      refine .there e.abi e.contract ?_
      obtain ⟨hmade, hnext⟩ :=
        sound_ofBackend (w := { w₁ with libraries }) hsound c.number e.backend settings
      rw [ofBackend_leaveOut]
      exact ⟨rfl, N, hworlds.next hmade hnext⟩

theorem closeLibrary_leaveOut (w : World) (N : Option Nat) (n : Nat) :
    platform.closeLibrary (BlockTransfer.leaveOut N n) (w.leaveOut N) =
      (platform.closeLibrary n w).leaveOut N := by
  show { w.leaveOut N with
    libraries := (w.libraries.leaveOut N).close (BlockTransfer.leaveOut N n) } = _
  rw [Libraries.close_leaveOut]
  rfl

/-- A library that is opened and closed again has used up a number at most. -/
theorem likeness_closed (h : likeness held w w) {path : String} {c : LibraryCopy}
    {libraries : Libraries}
    (hopen : w.libraries.openPath w.host w.storage.files path = .ok (c, libraries)) :
    likeness held w (platform.closeLibrary c.number { w with libraries }) := by
  obtain ⟨_, hsound⟩ := h
  show likeness held w { w with libraries := libraries.close c.number }
  rcases hsound.sound.close_opened (Libraries.opened_openPath hopen) with heq | heq <;> rw [heq]
  · exact ⟨_, hsound⟩
  · exact likeness_skip ⟨_, hsound⟩

/-- Nothing that the devices of this library do shows a number that was left out, if the
builtin factories turn to no library and leave the world alone when they fail. -/
theorem likeness_hides (hi : l.registry.Independent) (ht : l.registry.Traceless) :
    likeness.Hides platform l where
  serve := by
    rintro held w₁ w₂ ⟨N, h⟩ r device
    rw [h.eq, show platform.serve = serve from rfl, serve_leaveOut]
    exact ⟨rfl, rfl, N, h.keep (serve_counters r device w₁).1⟩
  discard := by
    rintro held w₁ w₂ ⟨N, h⟩ device
    obtain ⟨heq, hlibraries⟩ := discard_leaveOut device w₁ N
    rw [h.eq, show platform.discard = discard from rfl, heq]
    exact ⟨N, h.keep hlibraries⟩
  listFiles := by
    rintro held w₁ w₂ ⟨N, h⟩
    rw [h.eq]
    rfl
  openLibrary h := likeness_opens h l.settings
  closeLibrary := by
    rintro held m n w₁ w₂ ⟨N, h⟩
    have hn : n = BlockTransfer.leaveOut N m := (h.held (m, n) (Multiset.mem_cons_self ..)).2
    rw [h.eq, hn, closeLibrary_leaveOut]
    exact ⟨N, h.sound.close m, h.least, rfl, fun p hp => h.held p (Multiset.mem_cons_of_mem hp)⟩
  create := by
    rintro held w₁ w₂ t create hget ⟨N, h⟩
    rw [h.eq, create_leaveOut (hi t create hget)]
    exact ⟨rfl, N, h.keep ((hi t create hget).libraries l.settings w₁)⟩
  failed := by
    intro held w w' t create fault hget h hcreate
    rwa [ht t create hget _ _ _ _ hcreate]
  closed := by
    intro held w w' path library h hopen
    obtain ⟨c, libraries, hpath, hnumber, rfl, -⟩ := openLibrary_ok hopen
    rw [hnumber]
    exact likeness_closed h hpath
  moduleFailed := by
    intro held w w' w'' path fault library entry h hopen hentry hcreate
    obtain ⟨c, libraries, hpath, hnumber, rfl, hbackend⟩ := openLibrary_ok hopen
    obtain ⟨backend, hentry'⟩ := hbackend entry hentry
    rw [hentry'] at hcreate
    rw [traceless_ofBackend _ _ _ _ _ _ hcreate, hnumber]
    exact likeness_closed h hpath

end Device
end BlockTransfer
