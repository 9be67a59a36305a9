import BlockTransfer.Proofs.LockedPool.Moves
import BlockTransfer.Proofs.Dispatcher.Bookings
/-!
# The two books in the middle of calls

Whatever calls are half done, every number was given out once, what was handed
out is what the set holds and what was taken back, and the pool and the set
differ by the tags that are ahead of the set or behind the pool
(`Books.Balanced`). Every move keeps that (`Books.Balanced.move`), so it holds
after every schedule (`Books.balanced_of_run?`).

The counts are taken tag by tag: a move changes them for one tag at most, and by
one.

Key definition: `Books.Balanced`.
Key theorems: `Books.Balanced.move`, `Books.balanced_of_run?`,
`Books.nextId_of_run?`.
-/

namespace BlockTransfer

namespace LockedPool

/-- The tags of the live numbers. -/
def tags (p : LockedPool) : List PinTag := p.live.map (PinTag.mk p.number)

/-- Whether the pool has given the number out, whatever came of it. -/
def Issued (p : LockedPool) (tag : PinTag) : Prop := tag.pool = p.number ∧ tag.id < p.nextId

variable {p : LockedPool} {t tag : PinTag}

theorem mem_tags : t ∈ p.tags ↔ p.Lists t := by
  obtain ⟨pool, id⟩ := t
  simp only [tags, Lists, List.mem_map, PinTag.mk.injEq]
  constructor
  · rintro ⟨id, hid, rfl, rfl⟩
    exact ⟨rfl, hid⟩
  · rintro ⟨rfl, hid⟩
    exact ⟨id, hid, rfl, rfl⟩

theorem tags_enlist (h : tag.pool = p.number) (hnew : tag ∉ p.tags) :
    (p.enlist tag.id).tags = tag :: p.tags := by
  have hid : tag.id ∉ p.live := fun hid => hnew (mem_tags.mpr ⟨h, hid⟩)
  rw [tags, enlist, List.insert_of_not_mem hid, List.map_cons, tags, ← h]

/-- Taking a live number out takes its tag out. -/
theorem tags_erase (h : tag.pool = p.number) :
    tags { p with live := p.live.erase tag.id } = p.tags.erase tag := by
  have hinj : Function.Injective (PinTag.mk p.number) := fun _ _ heq => (PinTag.mk.inj heq).2
  rw [tags, tags, List.map_erase hinj, ← h]

theorem issued_nextTag : p.advance.Issued p.nextTag := ⟨rfl, Nat.lt_succ_self _⟩

theorem Issued.advance (h : p.Issued t) : p.advance.Issued t := ⟨h.1, Nat.lt_succ_of_lt h.2⟩

theorem Issued.ne_nextTag (h : p.Issued t) : t ≠ p.nextTag := by
  rintro rfl
  exact Nat.lt_irrefl _ h.2

end LockedPool

namespace Books

variable {b b' : Books} {i : Nat} {stage : Stage}

/-- The tags that callers have on their way, by how far they got. -/
def onTheWay (b : Books) (f : Stage → List PinTag) : List PinTag := b.callers.flatMap f

/-- How the books stand to each other and to the calls, half-done ones too. -/
structure Balanced (b : Books) : Prop where
  pinned : ∀ stage ∈ b.callers, stage.Pinned
  recorded : ∀ o ∈ b.journal, o.Pinned
  /-- No tag is given out twice. -/
  once : ∀ t, (allocations b.journal).count t + (b.onTheWay Stage.pending).count t ≤ 1
  issued : ∀ t, t ∈ allocations b.journal ∨ t ∈ b.onTheWay Stage.pending → b.pool.Issued t
  /-- Only what was handed out is freed. -/
  freeing : ∀ t ∈ b.onTheWay Stage.freeing, t ∈ allocations b.journal
  /-- What was handed out is in the set or was taken back. -/
  set : ∀ t, (allocations b.journal).count t = b.set.tags.count t + (frees b.journal).count t
  /-- The pool lists what the set holds, but for calls in between. -/
  pool : ∀ t, b.pool.tags.count t + (b.onTheWay Stage.behind).count t =
    b.set.tags.count t + (b.onTheWay Stage.ahead).count t

namespace Balanced

/-! ### What follows for one caller -/

theorem count_pending_pos (hs : b.callers[i]? = some stage) {t : PinTag}
    (ht : t ∈ stage.pending) : 0 < (b.onTheWay Stage.pending).count t :=
  count_flatMap_pos _ hs ht

/-- A tag on its way was not handed out, and the set does not hold it. -/
theorem not_handedOut (h : b.Balanced) (hs : b.callers[i]? = some stage) {t : PinTag}
    (ht : t ∈ stage.pending) :
    (allocations b.journal).count t = 0 ∧ b.set.tags.count t = 0 := by
  have hpos := count_pending_pos hs ht
  have honce := h.once t
  have hset := h.set t
  omega

/-- What is ahead of the set is on its way. -/
theorem ahead_le (b : Books) (t : PinTag) :
    (b.onTheWay Stage.ahead).count t ≤ (b.onTheWay Stage.pending).count t := by
  unfold onTheWay
  induction b.callers with
  | nil => exact Nat.le_refl _
  | cons stage callers ih =>
    have hstage : stage.ahead.count t ≤ stage.pending.count t := by cases stage <;> simp
    rw [List.flatMap_cons, List.flatMap_cons, List.count_append, List.count_append]
    exact Nat.add_le_add hstage ih

/-- A tag that is to be enlisted is not listed yet: the caller has it alone. -/
theorem not_listed (h : b.Balanced) {buffer : Buffer} {tag : PinTag}
    (hs : b.callers[i]? = some (.made buffer tag)) : tag ∉ b.pool.tags := by
  have hset := (h.not_handedOut hs (t := tag) (by simp)).2
  have honce := h.once tag
  have hpool := h.pool tag
  -- Were another caller ahead with the tag, two would have it on their way.
  have hahead := ahead_le (b.move i (.enlisted buffer tag)) tag
  have hpending := count_flatMap_set Stage.pending hs (.enlisted buffer tag) tag
  have hcount := count_flatMap_set Stage.ahead hs (.enlisted buffer tag) tag
  simp only [onTheWay, move, Stage.pending, Stage.ahead, List.count_singleton_self,
    List.count_nil] at hahead hpending hcount honce hpool
  refine List.count_eq_zero.mp ?_
  omega

/-- A tag that the pool lists no more is still in the set. -/
theorem mem_set_of_returned (h : b.Balanced) {buffer : Buffer} {tag : PinTag}
    (hs : b.callers[i]? = some (.returned buffer tag)) : tag ∈ b.set.tags := by
  have hbehind := count_flatMap_pos Stage.behind hs (x := tag) (by simp)
  have hfreeing : tag ∈ b.onTheWay Stage.freeing :=
    List.mem_flatMap.mpr ⟨_, List.mem_of_getElem? hs, by simp⟩
  have halloc := List.count_pos_iff.mpr (h.freeing tag hfreeing)
  have honce := h.once tag
  have hpool := h.pool tag
  have hahead := ahead_le b tag
  refine List.count_pos_iff.mp ?_
  simp only [onTheWay] at *
  omega

/-! ### Every move -/

theorem mem_onTheWay_set {f : Stage → List PinTag} {s : Stage} {t : PinTag}
    (ht : t ∈ (b.callers.set i s).flatMap f) : t ∈ b.onTheWay f ∨ t ∈ f s := by
  obtain ⟨c, hc, hct⟩ := List.mem_flatMap.mp ht
  rcases List.mem_or_eq_of_mem_set hc with hc | rfl
  · exact .inl (List.mem_flatMap.mpr ⟨c, hc, hct⟩)
  · exact .inr hct

theorem pinned_set (h : b.Balanced) {s : Stage} (hs : s.Pinned) :
    ∀ c ∈ b.callers.set i s, c.Pinned := by
  intro c hc
  rcases List.mem_or_eq_of_mem_set hc with hc | rfl
  · exact h.pinned c hc
  · exact hs

theorem recorded_finish (h : b.Balanced) {o : Occurrence} (ho : o.Pinned) :
    ∀ o' ∈ b.journal ++ [o], o'.Pinned :=
  List.forall_mem_append.mpr ⟨h.recorded, List.forall_mem_singleton.mpr ho⟩

/-- What a caller that has ended its call had on its way is gone. -/
theorem mem_onTheWay_free {f : Stage → List PinTag} (hf : f .free = []) {t : PinTag}
    (ht : t ∈ (b.callers.set i .free).flatMap f) : t ∈ b.onTheWay f :=
  (mem_onTheWay_set ht).resolve_right (by simp [hf])

/-- A caller that turns to another stage with the same tag on its way, and none
to free, changes nothing. -/
theorem moveOn (h : b.Balanced) {s : Stage} (hs : b.callers[i]? = some stage) (hp : s.Pinned)
    (hpending : s.pending = stage.pending) (hahead : s.ahead = stage.ahead)
    (hbehind : s.behind = stage.behind)
    (hfreeing : ∀ t ∈ s.freeing, t ∈ allocations b.journal) (m : Memory) :
    Balanced ({ b with memory := m }.move i s) where
  pinned := h.pinned_set hp
  recorded := h.recorded
  once t := by
    have := h.once t
    rwa [onTheWay, ← count_flatMap_set_of_eq Stage.pending hs hpending] at this
  issued t ht := by
    refine h.issued t (ht.imp_right fun ht => ?_)
    rcases mem_onTheWay_set ht with ht | ht
    · exact ht
    · exact List.mem_flatMap.mpr ⟨_, List.mem_of_getElem? hs, hpending ▸ ht⟩
  freeing t ht := (mem_onTheWay_set ht).elim (h.freeing t) (hfreeing t)
  set := h.set
  pool t := by
    have := h.pool t
    rwa [onTheWay, onTheWay, ← count_flatMap_set_of_eq Stage.behind hs hbehind,
      ← count_flatMap_set_of_eq Stage.ahead hs hahead] at this

/-- A caller whose call ends without a change to the books gives its number up,
if it has one. -/
theorem giveUp (h : b.Balanced) (hs : b.callers[i]? = some stage) (hahead : stage.ahead = [])
    (hbehind : stage.behind = []) {o : Occurrence} (ho : o.Pinned)
    (hallocation : o.allocation? = none) (hfree : o.free? = none) :
    (b.finish i o).Balanced := by
  have hallocations : allocations (b.finish i o).journal = allocations b.journal := by
    rw [finish, allocations_snoc, hallocation, Option.toList_none, List.append_nil]
  have hfrees : frees (b.finish i o).journal = frees b.journal := by
    rw [finish, frees_snoc, hfree, Option.toList_none, List.append_nil]
  refine
    { pinned := h.pinned_set trivial, recorded := h.recorded_finish ho, once := fun t => ?once,
      issued := fun t ht => ?issued, freeing := fun t ht => ?freeing, set := fun t => ?set,
      pool := fun t => ?pool }
  case once =>
    have honce := h.once t
    have hpending := count_flatMap_set Stage.pending hs .free t
    rw [hallocations]
    simp only [onTheWay, finish, move, Stage.pending, List.count_nil] at honce hpending ⊢
    omega
  case issued =>
    rw [hallocations] at ht
    exact h.issued t (ht.imp_right (mem_onTheWay_free rfl))
  case freeing =>
    rw [hallocations]
    exact h.freeing t (mem_onTheWay_free rfl ht)
  case set =>
    rw [hallocations, hfrees]
    exact h.set t
  case pool =>
    have := h.pool t
    rwa [onTheWay, onTheWay, ← count_flatMap_set_of_eq Stage.behind hs (b := .free) hbehind.symm,
      ← count_flatMap_set_of_eq Stage.ahead hs (b := .free) hahead.symm] at this

/-- A free caller takes the next number, which nobody was given before. -/
theorem took (h : b.Balanced) (hs : b.callers[i]? = some .free) (type : ElementType)
    (count : Nat) : (b.allocate i type count).Balanced := by
  have hold {t : PinTag} (ht : t ∈ allocations b.journal ∨ t ∈ b.onTheWay Stage.pending) :
      t ≠ b.pool.nextTag := (h.issued t ht).ne_nextTag
  refine
    { pinned := h.pinned_set trivial, recorded := h.recorded, once := fun t => ?once,
      issued := fun t ht => ?issued, freeing := fun t ht => ?freeing, set := h.set,
      pool := fun t => ?pool }
  case once =>
    have honce := h.once t
    have hpending := count_flatMap_set Stage.pending hs (.numbered type count b.pool.nextTag) t
    simp only [onTheWay, allocate, move, Stage.pending, List.count_nil,
      List.count_singleton] at honce hpending ⊢
    by_cases ht : b.pool.nextTag = t
    · have h₁ : (allocations b.journal).count t = 0 :=
        List.count_eq_zero.mpr fun hmem => hold (.inl hmem) ht.symm
      have h₂ : (b.callers.flatMap Stage.pending).count t = 0 :=
        List.count_eq_zero.mpr fun hmem => hold (.inr hmem) ht.symm
      rw [if_pos (beq_iff_eq.mpr ht)] at hpending
      omega
    · rw [if_neg (by simpa using ht)] at hpending
      omega
  case issued =>
    rcases ht with ht | ht
    · exact (h.issued t (.inl ht)).advance
    · rcases mem_onTheWay_set ht with ht | ht
      · exact (h.issued t (.inr ht)).advance
      · rw [List.mem_singleton.mp ht]
        exact LockedPool.issued_nextTag
  case freeing => exact (mem_onTheWay_set ht).elim (h.freeing t) fun ht => by cases ht
  case pool =>
    have := h.pool t
    rwa [onTheWay, onTheWay,
      ← count_flatMap_set_of_eq Stage.behind hs (b := .numbered type count b.pool.nextTag) rfl,
      ← count_flatMap_set_of_eq Stage.ahead hs (b := .numbered type count b.pool.nextTag) rfl]
      at this

/-- The pool lists a tag that the set does not hold yet. -/
theorem enlisted (h : b.Balanced) {buffer : Buffer} {tag : PinTag}
    (hs : b.callers[i]? = some (.made buffer tag)) :
    Balanced ({ b with pool := b.pool.enlist tag.id }.move i (.enlisted buffer tag)) := by
  have hissued : b.pool.Issued tag :=
    h.issued tag (.inr (List.mem_flatMap.mpr ⟨_, List.mem_of_getElem? hs, by simp⟩))
  refine
    { pinned := h.pinned_set (h.pinned (.made buffer tag) (List.mem_of_getElem? hs)),
      recorded := h.recorded, once := fun t => ?once, issued := fun t ht => ?issued,
      freeing := fun t ht => ?freeing, set := h.set, pool := fun t => ?pool }
  case once =>
    have := h.once t
    rwa [onTheWay,
      ← count_flatMap_set_of_eq Stage.pending hs (b := .enlisted buffer tag) rfl] at this
  case issued =>
    refine h.issued t (ht.imp_right fun ht => (mem_onTheWay_set ht).elim id fun ht => ?_)
    exact List.mem_flatMap.mpr ⟨.made buffer tag, List.mem_of_getElem? hs, ht⟩
  case freeing => exact (mem_onTheWay_set ht).elim (h.freeing t) fun ht => by cases ht
  case pool =>
    have hpool := h.pool t
    have hbehind := count_flatMap_set Stage.behind hs (.enlisted buffer tag) t
    have hahead := count_flatMap_set Stage.ahead hs (.enlisted buffer tag) t
    have htags := congrArg (List.count t)
      (LockedPool.tags_enlist hissued.1 (h.not_listed hs))
    rw [List.count_cons] at htags
    simp only [onTheWay, move, Stage.behind, Stage.ahead, List.count_nil,
      List.count_singleton] at hpool hbehind hahead ⊢
    omega

/-- The set gets the tag that the pool lists already, and the call ends. -/
theorem handedOut (h : b.Balanced) {buffer : Buffer} {tag : PinTag}
    (hs : b.callers[i]? = some (.enlisted buffer tag)) :
    Balanced ({ b with set := b.set.insert tag }.finish i (.allocated buffer tag)) := by
  have hpin : buffer.pin = some tag := h.pinned _ (List.mem_of_getElem? hs)
  have hnew : tag ∉ b.set.tags :=
    List.count_eq_zero.mp (h.not_handedOut hs (t := tag) (by simp)).2
  have hset : (b.set.insert tag).tags = tag :: b.set.tags := List.insert_of_not_mem hnew
  refine
    { pinned := h.pinned_set trivial, recorded := h.recorded_finish hpin,
      once := fun t => ?once, issued := fun t ht => ?issued, freeing := fun t ht => ?freeing,
      set := fun t => ?set, pool := fun t => ?pool }
  case once =>
    have honce := h.once t
    have hpending := count_flatMap_set Stage.pending hs .free t
    simp only [onTheWay, finish, move, allocations_snoc, Occurrence.allocation?,
      Option.toList_some, List.count_append, Stage.pending, List.count_nil] at honce hpending ⊢
    omega
  case issued =>
    refine h.issued t ?_
    have hpending : t = tag → t ∈ b.onTheWay Stage.pending := fun heq =>
      List.mem_flatMap.mpr ⟨_, List.mem_of_getElem? hs, by simp [heq]⟩
    simp only [finish, move, allocations_snoc, Occurrence.allocation?, Option.toList_some,
      List.mem_append, List.mem_singleton] at ht
    rcases ht with (ht | ht) | ht
    · exact .inl ht
    · exact .inr (hpending ht)
    · exact .inr (mem_onTheWay_free rfl ht)
  case freeing =>
    rw [finish, allocations_snoc]
    exact List.mem_append_left _ (h.freeing t (mem_onTheWay_free rfl ht))
  case set =>
    have hbalance := h.set t
    simp only [finish, move, allocations_snoc, frees_snoc, Occurrence.allocation?,
      Occurrence.free?, Option.toList_some, Option.toList_none, List.append_nil,
      List.count_append, hset, List.count_cons, List.count_nil] at hbalance ⊢
    omega
  case pool =>
    have hpool := h.pool t
    have hbehind := count_flatMap_set Stage.behind hs .free t
    have hahead := count_flatMap_set Stage.ahead hs .free t
    simp only [onTheWay, finish, move, Stage.behind, Stage.ahead, hset, List.count_cons,
      List.count_nil] at hpool hbehind hahead ⊢
    omega

/-- The pool takes a buffer back whose tag the set still holds. -/
theorem returned (h : b.Balanced) {buffer : Buffer} {tag : PinTag}
    (hs : b.callers[i]? = some (.known buffer tag)) (hpool : tag.pool = b.pool.number)
    (hlive : tag.id ∈ b.pool.live) :
    Balanced ({ b with pool := { b.pool with live := b.pool.live.erase tag.id } }.move i
      (.returned buffer tag)) := by
  have hmem : tag ∈ b.pool.tags := LockedPool.mem_tags.mpr ⟨hpool, hlive⟩
  refine
    { pinned := h.pinned_set (h.pinned (.known buffer tag) (List.mem_of_getElem? hs)),
      recorded := h.recorded, once := fun t => ?once, issued := fun t ht => ?issued,
      freeing := fun t ht => ?freeing, set := h.set, pool := fun t => ?pool }
  case once =>
    have := h.once t
    rwa [onTheWay,
      ← count_flatMap_set_of_eq Stage.pending hs (b := .returned buffer tag) rfl] at this
  case issued =>
    exact h.issued t (ht.imp_right fun ht => (mem_onTheWay_set ht).elim id fun ht => by cases ht)
  case freeing =>
    refine (mem_onTheWay_set ht).elim (h.freeing t) fun ht => h.freeing t ?_
    exact List.mem_flatMap.mpr ⟨.known buffer tag, List.mem_of_getElem? hs, ht⟩
  case pool =>
    have hbalance := h.pool t
    have hbehind := count_flatMap_set Stage.behind hs (.returned buffer tag) t
    have hahead := count_flatMap_set Stage.ahead hs (.returned buffer tag) t
    have htags := (List.perm_cons_erase hmem).count_eq t
    rw [← LockedPool.tags_erase hpool, List.count_cons] at htags
    simp only [onTheWay, move, Stage.behind, Stage.ahead, List.count_nil,
      List.count_singleton] at hbalance hbehind hahead ⊢
    omega

/-- The set loses the tag that the pool lists no more, and the call ends. -/
theorem freed (h : b.Balanced) {buffer : Buffer} {tag : PinTag}
    (hs : b.callers[i]? = some (.returned buffer tag)) :
    Balanced ({ b with set := b.set.erase tag }.finish i (.freed buffer tag)) := by
  have hpin : buffer.pin = some tag := h.pinned _ (List.mem_of_getElem? hs)
  have hset (t : PinTag) : b.set.tags.count t = (tag :: (b.set.erase tag).tags).count t :=
    (List.perm_cons_erase (h.mem_set_of_returned hs)).count_eq t
  refine
    { pinned := h.pinned_set trivial, recorded := h.recorded_finish hpin,
      once := fun t => ?once, issued := fun t ht => ?issued, freeing := fun t ht => ?freeing,
      set := fun t => ?set, pool := fun t => ?pool }
  case once =>
    have := h.once t
    rw [onTheWay, ← count_flatMap_set_of_eq Stage.pending hs (b := .free) rfl] at this
    simpa only [onTheWay, finish, Books.move, allocations_snoc, Occurrence.allocation?,
      Option.toList_none, List.append_nil] using this
  case issued =>
    simp only [finish, move, allocations_snoc, Occurrence.allocation?, Option.toList_none,
      List.append_nil] at ht
    exact h.issued t (ht.imp_right (mem_onTheWay_free rfl))
  case freeing =>
    rw [finish, allocations_snoc]
    exact List.mem_append_left _ (h.freeing t (mem_onTheWay_free rfl ht))
  case set =>
    have hbalance := h.set t
    have ht := hset t
    simp only [finish, move, allocations_snoc, frees_snoc, Occurrence.allocation?,
      Occurrence.free?, Option.toList_some, Option.toList_none, List.append_nil,
      List.count_append, List.count_cons, List.count_nil] at hbalance ht ⊢
    omega
  case pool =>
    have hpool := h.pool t
    have ht := hset t
    have hbehind := count_flatMap_set Stage.behind hs .free t
    have hahead := count_flatMap_set Stage.ahead hs .free t
    simp only [onTheWay, finish, move, Stage.behind, Stage.ahead, List.count_cons,
      List.count_nil] at hpool ht hbehind hahead ⊢
    omega

/-- Every move keeps the balance. -/
theorem move (h : b.Balanced) (hs : b.callers[i]? = some stage) (hm : Move b i stage b') :
    b'.Balanced := by
  cases hm with
  | took type count => exact h.took hs type count
  | failed => exact h.giveUp hs rfl rfl trivial rfl rfl
  | made pin =>
    exact h.moveOn hs (s := .made _ _) pin rfl rfl rfl (fun t ht => by cases ht) _
  | enlisted => exact h.enlisted hs
  | handedOut => exact h.handedOut hs
  | disowned => exact h.giveUp hs rfl rfl trivial rfl rfl
  | knew pin listed =>
    refine h.moveOn hs (s := .known _ _) pin rfl rfl rfl (fun t ht => ?_) b.memory
    rw [List.mem_singleton.mp ht, ← List.count_pos_iff, h.set]
    exact Nat.lt_add_right _ (List.count_pos_iff.mpr listed)
  | refused => exact h.giveUp hs rfl rfl trivial rfl rfl
  | returned pool live => exact h.returned hs pool live
  | freed => exact h.freed hs

end Balanced

/-! ### After every schedule -/

theorem callers_start (number : Nat) (m : Memory) (callers : Nat) :
    ∀ stage ∈ (start number m callers).callers, stage = .free :=
  fun _ h => List.eq_of_mem_replicate h

theorem balanced_start (number : Nat) (m : Memory) (callers : Nat) :
    (start number m callers).Balanced := by
  have hfree := callers_start number m callers
  have hnone (f : Stage → List PinTag) (hf : f .free = []) (t : PinTag) :
      ((start number m callers).onTheWay f).count t = 0 :=
    count_flatMap_eq_zero f (fun stage hstage => by rw [hfree stage hstage, hf]) t
  refine
    { pinned := fun stage hstage => ?pinned, recorded := nofun, once := fun t => ?once,
      issued := fun t ht => ?issued, freeing := fun t ht => ?freeing, set := fun _ => rfl,
      pool := fun t => ?pool }
  case pinned =>
    rw [hfree stage hstage]
    trivial
  case once =>
    rw [hnone _ rfl]
    exact Nat.zero_le _
  case issued =>
    rcases ht with ht | ht
    · cases ht
    · exact absurd ht (List.count_eq_zero.mp (hnone _ rfl t))
  case freeing => exact absurd ht (List.count_eq_zero.mp (hnone _ rfl t))
  case pool =>
    rw [hnone _ rfl, hnone _ rfl]
    rfl

variable {schedule : List Event} {number callers : Nat} {m : Memory}

theorem balanced_of_run? (h : (start number m callers).run? schedule = some b) :
    b.Balanced :=
  foldlM_induction (P := fun _ u => u.Balanced) (balanced_start number m callers)
    (fun _ _ _ _ _ hu hstep => by
      obtain ⟨i, stage, hs, hmove, -⟩ := move_of_step? hu.pinned hstep
      exact hu.move hs hmove) h

/-- The pool's next number counts the requests. -/
theorem nextId_of_run? (h : (start number m callers).run? schedule = some b) :
    b.pool.nextId = 1 + schedule.countP Event.isAllocation := by
  refine foldlM_induction (P := fun before u =>
    u.pool.nextId = 1 + before.countP Event.isAllocation) rfl ?_ h
  intro before u e u' hrun hu hstep
  obtain ⟨i, stage, -, -, hnext⟩ := move_of_step? (balanced_of_run? hrun).pinned hstep
  rw [hnext, hu, List.countP_append, List.countP_singleton]
  exact Nat.add_assoc ..

end Books
end BlockTransfer
