import BlockTransfer.LockedPool.Books
import BlockTransfer.Proofs.Turns
/-!
# What a move does to the two books

A caller that allocates or frees a locked buffer makes one of ten moves
(`Books.Move`), and every event of every schedule is one of them
(`Books.move_of_step?`).

A tag is pending while its buffer is on the way to the set; it is ahead of the
set once the pool lists it. A tag is behind the pool when the pool has taken the
buffer back and the set still holds the tag. The journal tells which tags were
handed out, and which were taken back.

Key definitions: `Books.Move`, `Books.allocations`, `Books.frees`.
Key theorem: `Books.move_of_step?`.
-/

namespace BlockTransfer
namespace Books

/-! ### Reading the journal -/

/-- The tag that was handed out. -/
@[simp] def Occurrence.allocation? : Occurrence → Option PinTag
  | allocated _ tag => some tag
  | _ => none

/-- The tag that was taken back. -/
@[simp] def Occurrence.free? : Occurrence → Option PinTag
  | freed _ tag => some tag
  | _ => none

/-- The tags of the allocations that succeeded, in order. -/
def allocations (journal : List Occurrence) : List PinTag :=
  journal.filterMap Occurrence.allocation?

/-- The tags of the frees that succeeded, in order. -/
def frees (journal : List Occurrence) : List PinTag := journal.filterMap Occurrence.free?

@[simp] theorem allocations_snoc (journal : List Occurrence) (o : Occurrence) :
    allocations (journal ++ [o]) = allocations journal ++ o.allocation?.toList :=
  filterMap_snoc ..

@[simp] theorem frees_snoc (journal : List Occurrence) (o : Occurrence) :
    frees (journal ++ [o]) = frees journal ++ o.free?.toList :=
  filterMap_snoc ..

/-! ### Tags on their way -/

/-- The tag that was taken for a buffer and has not reached the set. -/
@[simp] def Stage.pending : Stage → List PinTag
  | numbered _ _ tag | made _ tag | enlisted _ tag => [tag]
  | _ => []

/-- The tag that the pool lists before the set does. -/
@[simp] def Stage.ahead : Stage → List PinTag
  | enlisted _ tag => [tag]
  | _ => []

/-- The tag that the set holds and the pool lists no more. -/
@[simp] def Stage.behind : Stage → List PinTag
  | returned _ tag => [tag]
  | _ => []

/-- The tag of a buffer that is being freed. -/
@[simp] def Stage.freeing : Stage → List PinTag
  | known _ tag | returned _ tag => [tag]
  | _ => []

/-- A buffer on its way carries the tag it is booked under. -/
@[simp] def Stage.Pinned : Stage → Prop
  | made buffer tag | enlisted buffer tag | known buffer tag | returned buffer tag =>
    buffer.pin = some tag
  | _ => True

/-- A buffer in the journal carries the tag it was booked under. -/
@[simp] def Occurrence.Pinned : Occurrence → Prop
  | allocated buffer tag | freed buffer tag => buffer.pin = some tag
  | _ => True

/-- Whether the event starts an allocation. -/
def Event.isAllocation : Event → Bool
  | allocate .. => true
  | _ => false

/-! ### The moves -/

/-- The books after a caller, in this stage, made a move. -/
inductive Move (b : Books) (i : Nat) : Stage → Books → Prop where
  /-- It takes a number. -/
  | took (type : ElementType) (count : Nat) : Move b i .free (b.allocate i type count)
  /-- The buffer it asked for cannot be made. -/
  | failed {type count tag e} (make : b.memory.locked? type count tag = .error e) :
    Move b i (.numbered type count tag) (b.finish i (.notAllocated e))
  | made {type count tag buffer memory} (pin : buffer.pin = some tag)
      (make : b.memory.locked? type count tag = .ok (buffer, memory)) :
    Move b i (.numbered type count tag) ({ b with memory }.move i (.made buffer tag))
  | enlisted {buffer tag} : Move b i (.made buffer tag)
      ({ b with pool := b.pool.enlist tag.id }.move i (.enlisted buffer tag))
  | handedOut {buffer tag} : Move b i (.enlisted buffer tag)
      ({ b with set := b.set.insert tag }.finish i (.allocated buffer tag))
  /-- The buffer it wants to free is not in the set. -/
  | disowned {buffer e} : Move b i .free (b.finish i (.notFreed buffer e))
  | knew {buffer tag} (pin : buffer.pin = some tag) (listed : tag ∈ b.set.tags) :
    Move b i .free (b.move i (.known buffer tag))
  /-- The pool does not take the buffer back. -/
  | refused {buffer tag e} : Move b i (.known buffer tag) (b.finish i (.notFreed buffer e))
  | returned {buffer tag} (pool : tag.pool = b.pool.number) (live : tag.id ∈ b.pool.live) :
    Move b i (.known buffer tag)
      ({ b with pool := { b.pool with live := b.pool.live.erase tag.id } }.move i
        (.returned buffer tag))
  | freed {buffer tag} : Move b i (.returned buffer tag)
      ({ b with set := b.set.erase tag }.finish i (.freed buffer tag))

variable {b b' : Books} {i : Nat} {stage : Stage} {e : Event}

theorem pin_of_locked? {m m' : Memory} {type : ElementType} {count : Nat} {tag : PinTag}
    {buffer : Buffer} (h : m.locked? type count tag = .ok (buffer, m')) :
    buffer.pin = some tag := by
  unfold Memory.locked? Memory.zeroedWith? at h
  split at h <;> cases h
  rfl

/-- What the pool takes back is live. -/
theorem release_ok {p p' : LockedPool} {buffer : Buffer} {tag : PinTag}
    (pin : buffer.pin = some tag) (h : p.release buffer = .ok p') :
    tag.pool = p.number ∧ tag.id ∈ p.live ∧ p' = { p with live := p.live.erase tag.id } := by
  simp only [LockedPool.release, pin] at h
  split at h
  · cases h
  · rename_i hpool
    split at h
    · cases h
      exact ⟨not_not.mp hpool, ‹_›, rfl⟩
    · cases h

theorem move_free (b : Books) (i : Nat) (buffer : Buffer) : Move b i .free (b.free i buffer) := by
  unfold free
  split
  · exact .disowned
  · rename_i tag hpin
    split
    · exact .knew hpin (List.contains_iff_mem.mp ‹_›)
    · exact .disowned

theorem move_of_goOn? (hp : stage.Pinned) (h : b.goOn? i stage = some b') : Move b i stage b' := by
  cases stage with
  | free => cases h
  | numbered type count tag =>
    simp only [goOn?] at h
    split at h <;> cases h
    · exact .failed ‹_›
    · exact .made (pin_of_locked? ‹_›) ‹_›
  | made buffer tag =>
    cases h
    exact .enlisted
  | enlisted buffer tag =>
    cases h
    exact .handedOut
  | known buffer tag =>
    simp only [goOn?] at h
    split at h <;> cases h
    · exact .refused
    · obtain ⟨hpool, hlive, rfl⟩ := release_ok hp ‹_›
      exact .returned hpool hlive
  | returned buffer tag =>
    cases h
    exact .freed

/-- Every event is a move of a caller. Only the event that starts an allocation
takes a number. -/
theorem move_of_step? (hp : ∀ stage ∈ b.callers, stage.Pinned) (h : b.step? e = some b') :
    ∃ i stage, b.callers[i]? = some stage ∧ Move b i stage b' ∧
      b'.pool.nextId = b.pool.nextId + if e.isAllocation then 1 else 0 := by
  unfold step? at h
  split at h
  · rename_i i type count hstage
    cases h
    exact ⟨i, _, hstage, .took type count, rfl⟩
  · rename_i i buffer hstage
    cases h
    refine ⟨i, _, hstage, move_free b i buffer, ?_⟩
    unfold free
    split
    · rfl
    · split <;> rfl
  · rename_i i stage hstage
    have hmove := move_of_goOn? (hp stage (List.mem_of_getElem? hstage)) h
    refine ⟨i, stage, hstage, hmove, ?_⟩
    cases hmove with
    | took => cases h
    | _ => rfl
  · cases h

end Books
end BlockTransfer
