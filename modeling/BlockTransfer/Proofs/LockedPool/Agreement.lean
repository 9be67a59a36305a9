import BlockTransfer.Proofs.LockedPool.Balance
/-!
# The books on locked buffers agree between calls

Any number of callers allocate and free locked buffers of one activation, in any
order of their moves; buffers that were never locked, buffers of other pools,
buffers freed before and buffers too large to be had are among what they ask
for. After every schedule no tag was handed out twice and no buffer was taken
back twice; the set holds what was handed out and not taken back; and where no
call is in progress, the pool lists exactly what the set holds
(`Books.agree_of_run?`).

A number is used up by every request, so no number is greater than the number of
requests: a counter of 64 bits gives out the same numbers for as long as there
are fewer than 2⁶⁴ requests.

Key definition: `Books.Agree`.
Key theorem: `Books.agree_of_run?`.
-/

namespace BlockTransfer
namespace Books

variable {b b' : Books} {i : Nat} {stage : Stage}

/-! ### Calls end -/

/-- How many moves the caller has left at most. -/
def Stage.moves : Stage → Nat
  | free => 0
  | numbered .. => 3
  | made .. | known .. => 2
  | enlisted .. | returned .. => 1

/-- How many moves all callers have left at most. -/
def moves (b : Books) : Nat := (b.callers.map Stage.moves).sum

/-- A caller in a call can go on with it. -/
theorem exists_goOn? (b : Books) (i : Nat) (h : stage ≠ .free) :
    ∃ b', b.goOn? i stage = some b' := by
  cases stage with
  | free => exact absurd rfl h
  | numbered type count tag =>
    simp only [goOn?]
    split <;> exact ⟨_, rfl⟩
  | known buffer tag =>
    simp only [goOn?]
    split <;> exact ⟨_, rfl⟩
  | made | enlisted | returned => exact ⟨_, rfl⟩

theorem moves_goOn?_lt (hs : b.callers[i]? = some stage) (h : b.goOn? i stage = some b') :
    b'.moves < b.moves := by
  have hset (s : Stage) : ((b.callers.set i s).map Stage.moves).sum + stage.moves =
      b.moves + s.moves := sum_map_set Stage.moves hs s
  have hlt {s : Stage} (hless : s.moves < stage.moves) (hcallers : b'.callers = b.callers.set i s) :
      b'.moves < b.moves := by
    have := hset s
    rw [← hcallers] at this
    unfold moves at this ⊢
    omega
  cases stage with
  | free => cases h
  | numbered type count tag =>
    simp only [goOn?] at h
    split at h <;> cases h
    · exact hlt (s := .free) (by simp [Stage.moves]) rfl
    · exact hlt (s := .made _ _) (by simp [Stage.moves]) rfl
  | made buffer tag =>
    cases h
    exact hlt (s := .enlisted buffer tag) (by simp [Stage.moves]) rfl
  | enlisted buffer tag =>
    cases h
    exact hlt (s := .free) (by simp [Stage.moves]) rfl
  | known buffer tag =>
    simp only [goOn?] at h
    split at h <;> cases h
    · exact hlt (s := .free) (by simp [Stage.moves]) rfl
    · exact hlt (s := .returned _ _) (by simp [Stage.moves]) rfl
  | returned buffer tag =>
    cases h
    exact hlt (s := .free) (by simp [Stage.moves]) rfl

/-- A schedule that begins with a caller that goes on with its call. -/
theorem run?_goOn {u : Books} {rest : List Event} (hs : b.callers[i]? = some stage)
    (h : b.goOn? i stage = some u) (hrest : u.run? rest = some b') :
    b.run? (.goOn i :: rest) = some b' := by
  have hstep : b.step? (.goOn i) = some u := by simpa only [step?, Event.caller, hs] using h
  rw [run?, List.foldlM_cons, hstep]
  exact hrest

/-- The calls in progress can be brought to their ends. -/
theorem exists_quiet (b : Books) : ∃ (turns : List Nat) (b' : Books),
    b.run? (turns.map .goOn) = some b' ∧ b'.isQuiet = true := by
  induction hn : b.moves using Nat.strong_induction_on generalizing b with
  | _ n ih =>
    by_cases hq : b.isQuiet = true
    · exact ⟨[], b, rfl, hq⟩
    · obtain ⟨stage, hmem, hbusy⟩ : ∃ stage ∈ b.callers, stage ≠ .free := by
        simpa [isQuiet] using hq
      obtain ⟨i, hs⟩ := List.mem_iff_getElem?.mp hmem
      obtain ⟨u, hu⟩ := exists_goOn? b i hbusy
      obtain ⟨turns, b', hrun, hquiet⟩ := ih u.moves (hn ▸ moves_goOn?_lt hs hu) u rfl
      exact ⟨i :: turns, b', run?_goOn hs hu hrun, hquiet⟩

/-! ### Agreement -/

/-- What holds of the books of one activation after a schedule. -/
structure Agree (schedule : List Event) (b : Books) : Prop where
  /-- No two buffers were handed out under one tag. -/
  once : (allocations b.journal).Nodup
  /-- The tags are the pool's, and their numbers count the requests. -/
  numbers : ∀ t ∈ allocations b.journal, t.pool = b.pool.number ∧
    t.id ≤ schedule.countP Event.isAllocation
  /-- What was handed out under a tag, or taken back under it, carries it. -/
  carries : ∀ o ∈ b.journal, o.Pinned
  /-- No buffer was taken back twice. -/
  freedOnce : (frees b.journal).Nodup
  /-- What was handed out is in the set, or was taken back. -/
  handedOut : (allocations b.journal).Perm (b.set.tags ++ frees b.journal)
  /-- The pool lists what the set holds, but for the calls that have changed one
  of the two and not the other. -/
  halfDone : (b.pool.tags ++ b.onTheWay Stage.behind).Perm
    (b.set.tags ++ b.onTheWay Stage.ahead)
  /-- Between calls, the set holds exactly what the pool lists. -/
  same : b.isQuiet = true →
    b.set.tags.Nodup ∧ (∀ t, t ∈ b.set.tags ↔ b.pool.Lists t) ∧ b.set.size = b.pool.outstanding
  /-- The size of the set is the number of buffers handed out less the number of
  buffers taken back. -/
  size : b.set.size + (frees b.journal).length = (allocations b.journal).length
  /-- Calls in progress come to their ends if their callers go on. -/
  ends : ∃ (turns : List Nat) (b' : Books),
    b.run? (turns.map .goOn) = some b' ∧ b'.isQuiet = true

theorem IsQuiet.onTheWay (h : b.isQuiet = true) {f : Stage → List PinTag} (hf : f .free = []) :
    b.onTheWay f = [] := by
  refine List.flatMap_eq_nil_iff.mpr fun stage hstage => ?_
  have hfree : stage = .free := by simpa using List.all_eq_true.mp h stage hstage
  rw [hfree, hf]

namespace Balanced

variable (h : b.Balanced)
include h

theorem nodup_allocations : (allocations b.journal).Nodup :=
  List.nodup_iff_count_le_one.mpr fun t => (Nat.le_add_right _ _).trans (h.once t)

theorem perm_allocations : (allocations b.journal).Perm (b.set.tags ++ frees b.journal) :=
  List.perm_iff_count.mpr fun t => by rw [List.count_append, h.set t]

theorem perm_tags : (b.pool.tags ++ b.onTheWay Stage.behind).Perm
    (b.set.tags ++ b.onTheWay Stage.ahead) :=
  List.perm_iff_count.mpr fun t => by rw [List.count_append, List.count_append, h.pool t]

theorem nodup_set_frees : (b.set.tags ++ frees b.journal).Nodup :=
  h.perm_allocations.nodup_iff.mp h.nodup_allocations

/-- With no call in progress the pool lists what the set holds. -/
theorem perm_of_quiet (hq : b.isQuiet = true) : b.pool.tags.Perm b.set.tags := by
  have hperm := h.perm_tags
  rwa [IsQuiet.onTheWay hq rfl, IsQuiet.onTheWay hq rfl, List.append_nil, List.append_nil] at hperm

end Balanced

/-- Whatever callers ask of the books of a new activation, and in whatever order
they make their moves, the books agree between calls, tags are handed out once,
and buffers are taken back once. -/
theorem agree_of_run? {schedule : List Event} {number callers : Nat} {m : Memory}
    (h : (start number m callers).run? schedule = some b) :
    Agree schedule b := by
  have hb := balanced_of_run? h
  have hnext := nextId_of_run? h
  refine
    { once := hb.nodup_allocations
      numbers := fun t ht => ?_
      carries := hb.recorded
      freedOnce := hb.nodup_set_frees.of_append_right
      handedOut := hb.perm_allocations
      halfDone := hb.perm_tags
      same := fun hq => ?_
      size := ?_
      ends := exists_quiet b }
  · obtain ⟨hpool, hid⟩ := hb.issued t (.inl ht)
    exact ⟨hpool, by omega⟩
  · have hperm := hb.perm_of_quiet hq
    refine ⟨hb.nodup_set_frees.of_append_left, fun t => ?_, ?_⟩
    · rw [← hperm.mem_iff, LockedPool.mem_tags]
    · rw [LockedSet.size, ← hperm.length_eq, LockedPool.tags, List.length_map,
        LockedPool.outstanding]
  · rw [LockedSet.size, ← List.length_append]
    exact hb.perm_allocations.length_eq.symm

namespace TwoCallers

/-- The buffer that the first caller gets. -/
def first : Buffer := ⟨0, .u8, 1, some ⟨7, 1⟩⟩

/-- The buffer that it gets after that. -/
def last : Buffer := ⟨1, .u16, 4, some ⟨7, 3⟩⟩

/-- While the first caller gets a buffer, the other asks for one that is too
large, and tries to free the first one before the set has its tag. Then both free
it at once, and in between come a buffer that was never locked and one of another
pool. In the end the first caller gets another buffer. -/
def schedule : List Event :=
  [.allocate 0 .u8 1, .allocate 1 .f64 Word.count, .goOn 0, .goOn 1, .goOn 0, .free 1 first,
    .goOn 0, .free 0 first, .free 1 first, .goOn 1, .goOn 0, .goOn 1,
    .free 0 ⟨0, .u8, 1, none⟩, .free 1 ⟨0, .u8, 1, some ⟨8, 1⟩⟩,
    .allocate 0 .u16 2, .goOn 0, .goOn 0, .goOn 0]

/-- How the calls end. -/
def ends : List Occurrence :=
  [.notAllocated (.invalidBuffer (.overflow Word.count .f64)), .notFreed first (.unknown 1),
    .allocated first ⟨7, 1⟩, .notFreed first (.unknown 1), .freed first ⟨7, 1⟩,
    .notFreed ⟨0, .u8, 1, none⟩ .notLocked, .notFreed ⟨0, .u8, 1, some ⟨8, 1⟩⟩ (.unknown 1),
    .allocated last ⟨7, 3⟩]

end TwoCallers

open TwoCallers in
/-- Of two frees of one buffer at once, one succeeds; the number of the buffer
that could not be made is not given out again. -/
theorem agree_of_run?_two_callers : ∃ b, (start 7 {} 2).run? schedule = some b ∧
    b.journal = ends ∧ b.isQuiet = true ∧ b.set.tags = [⟨7, 3⟩] ∧ Agree schedule b := by
  have hend : ((start 7 {} 2).run? schedule).map
      (fun b => (b.journal, b.isQuiet, b.set.tags)) = some (ends, true, [⟨7, 3⟩]) := by
    decide
  obtain ⟨b, hb, heq⟩ := Option.map_eq_some_iff.mp hend
  obtain ⟨hjournal, hrest⟩ := Prod.mk.inj heq
  obtain ⟨hquiet, htags⟩ := Prod.mk.inj hrest
  exact ⟨b, hb, hjournal, hquiet, htags, agree_of_run? hb⟩

end Books
end BlockTransfer
