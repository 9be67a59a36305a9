import BlockTransfer.Device.Fleet
import BlockTransfer.Proofs.LockedPool.Balance
/-!
# The pools of several devices and what they handed out

The copy of a backend numbers the pools of its devices in order, so a tag tells
which device handed a buffer out. For each device the tags it handed out are those
that its pool lists and those that it took back (`Fleet.Balanced`). A device that
answers changes its pool by the tag it hands out or takes back, and that keeps the
balance (`Fleet.Balanced.turn`).

Where the balance holds, a pool that is to take a buffer back knows what happened
to it: the buffer is ordinary, another device's, its own and taken back already,
or its own and still out (`Fleet.Balanced.releases`).

Key definitions: `Fleet.Balanced`, `Fleet.Releases`.
Key theorems: `Fleet.Balanced.turn`, `Fleet.Balanced.releases`.
-/

namespace BlockTransfer
namespace Fleet

variable {journal : List Occurrence} {i j : Nat} {o : Occurrence} {b : Buffer} {r : Request}

/-- An element of a list with one more at its end. -/
theorem getElem?_concat_cases {α : Type} {l : List α} {a x : α} (h : (l ++ [a])[i]? = some x) :
    l[i]? = some x ∨ i = l.length ∧ x = a := by
  rw [List.getElem?_append] at h
  split at h
  · exact .inl h
  · rw [List.getElem?_singleton] at h
    split at h <;> cases h
    exact .inr ⟨by omega, rfl⟩

/-- What is given out and kept or given back stays so when more is given out and
some of it given back. -/
theorem perm_append_of_balance {α : Type} {out out' kept kept' back back' : List α}
    (hold : out.Perm (kept ++ back)) (hnew : (out' ++ kept).Perm (kept' ++ back')) :
    (out ++ out').Perm (kept' ++ (back ++ back')) :=
  calc
    (out ++ out').Perm (kept ++ back ++ out') := hold.append_right out'
    List.Perm _ (out' ++ (kept ++ back)) := List.perm_append_comm
    List.Perm _ (out' ++ kept ++ back) := .of_eq (List.append_assoc ..).symm
    List.Perm _ (kept' ++ back' ++ back) := hnew.append_right back
    List.Perm _ (kept' ++ (back' ++ back)) := .of_eq (List.append_assoc ..)
    List.Perm _ (kept' ++ (back ++ back')) := List.perm_append_comm.append_left kept'

/-! ### Reading the journal -/

theorem buffers_snoc (journal : List Occurrence) (o : Occurrence) :
    buffers (journal ++ [o]) = buffers journal ++ o.buffer?.toList :=
  filterMap_snoc ..

theorem handedOut_snoc (journal : List Occurrence) (o : Occurrence) (i : Nat) :
    handedOut (journal ++ [o]) i = handedOut journal i ++ (o.handedOut? i).toList :=
  filterMap_snoc ..

theorem takenBack_snoc (journal : List Occurrence) (o : Occurrence) (i : Nat) :
    takenBack (journal ++ [o]) i = takenBack journal i ++ (o.takenBack? i).toList :=
  filterMap_snoc ..

/-- Whether the device at place `i` was asked for a locked buffer, which uses up
one of its numbers. -/
def Occurrence.asks (i : Nat) : Occurrence → Bool
  | answered j (.newLocked ..) _ => j == i
  | _ => false

/-- Whether it is about no locked buffer. -/
structure Occurrence.Quiet (o : Occurrence) : Prop where
  handedOut (i : Nat) : o.handedOut? i = none
  takenBack (i : Nat) : o.takenBack? i = none
  asks (i : Nat) : o.asks i = false

theorem Occurrence.quiet_answered (hnew : ∀ count like, r ≠ .newLocked count like)
    (hfree : ∀ b, r ≠ .freeLocked b) (i : Nat) (answer : Except DeviceError Answer) :
    (answered i r answer).Quiet ∧ (answered i r answer).buffer? = none := by
  cases r with
  | newLocked count like => exact absurd rfl (hnew count like)
  | freeLocked b => exact absurd rfl (hfree b)
  | _ => exact ⟨⟨fun _ => rfl, fun _ => rfl, fun _ => rfl⟩, rfl⟩

/-! ### What a run keeps -/

/-- How the pools stand to what happened, if the first of them has the number
`first`. -/
structure Balanced (first : Nat) (pools : List LockedPool) (journal : List Occurrence) : Prop where
  /-- The pools are numbered in the order of their devices. -/
  numbers : ∀ {i p}, pools[i]? = some p → p.number = first + i
  sound : ∀ p ∈ pools, p.Sound
  /-- A buffer is ordinary, or a device handed it out. -/
  origin : ∀ b ∈ buffers journal, b.pin = none ∨ ∃ i, b ∈ handedOut journal i
  /-- A buffer carries a tag that the pool of its device has given out. -/
  carries : ∀ {i b}, b ∈ handedOut journal i →
    ∃ p tag, pools[i]? = some p ∧ b.pin = some tag ∧ p.Issued tag
  /-- No tag is given out twice. -/
  once : ∀ i, ((handedOut journal i).map Buffer.pin).Nodup
  returned : ∀ {i b}, b ∈ takenBack journal i → b ∈ handedOut journal i
  /-- What a device handed out is listed by its pool or was taken back. -/
  balance : ∀ {i p}, pools[i]? = some p → ((handedOut journal i).map Buffer.pin).Perm
    (p.tags.map some ++ (takenBack journal i).map Buffer.pin)
  /-- The next number of a pool counts the requests. -/
  ids : ∀ i, (pools[i]?.map LockedPool.nextId).getD 1 = 1 + journal.countP (Occurrence.asks i)

namespace Balanced

variable {first : Nat} {pools : List LockedPool} {p p' : LockedPool} {tag : PinTag}

theorem nil (first : Nat) : Balanced first [] [] where
  numbers := nofun
  sound := nofun
  origin := nofun
  carries := nofun
  once _ := List.nodup_nil
  returned := nofun
  balance := nofun
  ids _ := rfl

/-- Something happened that is about no locked buffer. -/
theorem note (h : Balanced first pools journal) (hb : ∀ b, o.buffer? = some b → b.pin = none)
    (ho : o.Quiet) : Balanced first pools (journal ++ [o]) := by
  have hout (i : Nat) : handedOut (journal ++ [o]) i = handedOut journal i := by
    rw [handedOut_snoc, ho.handedOut i, Option.toList_none, List.append_nil]
  have hback (i : Nat) : takenBack (journal ++ [o]) i = takenBack journal i := by
    rw [takenBack_snoc, ho.takenBack i, Option.toList_none, List.append_nil]
  refine
    { numbers := h.numbers, sound := h.sound, origin := fun b hmem => ?origin,
      carries := fun hmem => ?carries, once := fun i => ?once,
      returned := fun hmem => ?returned, balance := fun hi => ?balance, ids := fun i => ?ids }
  case origin =>
    rw [buffers_snoc, List.mem_append, Option.mem_toList] at hmem
    rcases hmem with hmem | hmem
    · exact (h.origin b hmem).imp_right fun ⟨i, hi⟩ => ⟨i, by rwa [hout]⟩
    · exact .inl (hb b hmem)
  case carries =>
    rw [hout] at hmem
    exact h.carries hmem
  case once =>
    rw [hout]
    exact h.once i
  case returned =>
    rw [hback] at hmem
    rw [hout]
    exact h.returned hmem
  case balance =>
    rw [hout, hback]
    exact h.balance hi
  case ids =>
    rw [h.ids, List.countP_append, List.countP_singleton, ho.asks, if_neg Bool.false_ne_true,
      Nat.add_zero]

/-- A device was made. Nobody has a tag of its pool. -/
theorem created (h : Balanced first pools journal) :
    Balanced first (pools ++ [⟨first + pools.length, 1, []⟩]) (journal ++ [.created]) := by
  have hnote : Balanced first pools (journal ++ [.created]) :=
    h.note nofun ⟨fun _ => rfl, fun _ => rfl, fun _ => rfl⟩
  refine
    { numbers := fun hi => ?numbers, sound := fun p hp => ?sound, origin := hnote.origin,
      carries := fun hmem => ?carries, once := hnote.once, returned := hnote.returned,
      balance := fun hi => ?balance, ids := fun i => ?ids }
  case numbers =>
    rcases getElem?_concat_cases hi with hi | ⟨rfl, rfl⟩
    · exact h.numbers hi
    · rfl
  case sound =>
    rcases List.mem_append.mp hp with hp | hp
    · exact h.sound p hp
    · rw [List.mem_singleton.mp hp]
      exact LockedPool.sound_new _
  case carries =>
    obtain ⟨p, tag, hi, hrest⟩ := hnote.carries hmem
    exact ⟨p, tag, List.getElem?_append_left (List.getElem?_eq_some_iff.mp hi).1 ▸ hi, hrest⟩
  case balance =>
    rcases getElem?_concat_cases hi with hi | ⟨rfl, rfl⟩
    · exact hnote.balance hi
    · -- A device that was not there has handed out nothing.
      have hnone : handedOut (journal ++ [.created]) pools.length = [] := by
        refine List.eq_nil_iff_forall_not_mem.mpr fun b hb => ?_
        obtain ⟨p, tag, hi, -⟩ := hnote.carries hb
        rw [List.getElem?_eq_none (Nat.le_refl _)] at hi
        cases hi
      have hnone' : takenBack (journal ++ [.created]) pools.length = [] :=
        List.eq_nil_iff_forall_not_mem.mpr fun b hb => by
          have := hnote.returned hb
          rw [hnone] at this
          cases this
      rw [hnone, hnone']
      exact .refl _
  case ids =>
    rw [← hnote.ids]
    cases hnew : (pools ++ [⟨first + pools.length, 1, []⟩])[i]? with
    | none => rw [List.getElem?_eq_none (by simp at hnew; omega)]
    | some p =>
      rcases getElem?_concat_cases hnew with hi | ⟨rfl, rfl⟩
      · rw [hi]
      · rw [List.getElem?_eq_none (Nat.le_refl _)]
        rfl

/-- A tag that its pool had not given out is new to the journal. -/
theorem once_snoc (h : Balanced first pools journal) (hi : pools[i]? = some p)
    (fresh : ∀ b, o.handedOut? i = some b → ∃ tag, b.pin = some tag ∧ ¬ p.Issued tag) :
    ((handedOut (journal ++ [o]) i).map Buffer.pin).Nodup := by
  rw [handedOut_snoc, List.map_append, List.nodup_append']
  refine ⟨h.once i, ?_, fun pin hold hnew => ?_⟩
  · cases o.handedOut? i <;> simp
  · obtain ⟨b, hb, rfl⟩ := List.mem_map.mp hold
    obtain ⟨b', hb', heq⟩ := List.mem_map.mp hnew
    obtain ⟨tag, hpin, hfresh⟩ := fresh b' (Option.mem_toList.mp hb')
    obtain ⟨q, tag', hq, hpin', hissued⟩ := h.carries hb
    cases hi.symm.trans hq
    cases hpin.symm.trans (heq.trans hpin')
    exact hfresh hissued

/-- One device answered, and its pool changed by the tag of the buffer it handed
out or took back. -/
theorem turn (h : Balanced first pools journal) (hi : pools[i]? = some p)
    (number : p'.number = p.number) (sound : p'.Sound)
    (ids : p'.nextId = p.nextId + (o.asks i).toNat)
    (elsewhere : ∀ j, j ≠ i → o.handedOut? j = none ∧ o.takenBack? j = none ∧ o.asks j = false)
    (here : ∀ b, o.buffer? = some b → o.handedOut? i = some b)
    (fresh : ∀ b, o.handedOut? i = some b →
      ∃ tag, b.pin = some tag ∧ p'.Issued tag ∧ ¬ p.Issued tag)
    (back : ∀ b, o.takenBack? i = some b → b ∈ handedOut journal i)
    (balance : ((o.handedOut? i).toList.map Buffer.pin ++ p.tags.map some).Perm
      (p'.tags.map some ++ (o.takenBack? i).toList.map Buffer.pin)) :
    Balanced first (pools.set i p') (journal ++ [o]) := by
  have hlt : i < pools.length := (List.getElem?_eq_some_iff.mp hi).1
  have hself : (pools.set i p')[i]? = some p' := List.getElem?_set_self hlt
  have hothers {j : Nat} (hj : j ≠ i) : (pools.set i p')[j]? = pools[j]? :=
    List.getElem?_set_ne hj.symm
  have hout {j : Nat} (hj : j ≠ i) : handedOut (journal ++ [o]) j = handedOut journal j := by
    rw [handedOut_snoc, (elsewhere j hj).1, Option.toList_none, List.append_nil]
  have hback {j : Nat} (hj : j ≠ i) : takenBack (journal ++ [o]) j = takenBack journal j := by
    rw [takenBack_snoc, (elsewhere j hj).2.1, Option.toList_none, List.append_nil]
  refine
    { numbers := fun {j _} hj => ?numbers, sound := fun q hq => ?sound,
      origin := fun b hb => ?origin, carries := fun {j b} hb => ?carries,
      once := fun j => ?once, returned := fun {j b} hb => ?returned,
      balance := fun {j _} hj => ?balance, ids := fun j => ?ids }
  case numbers =>
    by_cases hji : j = i
    · subst hji
      cases hself.symm.trans hj
      exact number.trans (h.numbers hi)
    · rw [hothers hji] at hj
      exact h.numbers hj
  case sound =>
    rcases List.mem_or_eq_of_mem_set hq with hq | rfl
    · exact h.sound q hq
    · exact sound
  case origin =>
    rw [buffers_snoc, List.mem_append, Option.mem_toList] at hb
    rcases hb with hb | hb
    · refine (h.origin b hb).imp_right fun ⟨j, hj⟩ => ⟨j, ?_⟩
      rw [handedOut_snoc]
      exact List.mem_append_left _ hj
    · refine .inr ⟨i, ?_⟩
      rw [handedOut_snoc, here b hb]
      exact List.mem_append_right _ (List.mem_singleton_self b)
  case carries =>
    by_cases hji : j = i
    · subst hji
      rw [handedOut_snoc, List.mem_append, Option.mem_toList] at hb
      rcases hb with hb | hb
      · obtain ⟨q, tag, hq, hpin, hissued⟩ := h.carries hb
        cases hi.symm.trans hq
        exact ⟨p', tag, hself, hpin, hissued.1.trans number.symm, hissued.2.trans_le (by omega)⟩
      · obtain ⟨tag, hpin, hissued, -⟩ := fresh b hb
        exact ⟨p', tag, hself, hpin, hissued⟩
    · rw [hout hji] at hb
      rw [hothers hji]
      exact h.carries hb
  case once =>
    by_cases hji : j = i
    · subst hji
      refine h.once_snoc hi fun b hb => ?_
      obtain ⟨tag, hpin, -, hfresh⟩ := fresh b hb
      exact ⟨tag, hpin, hfresh⟩
    · rw [hout hji]
      exact h.once j
  case returned =>
    by_cases hji : j = i
    · subst hji
      rw [takenBack_snoc, List.mem_append, Option.mem_toList] at hb
      rw [handedOut_snoc]
      exact List.mem_append_left _ (hb.elim h.returned (back b))
    · rw [hback hji] at hb
      rw [hout hji]
      exact h.returned hb
  case balance =>
    by_cases hji : j = i
    · subst hji
      cases hself.symm.trans hj
      rw [handedOut_snoc, takenBack_snoc, List.map_append, List.map_append]
      exact perm_append_of_balance (h.balance hi) balance
    · rw [hothers hji] at hj
      rw [hout hji, hback hji]
      exact h.balance hj
  case ids =>
    rw [List.countP_append, List.countP_singleton]
    by_cases hji : j = i
    · subst hji
      have hold := h.ids j
      rw [hi] at hold
      rw [hself, Option.map_some, Option.getD_some, ids]
      cases o.asks j <;> simp at hold ⊢ <;> omega
    · rw [hothers hji, h.ids, (elsewhere j hji).2.2]
      rfl

/-- One device answered with an error: it listed no tag and struck none, even if a
number was used up. -/
theorem failed (h : Balanced first pools journal) (hi : pools[i]? = some p)
    (number : p'.number = p.number) (sound : p'.Sound) (tags : p'.tags = p.tags)
    (ids : p'.nextId = p.nextId + ((Occurrence.answered i r (.error e)).asks i).toNat)
    (elsewhere : ∀ j, j ≠ i → (Occurrence.answered i r (.error e)).asks j = false) :
    Balanced first (pools.set i p') (journal ++ [.answered i r (.error e)]) := by
  have hbuffer : (Occurrence.answered i r (.error e)).buffer? = none := by cases r <;> rfl
  have hout (j : Nat) : (Occurrence.answered i r (.error e)).handedOut? j = none := by
    cases r <;> rfl
  have hback (j : Nat) : (Occurrence.answered i r (.error e)).takenBack? j = none := by
    cases r <;> rfl
  refine h.turn hi number sound ids (fun j hj => ⟨hout j, hback j, elsewhere j hj⟩) ?_ ?_ ?_ ?_
  · simp [hbuffer]
  · simp [hout]
  · simp [hback]
  · rw [hout, hback, tags]
    exact .of_eq (List.append_nil _).symm

/-! ### Releasing -/

/-- A buffer has one tag, and tags tell the devices apart. -/
theorem handedOut_unique (h : Balanced first pools journal) (hi : b ∈ handedOut journal i)
    (hj : b ∈ handedOut journal j) : i = j := by
  obtain ⟨p, tag, hp, hpin, hissued⟩ := h.carries hi
  obtain ⟨q, tag', hq, hpin', hissued'⟩ := h.carries hj
  cases hpin.symm.trans hpin'
  have hsame := (h.numbers hp).symm.trans (hissued.1.symm.trans (hissued'.1.trans (h.numbers hq)))
  omega

/-- The pool lists the buffer's tag until the device takes the buffer back. -/
theorem lists_iff (h : Balanced first pools journal) (hi : pools[i]? = some p)
    (hb : b ∈ handedOut journal i) (hpin : b.pin = some tag) :
    p.Lists tag ↔ b ∉ takenBack journal i := by
  have hperm := h.balance hi
  have hnodup := hperm.nodup_iff.mp (h.once i)
  have hmem : b.pin ∈ p.tags.map some ++ (takenBack journal i).map Buffer.pin :=
    hperm.mem_iff.mp (List.mem_map_of_mem hb)
  have hback : b.pin ∈ (takenBack journal i).map Buffer.pin ↔ b ∈ takenBack journal i := by
    refine ⟨fun hpin => ?_, List.mem_map_of_mem⟩
    obtain ⟨b', hb', heq⟩ := List.mem_map.mp hpin
    rwa [← List.inj_on_of_nodup_map (h.once i) (h.returned hb') hb heq]
  have hlist : b.pin ∈ p.tags.map some ↔ p.Lists tag := by
    rw [hpin, List.mem_map_of_injective (Option.some_injective _), LockedPool.mem_tags]
  rw [← hback, ← hlist]
  refine ⟨fun hl hr => List.disjoint_of_nodup_append hnodup hl hr, fun hr => ?_⟩
  exact (List.mem_append.mp hmem).resolve_right hr

end Balanced

/-- What the device at place `i` with the pool `p` says to a buffer that is to be
freed, and what happened to that buffer before. -/
inductive Releases (first : Nat) (journal : List Occurrence) (i : Nat) (p : LockedPool)
    (b : Buffer) : Except LifecycleError LockedPool → Prop where
  | ordinary (pin : b.pin = none) (nowhere : ∀ j, b ∉ handedOut journal j) :
    Releases first journal i p b (.error .notLocked)
  | foreign {j tag} (pin : b.pin = some tag) (other : j ≠ i) (out : b ∈ handedOut journal j)
      (owner : tag.pool = first + j) :
    Releases first journal i p b (.error (.foreign tag.id tag.pool p.number))
  | unknown {tag} (pin : b.pin = some tag) (out : b ∈ handedOut journal i)
      (back : b ∈ takenBack journal i) :
    Releases first journal i p b (.error (.unknown tag.id))
  | done {tag} (pin : b.pin = some tag) (out : b ∈ handedOut journal i)
      (back : b ∉ takenBack journal i) (listed : p.Lists tag) :
    Releases first journal i p b (.ok (p.strike tag.id))

theorem Balanced.releases {first : Nat} {pools : List LockedPool} {p : LockedPool}
    (h : Balanced first pools journal) (hi : pools[i]? = some p) (hb : b ∈ buffers journal) :
    Releases first journal i p b (p.release b) := by
  cases hpin : b.pin with
  | none =>
    rw [show p.release b = .error .notLocked by simp only [LockedPool.release, hpin]]
    refine .ordinary hpin fun j hj => ?_
    obtain ⟨q, tag, -, hpin', -⟩ := h.carries hj
    cases hpin.symm.trans hpin'
  | some tag =>
    obtain ⟨j, hj⟩ := (h.origin b hb).resolve_left (by simp [hpin])
    obtain ⟨q, tag', hq, hpin', hissued⟩ := h.carries hj
    cases hpin.symm.trans hpin'
    have howner := hissued.1.trans (h.numbers hq)
    have hnumber := h.numbers hi
    by_cases hji : j = i
    · subst hji
      have hpool : tag.pool = p.number := howner.trans hnumber.symm
      by_cases hback : b ∈ takenBack journal j
      · have hnot : tag.id ∉ p.live := fun hid =>
          (h.lists_iff hi hj hpin).mp ⟨hpool, hid⟩ hback
        rw [show p.release b = .error (.unknown tag.id) by
          simp [LockedPool.release, hpin, hpool, hnot]]
        exact .unknown hpin hj hback
      · have hlisted := (h.lists_iff hi hj hpin).mpr hback
        rw [LockedPool.release_eq hpin hlisted]
        exact .done hpin hj hback hlisted
    · have hpool : tag.pool ≠ p.number := by omega
      rw [show p.release b = .error (.foreign tag.id tag.pool p.number) by
        simp [LockedPool.release, hpin, hpool]]
      exact .foreign hpin hji hj howner

end Fleet
end BlockTransfer
