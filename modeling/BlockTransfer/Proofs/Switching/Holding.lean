import BlockTransfer.Proofs.Switching.Journal
import BlockTransfer.Proofs.Switching.Roster
/-!
# Nothing is released that anyone holds

What callers hold, what activations count and what the journal says agree after
every step (`Switching.Roster.Sound`): the caller with the load lock is the one
that loads, every activation counts those that hold it, a retired one that
nobody holds has exactly one caller to release it, and of every activation as
often was let go as was taken hold of, but for those that hold it now and the
slot.

From this the journal keeps the rules (`Switching.Roster.Sound.lawful_step`):
who releases an activation finds it retired, with nobody inside and nobody
holding it.

Key definition: `Switching.Roster.Sound`.
Key theorem: `Switching.Roster.Sound.step`.
-/

namespace BlockTransfer
namespace Switching

/-! ### One role replaced -/

/-- The role of the caller with that index; one who is not there does nothing. -/
def roleAt (roles : List Role) (i : Nat) : Role := roles[i]?.getD (.outside false)

/-- How many callers hold an activation. -/
def holders (roles : List Role) (generation : Nat) : Nat :=
  (roles.flatMap Role.held).count generation

/-- How many callers are to release an activation. -/
def closers (roles : List Role) (generation : Nat) : Nat :=
  (roles.flatMap Role.closing).count generation

/-- The role of the caller that has the load lock. -/
def loader (lock : Option Nat) (roles : List Role) : Role :=
  (lock.map (roleAt roles)).getD (.outside false)

section

variable {roles : List Role} {lock : Option Nat} {i : Nat} {r : Role}

theorem roleAt_eq (h : roles[i]? = some r) : roleAt roles i = r := by
  rw [roleAt, h, Option.getD_some]

theorem roleAt_set (h : roles[i]? = some r) (r' : Role) (j : Nat) :
    roleAt (roles.set i r') j = if j = i then r' else roleAt roles j := by
  obtain ⟨hi, -⟩ := List.getElem?_eq_some_iff.mp h
  by_cases hj : j = i
  · subst hj
    rw [if_pos rfl, roleAt, List.getElem?_set_self hi, Option.getD_some]
  · rw [if_neg hj, roleAt, List.getElem?_set_ne (Ne.symm hj), roleAt]

theorem holders_set (h : roles[i]? = some r) (r' : Role) (generation : Nat) :
    r.held.count generation + holders (roles.set i r') generation =
      r'.held.count generation + holders roles generation :=
  count_flatMap_set Role.held h r' generation

theorem closers_set (h : roles[i]? = some r) (r' : Role) (generation : Nat) :
    r.closing.count generation + closers (roles.set i r') generation =
      r'.closing.count generation + closers roles generation :=
  count_flatMap_set Role.closing h r' generation

theorem holders_set_of_eq (h : roles[i]? = some r) {r' : Role} (hr : r'.held = r.held)
    (generation : Nat) : holders (roles.set i r') generation = holders roles generation :=
  count_flatMap_set_of_eq Role.held h hr generation

theorem holders_take (h : roles[i]? = some r) {r' : Role} {g : Nat} (hr : r.held = [])
    (hr' : r'.held = [g]) (x : Nat) :
    holders (roles.set i r') x = holders roles x + if x = g then 1 else 0 := by
  have := holders_set h r' x
  rw [hr, hr', List.count_nil, List.count_singleton] at this
  simp only [beq_iff_eq, eq_comm (a := g)] at this
  omega

theorem holders_give (h : roles[i]? = some r) {r' : Role} {g : Nat} (hr : r.held = [g])
    (hr' : r'.held = []) (x : Nat) :
    holders (roles.set i r') x + (if x = g then 1 else 0) = holders roles x := by
  have := holders_set h r' x
  rw [hr, hr', List.count_nil, List.count_singleton] at this
  simp only [beq_iff_eq, eq_comm (a := g)] at this
  omega

theorem closers_set_of_eq (h : roles[i]? = some r) {r' : Role} (hr : r'.closing = r.closing)
    (generation : Nat) : closers (roles.set i r') generation = closers roles generation :=
  count_flatMap_set_of_eq Role.closing h hr generation

theorem holders_pos (h : roles[i]? = some r) {generation : Nat} (hg : generation ∈ r.held) :
    0 < holders roles generation :=
  count_flatMap_pos Role.held h hg

/-- Who is inside of an activation holds it. -/
theorem holders_pos_of_inside? {generation : Nat}
    (h : (roleAt roles i).inside? = some generation) : 0 < holders roles generation := by
  cases hr : roles[i]? with
  | none =>
    rw [roleAt, hr] at h
    cases h
  | some r =>
    rw [roleAt_eq hr] at h
    cases r with
    | inside g loading =>
      cases h
      exact holders_pos hr (List.mem_singleton_self _)
    | _ => cases h

theorem closers_pos (h : roles[i]? = some r) {generation : Nat} (hg : generation ∈ r.closing) :
    0 < closers roles generation :=
  count_flatMap_pos Role.closing h hg

theorem roleAt_of_outside (h : ∀ r ∈ roles, r = .outside false) (i : Nat) :
    roleAt roles i = .outside false := by
  cases hr : roles[i]? with
  | none => rw [roleAt, hr, Option.getD_none]
  | some r => rw [roleAt_eq hr, h r (List.mem_of_getElem? hr)]

theorem loader_of_outside (h : ∀ r ∈ roles, r = .outside false) (lock : Option Nat) :
    loader lock roles = .outside false := by
  cases lock with
  | none => rfl
  | some i => exact roleAt_of_outside h i

/-- Callers that do nothing hold nothing. -/
theorem holders_of_outside (h : ∀ r ∈ roles, r = .outside false) (generation : Nat) :
    holders roles generation = 0 :=
  count_flatMap_eq_zero Role.held (fun r hr => by rw [h r hr]; rfl) generation

theorem closers_of_outside (h : ∀ r ∈ roles, r = .outside false) (generation : Nat) :
    closers roles generation = 0 :=
  count_flatMap_eq_zero Role.closing (fun r hr => by rw [h r hr]; rfl) generation

/-- The caller with the load lock is the one that loads. -/
def Locked (lock : Option Nat) (roles : List Role) : Prop :=
  ∀ i, lock = some i ↔ (roleAt roles i).isLoading = true

theorem Locked.loader_eq (h : Locked lock roles) (hr : roles[i]? = some r)
    (hl : r.isLoading = true) : loader lock roles = r := by
  rw [loader, (h i).mpr (by rw [roleAt_eq hr, hl]), Option.map_some, Option.getD_some, roleAt_eq hr]

theorem Locked.set (h : Locked lock roles) (hr : roles[i]? = some r) {r' : Role}
    (hl : r'.isLoading = r.isLoading) : Locked lock (roles.set i r') := by
  intro j
  rw [h j, roleAt_set hr]
  split
  · rename_i hj
    rw [hj, roleAt_eq hr, hl]
  · rfl

/-- Who has no load lock is no loader. -/
theorem Locked.loader_set (h : Locked lock roles) (hr : roles[i]? = some r)
    (hl : r.isLoading = false) (r' : Role) : loader lock (roles.set i r') = loader lock roles := by
  cases lock with
  | none => rfl
  | some j =>
    have hj : j ≠ i := by
      rintro rfl
      have := (h j).mp rfl
      rw [roleAt_eq hr, hl] at this
      cases this
    simp only [loader, Option.map_some, Option.getD_some, roleAt_set hr, if_neg hj]

/-- How far the load under way got, in numbers: of devices built, of devices
swapped in, and the last number taken. -/
def Role.Underway (builds swaps last : Nat) : Role → Prop
  | .making => builds = swaps + 1 ∧ last = swaps
  | .numbered generation => builds = swaps + 1 ∧ last = swaps + 1 ∧ generation = last
  | _ => builds = swaps ∧ last = swaps

variable {n n' s s' l l' : Nat}

/-- Only a caller that loads changes how far the load under way got. -/
theorem Locked.underway_set (h : Locked lock roles) (hr : roles[i]? = some r) {r' : Role}
    (hl : r'.isLoading = r.isLoading) (hu : (loader lock roles).Underway n s l)
    (hloading : r.isLoading = true → r.Underway n s l → r'.Underway n' s' l')
    (hidle : r.isLoading = false → n' = n ∧ s' = s ∧ l' = l) :
    (loader lock (roles.set i r')).Underway n' s' l' := by
  cases hload : r.isLoading with
  | true =>
    have hi : (roles.set i r')[i]? = some r' :=
      List.getElem?_set_self (List.getElem?_eq_some_iff.mp hr).1
    rw [(h.set hr hl).loader_eq hi (hl.trans hload)]
    rw [h.loader_eq hr hload] at hu
    exact hloading hload hu
  | false =>
    obtain ⟨rfl, rfl, rfl⟩ := hidle hload
    rwa [h.loader_set hr hload]

end

/-! ### Counts -/

theorem Tally.mem_map_mapAt {l : List Tally} {generation : Nat} {f : Nat → Nat} {t : Tally} :
    t ∈ l.map (·.mapAt generation f) ↔ ∃ n, ⟨t.generation, n⟩ ∈ l ∧
      t.holders = if t.generation = generation then f n else n := by
  rw [List.mem_map]
  constructor
  · rintro ⟨u, hu, rfl⟩
    exact ⟨u.holders, hu, rfl⟩
  · rintro ⟨n, hn, ht⟩
    exact ⟨_, hn, by rw [Tally.mapAt, ← ht]⟩

theorem Tally.map_mapAt_of_ne {l : List Tally} {generation : Nat}
    (h : ∀ t ∈ l, t.generation ≠ generation) (f : Nat → Nat) :
    l.map (·.mapAt generation f) = l := by
  refine (List.map_congr_left fun t ht => ?_).trans (List.map_id l)
  rw [Tally.mapAt, if_neg (h t ht)]
  rfl

theorem Tally.map_generation_mapAt (l : List Tally) (generation : Nat) (f : Nat → Nat) :
    (l.map (·.mapAt generation f)).map (·.generation) = l.map (·.generation) := by
  rw [List.map_map]
  rfl

/-- A generation that occurs once is taken out once. -/
theorem Tally.perm_filter {l : List Tally} {generation n : Nat}
    (hn : (l.map (·.generation)).Nodup) (h : ⟨generation, n⟩ ∈ l) :
    (l.map (·.generation)).Perm
      (generation :: (l.filter (·.generation != generation)).map (·.generation)) := by
  have hmem : generation ∈ l.map (·.generation) := List.mem_map.mpr ⟨_, h, rfl⟩
  have hfilter : (l.filter (·.generation != generation)).map (·.generation) =
      (l.map (·.generation)).erase generation := by
    rw [hn.erase_eq_filter, List.filter_map]
    rfl
  rw [hfilter]
  exact List.perm_cons_erase hmem

/-! ### What agrees -/

namespace Roster

/-- The activations that are not released, as tallies. -/
def tallies (b : Roster) : List Tally := b.slot.toList ++ b.retired

/-- What roles, counts and the journal say agrees. -/
structure Sound (b : Roster) : Prop where
  /-- The caller with the load lock is the one that loads. -/
  locked : Locked b.lock b.roles
  /-- Every device built is swapped in, but for the one under way. -/
  underway : (loader b.lock b.roles).Underway (builds b.journal) (swaps b.journal) b.last
  /-- The journal knows what is in the slot. -/
  current : current? b.journal = b.slot.map (·.generation)
  /-- What became active is in the slot, or retired, or released. -/
  books : (releases b.journal ++ b.tallies.map (·.generation)).Perm (activations b.journal)
  /-- An activation counts those that hold it. -/
  counts : ∀ t ∈ b.tallies, t.holders = holders b.roles t.generation
  /-- What is held is not released. -/
  held : ∀ generation, 0 < holders b.roles generation →
    generation ∈ b.tallies.map (·.generation)
  /-- A retired activation that nobody holds is released by one caller. -/
  closing : ∀ generation,
    closers b.roles generation = if ⟨generation, 0⟩ ∈ b.retired then 1 else 0
  /-- What was taken hold of was let go, or is held by a caller or the slot. -/
  references : ∀ generation, (taken b.journal).count generation =
    (dropped b.journal).count generation + holders b.roles generation +
      (b.slot.map (·.generation)).toList.count generation
  /-- The journal knows where everyone is. -/
  inside : ∀ i, inside? b.journal i = (roleAt b.roles i).inside?
  /-- What a load replaced is not in the slot. -/
  replaced : ∀ generation, .retiring generation ∈ b.roles →
    b.slot.map (·.generation) ≠ some generation
  /-- What happened keeps the rules. -/
  lawful : Lawful b.journal

variable {b b' : Roster} {idle : Nat → Prop}

/-! ### The lock -/

theorem Sound.locked_step (h : b.Sound) (hs : b.Step idle b') : Locked b'.lock b'.roles := by
  cases hs with
  | rest | served => exact h.locked
  | locked role free =>
    rename_i i
    intro j
    show some i = some j ↔ (roleAt (b.roles.set i (.outside true)) j).isLoading = true
    rw [roleAt_set role, Option.some_inj, eq_comm]
    split
    · rename_i hj
      exact ⟨fun _ => rfl, fun _ => hj⟩
    · rename_i hj
      rw [← h.locked j, free]
      exact ⟨fun heq => absurd heq hj, fun heq => by cases heq⟩
  | unlocked role =>
    rename_i i
    intro j
    show none = some j ↔ (roleAt (b.roles.set i (.outside false)) j).isLoading = true
    rw [roleAt_set role]
    split
    · exact ⟨fun heq => (by cases heq), fun heq => (by cases heq)⟩
    · rename_i hj
      have hi : b.lock = some i := (h.locked i).mpr (by rw [roleAt_eq role]; rfl)
      rw [← h.locked j, hi]
      exact ⟨fun heq => (by cases heq), fun heq => absurd (Option.some_inj.mp heq).symm hj⟩
  | left role held => exact h.locked.set role (isLoading_duty ..)
  | entered role _ | released role _ | built role | numbered role | installed role _
  | swapped role _ => exact h.locked.set role rfl

/-! ### The load under way -/

theorem Sound.underway_step (h : b.Sound) (hs : b.Step idle b') :
    (loader b'.lock b'.roles).Underway (builds b'.journal) (swaps b'.journal) b'.last := by
  have hunder := h.underway
  have hlocked := h.locked_step hs
  cases hs with
  | rest => exact hunder
  | served => simpa [log] using hunder
  | locked role free =>
    have hi := List.getElem?_set_self (List.getElem?_eq_some_iff.mp role).1 (a := Role.outside true)
    rw [hlocked.loader_eq hi rfl]
    rw [free] at hunder
    exact hunder
  | unlocked role =>
    rw [h.locked.loader_eq role rfl] at hunder
    exact hunder
  | entered role slot =>
    refine h.locked.underway_set role rfl hunder (fun _ hu => ?_) fun _ => ?_
    · simpa [log, move, mapHolders, Role.Underway] using hu
    · simp [log, move, mapHolders]
  | @left i generation r role held =>
    have hidle : r.Underway (builds b.journal) (swaps b.journal) b.last →
        builds b.journal = swaps b.journal ∧ b.last = swaps b.journal := by
      cases r <;> simp [Role.held, Role.Underway] at held ⊢
    refine h.locked.underway_set role (isLoading_duty ..) hunder (fun _ hu => ?_) fun _ => ?_
    · unfold duty
      split <;> simpa [letGo, log, move, mapHolders, Role.Underway] using hidle hu
    · simp [letGo, log, move, mapHolders]
  | released role _ =>
    refine h.locked.underway_set role rfl hunder (fun _ hu => ?_) fun _ => ?_
    · simpa [log, move, drop, Role.Underway] using hu
    · simp [log, move, drop]
  | built role =>
    refine h.locked.underway_set role rfl hunder (fun _ hu => ?_) fun hl => by cases hl
    simpa [log, move, Role.Underway] using hu
  | numbered role =>
    refine h.locked.underway_set role rfl hunder (fun _ hu => ?_) fun hl => by cases hl
    simpa [move, Role.Underway] using hu
  | installed role slot =>
    refine h.locked.underway_set role rfl hunder (fun _ hu => ?_) fun hl => by cases hl
    simp only [Role.Underway] at hu
    simp [install, log, move, Role.Underway, hu]
  | swapped role slot =>
    refine h.locked.underway_set role rfl hunder (fun _ hu => ?_) fun hl => by cases hl
    simp only [Role.Underway] at hu
    simp [install, retire, log, move, Role.Underway, hu]

/-! ### What is in the slot, and what was -/

theorem Sound.current_step (h : b.Sound) (hs : b.Step idle b') :
    current? b'.journal = b'.slot.map (·.generation) := by
  have hcurrent := h.current
  unfold current? at hcurrent ⊢
  cases hs with
  | rest => exact hcurrent
  | locked | unlocked | served | released | built | numbered | entered | left =>
    simpa [letGo, log, move, mapHolders, drop, Function.comp_def, Tally.mapAt] using hcurrent
  | installed | swapped => simp [install, retire, log, move]

/-- No generation is in the slot and retired, or in one of them twice. -/
theorem Sound.nodup (h : b.Sound) :
    (releases b.journal ++ b.tallies.map (·.generation)).Nodup :=
  h.books.nodup_iff.mpr (h.lawful.activations_eq ▸ List.nodup_range')

theorem Sound.nodup_tallies (h : b.Sound) : (b.tallies.map (·.generation)).Nodup :=
  h.nodup.sublist (List.sublist_append_right _ _)

/-- What a caller is to release is retired, and nobody holds it. -/
theorem Sound.mem_retired (h : b.Sound) {i generation : Nat} {loading : Bool}
    (role : b.roles[i]? = some (.releasing generation loading)) : ⟨generation, 0⟩ ∈ b.retired := by
  have hpos : 0 < closers b.roles generation := closers_pos role (List.mem_singleton_self _)
  by_contra hne
  rw [h.closing, if_neg hne] at hpos
  exact Nat.lt_irrefl 0 hpos

theorem tallies_mapHolders (b : Roster) (generation : Nat) (f : Nat → Nat) :
    (b.mapHolders generation f).tallies = b.tallies.map (·.mapAt generation f) := by
  simp only [tallies, mapHolders, List.map_append, Option.toList_map]

/-- Whoever holds them, the activations stay what they are. -/
theorem generations_mapHolders (b : Roster) (generation : Nat) (f : Nat → Nat) :
    (b.mapHolders generation f).tallies.map (·.generation) = b.tallies.map (·.generation) := by
  rw [tallies_mapHolders, Tally.map_generation_mapAt]

theorem slot_mapHolders (b : Roster) (generation : Nat) (f : Nat → Nat) :
    (b.mapHolders generation f).slot.map (·.generation) = b.slot.map (·.generation) := by
  rw [mapHolders, Option.map_map]
  rfl

theorem mem_tallies_of_slot {t : Tally} (slot : b.slot = some t) : t ∈ b.tallies :=
  List.mem_append_left _ (by rw [slot]; exact List.mem_singleton_self t)

/-- What is in the slot is not retired. -/
theorem Sound.ne_of_retired (h : b.Sound) {t u : Tally} (slot : b.slot = some t)
    (hu : u ∈ b.retired) : u.generation ≠ t.generation := by
  have hnodup := h.nodup_tallies
  rw [tallies, slot] at hnodup
  intro heq
  refine (List.nodup_cons.mp hnodup).1 ?_
  show t.generation ∈ _
  rw [← heq]
  exact List.mem_map_of_mem hu

theorem Sound.books_step (h : b.Sound) (hs : b.Step idle b') :
    (releases b'.journal ++ b'.tallies.map (·.generation)).Perm (activations b'.journal) := by
  have hbooks := h.books
  cases hs with
  | rest => exact hbooks
  | locked | unlocked | served | built | numbered =>
    simpa [log, move, tallies] using hbooks
  | @entered i loading t role slot =>
    show (releases (b.journal ++ [_]) ++ (b.mapHolders _ _).tallies.map _).Perm
      (activations (b.journal ++ [_]))
    rw [generations_mapHolders]
    simpa using hbooks
  | left role held =>
    show (releases (b.journal ++ [_]) ++ (b.mapHolders _ _).tallies.map _).Perm
      (activations (b.journal ++ [_]))
    rw [generations_mapHolders]
    simpa using hbooks
  | released role _ =>
    have hmem := h.mem_retired role
    have hperm := Tally.perm_filter (h.nodup_tallies.sublist (by simp [tallies])) hmem
    refine List.perm_iff_count.mpr fun x => ?_
    have hcount := hbooks.count_eq x
    have hretired := hperm.count_eq x
    simp [log, move, drop, tallies, List.count_append, List.count_cons] at hcount hretired ⊢
    omega
  | installed role slot =>
    refine List.perm_iff_count.mpr fun x => ?_
    have := hbooks.count_eq x
    simp only [tallies, slot] at this
    simp [install, log, move, tallies, List.count_append, List.count_cons] at this ⊢
    omega
  | swapped role slot =>
    refine List.perm_iff_count.mpr fun x => ?_
    have := hbooks.count_eq x
    simp only [tallies, slot] at this
    simp [install, retire, log, move, tallies, List.count_append, List.count_cons] at this ⊢
    omega

/-! ### Who holds what -/

theorem Sound.le_swaps (h : b.Sound) {generation : Nat}
    (hg : generation ∈ b.tallies.map (·.generation)) : generation ≤ swaps b.journal := by
  have := h.books.mem_iff.mp (List.mem_append_right _ hg)
  rw [h.lawful.activations_eq, List.mem_range'_1] at this
  omega

/-- The number of a device that is to be swapped in is new. -/
theorem Sound.numbered_eq (h : b.Sound) {i generation : Nat}
    (role : b.roles[i]? = some (.numbered generation)) : generation = swaps b.journal + 1 := by
  have := h.underway
  rw [h.locked.loader_eq role rfl] at this
  exact this.2.2.trans this.2.1

theorem Sound.holders_numbered (h : b.Sound) {i generation : Nat}
    (role : b.roles[i]? = some (.numbered generation)) : holders b.roles generation = 0 := by
  refine Nat.eq_zero_of_not_pos fun hpos => ?_
  have hle := h.le_swaps (h.held generation hpos)
  have := h.numbered_eq role
  omega

/-- What somebody holds is not to be released. -/
theorem Sound.not_mem_retired (h : b.Sound) {generation : Nat}
    (hpos : 0 < holders b.roles generation) : ⟨generation, 0⟩ ∉ b.retired := by
  intro hmem
  exact Nat.ne_of_lt hpos (h.counts _ (List.mem_append_right _ hmem))

/-- The number of a device that is to be swapped in is no activation's. -/
theorem Sound.ne_numbered (h : b.Sound) {i generation : Nat}
    (role : b.roles[i]? = some (.numbered generation)) {t : Tally} (ht : t ∈ b.tallies) :
    t.generation ≠ generation := by
  have hle := h.le_swaps (List.mem_map_of_mem ht)
  have := h.numbered_eq role
  omega

theorem Sound.counts_step (h : b.Sound) (hs : b.Step idle b') :
    ∀ t ∈ b'.tallies, t.holders = holders b'.roles t.generation := by
  intro u hu
  cases hs with
  | rest | served => exact h.counts u hu
  | locked role | unlocked role | built role | numbered role =>
    show _ = holders (b.roles.set _ _) _
    rw [holders_set_of_eq role]
    · exact h.counts u hu
    · rfl
  | entered role slot =>
    show _ = holders (b.roles.set _ _) _
    replace hu : u ∈ (b.mapHolders _ (· + 1)).tallies := hu
    rw [tallies_mapHolders, Tally.mem_map_mapAt] at hu
    obtain ⟨n, hn, hu⟩ := hu
    rw [holders_take role rfl rfl, ← h.counts _ hn, hu]
    split <;> simp_all
  | @left i generation r role held =>
    show _ = holders (b.roles.set _ _) _
    replace hu : u ∈ (b.mapHolders generation (· - 1)).tallies := hu
    rw [tallies_mapHolders, Tally.mem_map_mapAt] at hu
    obtain ⟨n, hn, hu⟩ := hu
    have hcount : n = holders b.roles u.generation := h.counts _ hn
    have hgive := holders_give role held (held_duty (b.mapHolders generation (· - 1)) generation
      r.isLoading) u.generation
    by_cases hg : u.generation = generation
    · rw [if_pos hg] at hu hgive
      omega
    · rw [if_neg hg] at hu hgive
      omega
  | released role _ =>
    show _ = holders (b.roles.set _ _) _
    rw [holders_set_of_eq role]
    · refine h.counts u ?_
      rcases List.mem_append.mp hu with hu | hu
      · exact List.mem_append_left _ hu
      · exact List.mem_append_right _ (List.mem_filter.mp hu).1
    · rfl
  | installed role slot =>
    show _ = holders (b.roles.set _ _) _
    rw [holders_set_of_eq role]
    · rcases List.mem_cons.mp hu with rfl | hu
      · exact (h.holders_numbered role).symm
      · exact h.counts u (List.mem_append_right _ hu)
    · rfl
  | @swapped i generation t role slot =>
    show _ = holders (b.roles.set _ _) _
    rw [holders_take role rfl rfl]
    have ht := mem_tallies_of_slot slot
    replace hu : u ∈ ⟨generation, 0⟩ :: (b.retired ++ [⟨t.generation, t.holders + 1⟩]) := hu
    rw [List.mem_cons, List.mem_append, List.mem_singleton] at hu
    rcases hu with rfl | hu | rfl
    · rw [if_neg (h.ne_numbered role ht).symm, h.holders_numbered role]
    · rw [if_neg (h.ne_of_retired slot hu)]
      exact h.counts u (List.mem_append_right _ hu)
    · rw [if_pos rfl, h.counts t ht]

theorem Sound.held_step (h : b.Sound) (hs : b.Step idle b') {x : Nat}
    (hx : 0 < holders b'.roles x) : x ∈ b'.tallies.map (·.generation) := by
  cases hs with
  | rest | served => exact h.held x hx
  | locked role | unlocked role | built role | numbered role =>
    replace hx : 0 < holders (b.roles.set _ _) x := hx
    rw [holders_set_of_eq role] at hx
    · exact h.held x hx
    · rfl
  | @entered i loading t role slot =>
    replace hx : 0 < holders (b.roles.set _ _) x := hx
    show x ∈ (b.mapHolders t.generation (· + 1)).tallies.map (·.generation)
    rw [generations_mapHolders]
    rw [holders_take role rfl rfl] at hx
    by_cases hg : x = t.generation
    · exact hg ▸ List.mem_map_of_mem (mem_tallies_of_slot slot)
    · rw [if_neg hg] at hx
      exact h.held x hx
  | @left i generation r role held =>
    replace hx : 0 < holders (b.roles.set _ _) x := hx
    show x ∈ (b.mapHolders generation (· - 1)).tallies.map (·.generation)
    rw [generations_mapHolders]
    have hgive := holders_give role held (held_duty (b.mapHolders generation (· - 1)) generation
      r.isLoading) x
    exact h.held x (by omega)
  | @released i generation loading role _ =>
    replace hx : 0 < holders (b.roles.set _ _) x := hx
    rw [holders_set_of_eq role] at hx
    · have hne : x ≠ generation := by
        rintro rfl
        exact h.not_mem_retired hx (h.mem_retired role)
      obtain ⟨t, ht, rfl⟩ := List.mem_map.mp (h.held x hx)
      refine List.mem_map_of_mem ?_
      rcases List.mem_append.mp ht with ht | ht
      · exact List.mem_append_left _ ht
      · exact List.mem_append_right _ (List.mem_filter.mpr ⟨ht, bne_iff_ne.mpr hne⟩)
    · rfl
  | @installed i generation role slot =>
    replace hx : 0 < holders (b.roles.set _ _) x := hx
    rw [holders_set_of_eq role] at hx
    · have hmem := h.held x hx
      rw [tallies, slot] at hmem
      exact List.mem_cons_of_mem _ hmem
    · rfl
  | @swapped i generation t role slot =>
    replace hx : 0 < holders (b.roles.set _ _) x := hx
    show x ∈ (⟨generation, 0⟩ ::
      (b.retired ++ [⟨t.generation, t.holders + 1⟩])).map Tally.generation
    rw [holders_take role rfl rfl] at hx
    by_cases hg : x = t.generation
    · simp [hg]
    · rw [if_neg hg] at hx
      have hmem := h.held x hx
      rw [tallies, slot] at hmem
      exact List.mem_cons_of_mem _ (by simpa [hg] using hmem)

theorem Sound.closing_step (h : b.Sound) (hs : b.Step idle b') (x : Nat) :
    closers b'.roles x = if ⟨x, 0⟩ ∈ b'.retired then 1 else 0 := by
  cases hs with
  | rest | served => exact h.closing x
  | locked role | unlocked role | built role | numbered role | installed role =>
    show closers (b.roles.set _ _) x = _
    rw [closers_set_of_eq role]
    · exact h.closing x
    · rfl
  | @entered i loading t role slot =>
    have hretired : (b.mapHolders t.generation (· + 1)).retired = b.retired :=
      Tally.map_mapAt_of_ne (fun u hu => h.ne_of_retired slot hu) _
    show closers (b.roles.set _ _) x =
      if ⟨x, 0⟩ ∈ (b.mapHolders t.generation (· + 1)).retired then 1 else 0
    rw [hretired, closers_set_of_eq role]
    · exact h.closing x
    · rfl
  | @left i generation r role held =>
    have hset := closers_set role ((b.mapHolders generation (· - 1)).duty generation r.isLoading) x
    have hr : r.closing = [] := by
      cases r <;> simp [Role.held, Role.closing] at held ⊢
    rw [hr, closing_duty, List.count_nil, Nat.zero_add, h.closing] at hset
    show closers (b.roles.set _ _) x =
      if ⟨x, 0⟩ ∈ (b.mapHolders generation (· - 1)).retired then 1 else 0
    rw [hset]
    by_cases hg : x = generation
    · subst hg
      rw [if_neg (h.not_mem_retired (holders_pos role (by simp [held]))), Nat.add_zero]
      split
      · exact List.count_singleton_self
      · rfl
    · have hmem : (⟨x, 0⟩ : Tally) ∈ (b.mapHolders generation (· - 1)).retired ↔
          ⟨x, 0⟩ ∈ b.retired := by
        rw [mapHolders, Tally.mem_map_mapAt]
        simp [hg]
      have hcount : List.count x (if (⟨generation, 0⟩ : Tally) ∈
          (b.mapHolders generation (· - 1)).retired then [generation] else []) = 0 :=
        List.count_eq_zero.mpr (by split <;> simp [hg])
      rw [hcount, Nat.zero_add]
      exact if_congr hmem.symm rfl rfl
  | @released i generation loading role _ =>
    have hset := closers_set role (.outside loading) x
    rw [h.closing] at hset
    show closers (b.roles.set _ _) x =
      if ⟨x, 0⟩ ∈ b.retired.filter (·.generation != generation) then 1 else 0
    have hmem := h.mem_retired role
    by_cases hg : x = generation
    · subst hg
      simp only [Role.closing, List.count_singleton_self, List.count_nil, if_pos hmem] at hset
      simp
      omega
    · have hcount : List.count x [generation] = 0 :=
        List.count_eq_zero.mpr (by simpa using hg)
      simp only [Role.closing, hcount, List.count_nil, Nat.zero_add] at hset
      simp [hset, hg]
  | @swapped i generation t role slot =>
    show closers (b.roles.set _ _) x =
      if ⟨x, 0⟩ ∈ b.retired ++ [⟨t.generation, t.holders + 1⟩] then 1 else 0
    rw [closers_set_of_eq role]
    · simpa using h.closing x
    · rfl

theorem Sound.references_step (h : b.Sound) (hs : b.Step idle b') (x : Nat) :
    (taken b'.journal).count x = (dropped b'.journal).count x + holders b'.roles x +
      (b'.slot.map (·.generation)).toList.count x := by
  have hreferences := h.references x
  cases hs with
  | rest => exact hreferences
  | served => simpa [log] using hreferences
  | locked role | unlocked role | numbered role =>
    show _ = _ + holders (b.roles.set _ _) x + _
    rw [holders_set_of_eq role]
    · exact hreferences
    · rfl
  | built role | released role _ =>
    show (taken (b.journal ++ [_])).count x = (dropped (b.journal ++ [_])).count x +
      holders (b.roles.set _ _) x + (b.slot.map (·.generation)).toList.count x
    rw [holders_set_of_eq role]
    · simpa using hreferences
    · rfl
  | @entered i loading t role slot =>
    show (taken (b.journal ++ [_])).count x = (dropped (b.journal ++ [_])).count x +
      holders (b.roles.set _ _) x +
      ((b.mapHolders t.generation (· + 1)).slot.map (·.generation)).toList.count x
    rw [slot_mapHolders, holders_take role rfl rfl]
    simp [List.count_singleton, eq_comm (a := x)]
    omega
  | @left i generation r role held =>
    have hgive := holders_give role held (held_duty (b.mapHolders generation (· - 1)) generation
      r.isLoading) x
    show (taken (b.journal ++ [_])).count x = (dropped (b.journal ++ [_])).count x +
      holders (b.roles.set _ _) x +
      ((b.mapHolders generation (· - 1)).slot.map (·.generation)).toList.count x
    rw [slot_mapHolders]
    simp [List.count_singleton, eq_comm (a := generation)]
    omega
  | @installed i generation role slot =>
    show (taken (b.journal ++ [_])).count x = (dropped (b.journal ++ [_])).count x +
      holders (b.roles.set _ _) x + [generation].count x
    rw [holders_set_of_eq role]
    · rw [slot] at hreferences
      simp at hreferences ⊢
      omega
    · rfl
  | @swapped i generation t role slot =>
    show (taken (b.journal ++ [_])).count x = (dropped (b.journal ++ [_])).count x +
      holders (b.roles.set _ _) x + [generation].count x
    rw [holders_take role rfl rfl]
    rw [slot] at hreferences
    simp [List.count_singleton, eq_comm (a := x)] at hreferences ⊢
    omega

/-! ### Who is where -/

theorem Sound.inside_step (h : b.Sound) (hs : b.Step idle b') (j : Nat) :
    inside? b'.journal j = (roleAt b'.roles j).inside? := by
  have hinside := h.inside j
  have hset {i : Nat} {r r' : Role} (role : b.roles[i]? = some r) :
      (roleAt (b.roles.set i r') j).inside? =
        if j = i then r'.inside? else (roleAt b.roles j).inside? := by
    rw [roleAt_set role]
    split <;> rfl
  have hsame {i : Nat} {r r' : Role} (role : b.roles[i]? = some r) (hr : r'.inside? = r.inside?) :
      inside? b.journal j = (roleAt (b.roles.set i r') j).inside? := by
    rw [hset role, hr, ← roleAt_eq role, hinside]
    split
    · rename_i hj
      rw [hj]
    · rfl
  cases hs with
  | rest => exact hinside
  | served => simpa [log] using hinside
  | locked role | unlocked role | numbered role =>
    exact hsame role rfl
  | built role | released role _ | installed role | swapped role =>
    refine (inside?_snoc ..).trans ?_
    exact hsame role rfl
  | entered role slot =>
    refine (inside?_snoc ..).trans (Eq.trans ?_ (hset role).symm)
    rw [← hinside]
    simp only [Occurrence.goes, Role.inside?, eq_comm (b := j)]
    rfl
  | left role held =>
    refine (inside?_snoc ..).trans (Eq.trans ?_ (hset role).symm)
    rw [← hinside, inside?_duty]
    simp only [Occurrence.goes, eq_comm (b := j)]
    rfl

/-! ### What was replaced -/

theorem Sound.replaced_step (h : b.Sound) (hs : b.Step idle b') (x : Nat)
    (hx : .retiring x ∈ b'.roles) : b'.slot.map (·.generation) ≠ some x := by
  have hold {i : Nat} {r : Role} (hr : r ≠ .retiring x) (hx : .retiring x ∈ b.roles.set i r) :
      .retiring x ∈ b.roles :=
    (List.mem_or_eq_of_mem_set hx).resolve_right fun heq => hr heq.symm
  have hnew {i generation : Nat} (role : b.roles[i]? = some (.numbered generation))
      (hx : .retiring x ∈ b.roles) : generation ≠ x := by
    rintro rfl
    obtain ⟨j, hj⟩ := List.mem_iff_getElem?.mp hx
    have := holders_pos hj (List.mem_singleton_self _)
    rw [h.holders_numbered role] at this
    exact Nat.lt_irrefl 0 this
  cases hs with
  | rest | served => exact h.replaced x hx
  | locked | unlocked | built | numbered | released =>
    exact h.replaced x (hold (by rintro ⟨⟩) hx)
  | @entered i loading t role slot =>
    show (b.mapHolders t.generation (· + 1)).slot.map (·.generation) ≠ some x
    rw [slot_mapHolders]
    exact h.replaced x (hold (by rintro ⟨⟩) hx)
  | @left i generation r role held =>
    show (b.mapHolders generation (· - 1)).slot.map (·.generation) ≠ some x
    rw [slot_mapHolders]
    refine h.replaced x (hold ?_ hx)
    intro heq
    have := held_duty (b.mapHolders generation (· - 1)) generation r.isLoading
    rw [heq] at this
    cases this
  | installed role slot =>
    exact fun heq => hnew role (hold (by rintro ⟨⟩) hx) (Option.some_inj.mp heq)
  | @swapped i generation t role slot =>
    intro heq
    rcases List.mem_or_eq_of_mem_set hx with hx | hx
    · exact hnew role hx (Option.some_inj.mp heq)
    · cases hx
      exact h.ne_numbered role (mem_tallies_of_slot slot) (Option.some_inj.mp heq).symm

/-! ### The rules are kept -/

theorem Sound.lawful_step (h : b.Sound) (hs : b.Step idle b') : Lawful b'.journal := by
  have hunder := h.underway
  cases hs with
  | rest | locked | unlocked | numbered => exact h.lawful
  | built role =>
    rw [h.locked.loader_eq role rfl] at hunder
    exact .built h.lawful hunder.1
  | installed role | swapped role =>
    rw [h.locked.loader_eq role rfl] at hunder
    exact .activated h.lawful (h.numbered_eq role) hunder.1
  | @entered i loading t role slot =>
    show Lawful (b.journal ++ [.entered i t.generation])
    refine .entered h.lawful ?_ ?_
    · rw [h.inside, roleAt_eq role]
      rfl
    · rw [h.current, slot]
      rfl
  | @served i generation loading role =>
    refine .served h.lawful ?_
    rw [h.inside, roleAt_eq role]
    rfl
  | @left i generation r role held =>
    have hpos := holders_pos role (show generation ∈ r.held by simp [held])
    show Lawful (b.journal ++ [.left i generation])
    refine .left h.lawful ?_ ?_
    · have := h.references generation
      omega
    · rw [h.inside, roleAt_eq role, h.current]
      cases r with
      | inside g loading =>
        cases held
        exact .inl rfl
      | retiring g =>
        cases held
        exact .inr ⟨rfl, h.replaced _ (List.mem_of_getElem? role)⟩
      | _ => cases held
  | @released i generation loading role _ =>
    have hretired := h.mem_retired role
    have hmem : generation ∈ b.tallies.map (·.generation) :=
      List.mem_map.mpr ⟨_, List.mem_append_right _ hretired, rfl⟩
    have hnobody : holders b.roles generation = 0 :=
      Nat.eq_zero_of_not_pos fun hpos => h.not_mem_retired hpos hretired
    have hslot : b.slot.map (·.generation) ≠ some generation := by
      intro heq
      obtain ⟨t, ht, hg⟩ := Option.map_eq_some_iff.mp heq
      exact h.ne_of_retired ht hretired hg.symm
    show Lawful (b.journal ++ [.released generation])
    refine .released h.lawful (h.books.mem_iff.mp (List.mem_append_right _ hmem)) ?_
      (h.current ▸ hslot) ?_ ?_
    · intro hreleased
      exact (List.nodup_append.mp h.nodup).2.2 _ hreleased _ hmem rfl
    · intro caller heq
      rw [h.inside] at heq
      exact h.not_mem_retired (holders_pos_of_inside? heq) hretired
    · have hreferences := h.references generation
      have hslot : (b.slot.map (·.generation)).toList.count generation = 0 :=
        List.count_eq_zero.mpr (by simpa [Option.mem_toList, eq_comm] using hslot)
      omega

theorem Sound.step (h : b.Sound) (hs : b.Step idle b') : b'.Sound where
  locked := h.locked_step hs
  underway := h.underway_step hs
  current := h.current_step hs
  books := h.books_step hs
  counts := h.counts_step hs
  held _ := h.held_step hs
  closing := h.closing_step hs
  references := h.references_step hs
  inside := h.inside_step hs
  replaced := h.replaced_step hs
  lawful := h.lawful_step hs

/-- Nothing has happened, and nobody holds anything. -/
theorem sound_of_outside {roles : List Role} (h : ∀ r ∈ roles, r = .outside false) :
    Sound ⟨roles, none, none, [], 0, []⟩ := by
  exact
    { locked := fun i => by simp [roleAt_of_outside h, Role.isLoading]
      underway := ⟨rfl, rfl⟩
      current := rfl
      books := List.Perm.nil
      counts := fun t ht => by cases ht
      held := fun g hg => absurd (holders_of_outside h g) (Nat.ne_of_gt hg)
      closing := fun g => by simp [closers_of_outside h]
      references := fun g => by simp [taken, dropped, holders_of_outside h]
      inside := fun i => by rw [roleAt_of_outside h]; rfl
      replaced := fun g hg => by cases h _ hg
      lawful := .nil }

end Roster
end Switching
end BlockTransfer
