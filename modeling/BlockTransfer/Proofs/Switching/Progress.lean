import BlockTransfer.Proofs.Switching.Holding
/-!
# Callers get through

A caller that cannot move waits for a device (`Switching.Awaits`), or for the
load lock, or has nothing left to do. The caller with the lock does not wait for
it, so where no caller can move, one of them waits for a device that is not
ready, or all are through (`Switching.awaits_of_stuck`). And callers do not move
for ever: every errand takes twelve moves at most (`Switching.moves_le`).

Key definitions: `Switching.Awaits`, `Switching.IsOver`, `Switching.moves`.
Key theorems: `Switching.awaits_of_stuck`, `Switching.moves_le`.
-/

namespace BlockTransfer
namespace Switching

variable {W D : Type} {P : Platform W D} {B : Background W D}

/-- The activation whose device a caller is about to ask something, and what. -/
def Stage.asks? : Stage D → Option (Nat × Request)
  | .draining _ generation | .releasing generation _ => some (generation, .wait)
  | .inside (.forward call) generation => some (generation, call.request)
  | .inside (.newLocked count like) generation => some (generation, .newLocked count like)
  | .freeing b _ generation => some (generation, .freeLocked b)
  | _ => none

/-- A caller waits for a device that is not ready. -/
def Awaits (B : Background W D) (x : Switching W D) (c : Caller D) : Prop :=
  ∃ generation r a, c.stage.asks? = some (generation, r) ∧
    x.ground.dispatcher.activation? generation = some a ∧ B.isReady r a.loaded.device = false

/-- Every caller is through. -/
def IsOver (x : Switching W D) : Prop := ∀ c ∈ x.callers, c.errands = [] ∧ c.stage = .free

/-! ### Who can move -/

variable {x x' : Switching W D} {c c' : Caller D} {g g' : Ground W D} {i generation : Nat}

theorem tallies_roster (x : Switching W D) : x.roster.tallies =
    (x.ground.dispatcher.slot.toList ++ x.ground.dispatcher.retired).map tally := by
  rw [List.map_append, ← Option.toList_map]
  rfl

theorem generations_roster (x : Switching W D) : x.roster.tallies.map (·.generation) =
    (x.ground.dispatcher.slot.toList ++ x.ground.dispatcher.retired).map (·.generation) := by
  rw [tallies_roster, List.map_map]
  rfl

theorem exists_activation? (h : generation ∈ x.roster.tallies.map (·.generation)) :
    ∃ a, x.ground.dispatcher.activation? generation = some a := by
  rw [generations_roster] at h
  obtain ⟨a, ha, rfl⟩ := List.mem_map.mp h
  exact Option.isSome_iff_exists.mp (List.find?_isSome.mpr ⟨a, ha, beq_self_eq_true _⟩)

/-- A device answers a caller, or is not ready. -/
theorem serve?_isSome {a : Activation D} {r : Request}
    (ha : g.dispatcher.activation? generation = some a) :
    (g.serve? P B i generation r).isSome ∨ B.isReady r a.loaded.device = false := by
  cases hready : B.isReady r a.loaded.device with
  | false => exact .inr rfl
  | true =>
    left
    simp [Ground.serve?, ha, hready, Dispatcher.serveAt]

theorem step?_isSome_or_awaits (hs : x.roster.Sound) (hc : x.callers[i]? = some c)
    (hfree : c.stage ≠ .free) : (c.step? P B i x.ground).isSome ∨ Awaits B x c := by
  have hrole : x.roster.roles[i]? = some c.stage.role := by
    simp [roster, Ground.roster, hc]
  -- What the caller holds or is to release is there.
  have hheld : ∀ generation, generation ∈ c.stage.role.held →
      ∃ a, x.ground.dispatcher.activation? generation = some a := fun generation hg =>
    exists_activation? (hs.held generation (holders_pos hrole hg))
  have hclosing : ∀ generation loading, c.stage.role = .releasing generation loading →
      ∃ a, x.ground.dispatcher.activation? generation = some a := fun generation loading hg =>
    exists_activation? (List.mem_map.mpr
      ⟨_, List.mem_append_right _ (hs.mem_retired (hg ▸ hrole)), rfl⟩)
  obtain ⟨es, stage, rs⟩ := c
  cases stage with
  | free => exact absurd rfl hfree
  | admitted t =>
    left
    simp only [Caller.step?]
    split <;> rfl
  | draining t generation =>
    obtain ⟨a, ha⟩ := hheld generation (List.mem_singleton_self _)
    cases hready : B.isReady .wait a.loaded.device with
    | false => exact .inr ⟨generation, .wait, a, rfl, ha, hready⟩
    | true =>
      left
      simp only [Caller.step?, ha, Option.bind_some, hready, if_true]
      split <;> rfl
  | counting t generation =>
    obtain ⟨a, ha⟩ := hheld generation (List.mem_singleton_self _)
    left
    simp [Caller.step?, ha]
  | building t =>
    left
    simp only [Caller.step?]
    split <;> rfl
  | numbered loaded generation =>
    left
    simp only [Caller.step?]
    split <;> rfl
  | inside v generation =>
    obtain ⟨a, ha⟩ := hheld generation (List.mem_singleton_self _)
    cases v with
    | forward call =>
      refine (serve?_isSome (P := P) (i := i) ha).imp (fun h => ?_) fun h => ⟨_, _, a, rfl, ha, h⟩
      simpa [Caller.step?, Caller.visit?] using h
    | newLocked count like =>
      refine (serve?_isSome (P := P) (i := i) ha).imp (fun h => ?_) fun h => ⟨_, _, a, rfl, ha, h⟩
      simpa [Caller.step?, Caller.visit?] using h
    | freeLocked b =>
      left
      simp [Caller.step?, Caller.visit?, ha]
  | freeing b tag generation =>
    obtain ⟨a, ha⟩ := hheld generation (List.mem_singleton_self _)
    refine (serve?_isSome (P := P) (i := i) ha).imp (fun h => ?_) fun h => ⟨_, _, a, rfl, ha, h⟩
    simpa [Caller.step?] using h
  | releasing generation next =>
    obtain ⟨a, ha⟩ := hclosing generation next.isLoading rfl
    cases hready : B.isReady .wait a.loaded.device with
    | false => exact .inr ⟨generation, .wait, a, rfl, ha, hready⟩
    | true =>
      left
      simp [Caller.step?, ha, hready]
  | built | unlocking | recording | forgetting | leaving => exact .inl rfl

theorem begin?_isSome (hlock : g.lock = none) (hc : c.errands ≠ []) :
    (c.begin? i g).isSome := by
  unfold Caller.begin?
  split
  · rename_i herrands
    exact absurd herrands hc
  · rw [hlock]
    rfl
  · split <;> rfl

theorem step?_caller_isSome (hc : x.callers[i]? = some c) (h : (c.step? P B i x.ground).isSome) :
    (step? P B x (.caller i)).isSome := by
  obtain ⟨⟨c', g⟩, hmove⟩ := Option.isSome_iff_exists.mp h
  simp [step?, hc, hmove]

/-- Where no caller can move, one of them waits for a device, or all are through. -/
theorem awaits_of_stuck (hs : x.roster.Sound) (hstuck : ∀ i, step? P B x (.caller i) = none) :
    (∃ c ∈ x.callers, Awaits B x c) ∨ IsOver x := by
  by_cases hfree : ∀ c ∈ x.callers, c.stage = .free
  · right
    -- Nobody loads, so nobody has the load lock.
    have hlock : x.ground.lock = none := by
      cases hl : x.ground.lock with
      | none => rfl
      | some i =>
        have hloading : (roleAt x.roster.roles i).isLoading = true := (hs.locked i).mp hl
        cases hc : x.callers[i]? with
        | none => simp [roleAt, roster, Ground.roster, hc, Role.isLoading] at hloading
        | some c =>
          simp [roleAt, roster, Ground.roster, hc, hfree c (List.mem_of_getElem? hc), Stage.role,
            Role.isLoading] at hloading
    intro c hmem
    obtain ⟨i, hc⟩ := List.mem_iff_getElem?.mp hmem
    refine ⟨?_, hfree c hmem⟩
    by_contra herrands
    have hsome : (c.step? P B i x.ground).isSome := by
      rw [Caller.step?, hfree c hmem]
      exact begin?_isSome hlock herrands
    have := step?_caller_isSome hc hsome
    rw [hstuck i] at this
    cases this
  · left
    simp only [not_forall] at hfree
    obtain ⟨c, hmem, hc⟩ := hfree
    obtain ⟨i, hi⟩ := List.mem_iff_getElem?.mp hmem
    refine ⟨c, hmem, (step?_isSome_or_awaits (P := P) hs hi hc).resolve_left fun h => ?_⟩
    have := step?_caller_isSome hi h
    rw [hstuck i] at this
    cases this

/-! ### How many moves there are -/

/-- How many moves an errand takes at most once the caller has left the
activation that it is inside of. -/
def Next.moves : Next → Nat
  | .build _ => 6
  | .unlock _ => 1
  | .finish _ => 0

/-- How many moves the errand at hand takes at most. -/
def Stage.moves : Stage D → Nat
  | .free => 0
  | .admitted _ => 11
  | .draining _ _ => 10
  | .counting _ _ => 9
  | .building _ => 6
  | .built _ => 5
  | .numbered _ _ => 4
  | .unlocking _ => 1
  | .inside _ _ => 5
  | .recording _ _ _ => 3
  | .freeing _ _ _ => 4
  | .forgetting _ _ => 3
  | .leaving _ next => next.moves + 2
  | .releasing _ next => next.moves + 1

/-- How many moves a caller makes at most. -/
def Caller.moves (c : Caller D) : Nat := 12 * c.errands.length + c.stage.moves

theorem moves_goOn (c : Caller D) (next : Next) :
    (c.goOn next).moves = 12 * c.errands.length + next.moves := by
  cases next <;> rfl

theorem moves_visit_lt {es : List Errand} {rs : List Reply} {v : Visit}
    (h : Caller.visit? P B i generation ⟨es, .inside v generation, rs⟩ g v = some (c', g')) :
    c'.moves < 12 * es.length + 5 := by
  cases v with
  | forward call =>
    obtain ⟨⟨answer, g₁⟩, -, heq⟩ := Option.map_eq_some_iff.mp h
    cases heq
    simp [Caller.moves, Caller.leaveWith, Stage.moves, Next.moves]
  | newLocked count like =>
    obtain ⟨⟨answer, g₁⟩, -, heq⟩ := Option.map_eq_some_iff.mp h
    simp only at heq
    split at heq
    · cases heq
      simp [Caller.moves, Caller.leaveWith, Stage.moves, Next.moves]
    · split at heq <;> cases heq <;>
        simp [Caller.moves, Caller.leaveWith, Stage.moves, Next.moves]
    · cases heq
      simp [Caller.moves, Caller.leaveWith, Stage.moves, Next.moves]
  | freeLocked b =>
    obtain ⟨a, -, heq⟩ := Option.map_eq_some_iff.mp h
    split at heq <;> cases heq <;> simp [Caller.moves, Caller.leaveWith, Stage.moves, Next.moves]

/-- Every move brings a caller nearer to its end. -/
theorem moves_lt (h : c.step? P B i g = some (c', g')) : c'.moves < c.moves := by
  obtain ⟨es, stage, rs⟩ := c
  cases stage with
  | free =>
    simp only [Caller.step?, Caller.begin?] at h
    split at h
    · cases h
    · split at h <;> cases h
      simp only [Caller.moves, Stage.moves, List.length_cons]
      omega
    · split at h <;> cases h <;>
        simp only [Caller.moves, Caller.reply, Stage.moves, List.length_cons] <;> omega
  | admitted t =>
    simp only [Caller.step?] at h
    split at h <;> cases h <;> simp [Caller.moves, Stage.moves]
  | draining t generation =>
    obtain ⟨a, -, h⟩ := Option.bind_eq_some_iff.mp h
    split at h
    · simp only at h
      split at h <;> cases h <;> simp [Caller.moves, Caller.leaveWith, Stage.moves, Next.moves]
    · cases h
  | counting t generation =>
    obtain ⟨a, -, heq⟩ := Option.map_eq_some_iff.mp h
    split at heq <;> cases heq <;> simp [Caller.moves, Caller.leaveWith, Stage.moves, Next.moves]
  | building t =>
    simp only [Caller.step?] at h
    split at h <;> cases h <;> simp [Caller.moves, Stage.moves]
  | built loaded =>
    cases h
    simp [Caller.moves, Stage.moves]
  | numbered loaded generation =>
    simp only [Caller.step?] at h
    split at h <;> cases h <;> simp [Caller.moves, Caller.leaveWith, Stage.moves, Next.moves]
  | unlocking r =>
    cases h
    simp [Caller.moves, Caller.reply, Stage.moves]
  | inside v generation => exact moves_visit_lt h
  | recording b tag generation =>
    cases h
    simp [Caller.moves, Caller.leaveWith, Stage.moves, Next.moves]
  | freeing b tag generation =>
    obtain ⟨⟨answer, g₁⟩, -, heq⟩ := Option.map_eq_some_iff.mp h
    simp only at heq
    split at heq <;> cases heq <;> simp [Caller.moves, Caller.leaveWith, Stage.moves, Next.moves]
  | forgetting tag generation =>
    cases h
    simp [Caller.moves, Caller.leaveWith, Stage.moves, Next.moves]
  | leaving generation next =>
    simp only [Caller.step?] at h
    cases h
    split
    · simp [Caller.moves, Stage.moves]
    · rw [moves_goOn]
      simp [Caller.moves, Stage.moves]
  | releasing generation next =>
    obtain ⟨a, -, h⟩ := Option.bind_eq_some_iff.mp h
    split at h <;> cases h
    rw [moves_goOn]
    simp [Caller.moves, Stage.moves]

/-- Whether it is a caller's turn. -/
def Event.isCaller : Event → Bool
  | caller _ => true
  | background _ _ => false

/-- How many moves the callers make at most. -/
def moves (x : Switching W D) : Nat := (x.callers.map Caller.moves).sum

/-- Callers make no more moves than their errands take. -/
theorem moves_le {schedule : List Event} (h : run? P B x schedule = some x') :
    schedule.countP Event.isCaller + x'.moves ≤ x.moves := by
  refine run_induction (Q := fun before u => before.countP Event.isCaller + u.moves ≤ x.moves)
    (by simp) ?_ h
  intro before u e u' _ hle hstep
  rw [List.countP_append]
  cases e with
  | caller i =>
    obtain ⟨c, hc, hstep⟩ := Option.bind_eq_some_iff.mp hstep
    obtain ⟨⟨c', g⟩, hmove, hstep⟩ := Option.bind_eq_some_iff.mp hstep
    cases hstep
    have hsum := sum_map_set Caller.moves hc c'
    have hlt := moves_lt hmove
    simp only [moves] at hle ⊢
    simp only [List.countP_singleton, Event.isCaller, if_true]
    omega
  | background generation choice =>
    obtain ⟨g, -, hstep⟩ := Option.bind_eq_some_iff.mp hstep
    cases hstep
    simpa [Event.isCaller, moves] using hle

end Switching
end BlockTransfer
