import BlockTransfer.Dispatcher.Switching
import BlockTransfer.Proofs.Turns
/-!
# Who holds which activation

Of callers that switch devices, a roster keeps what the load lock, the slot, the
counts of holders and the journal are about: for every caller its role, and for
every activation its generation and how many callers hold it. Devices, worlds
and errands are left out.

`Roster.Step` lists what one move can do to a roster; every event of every
schedule is one of these steps (`Switching.roster_of_step?`), so what they all
preserve holds after every schedule (`Switching.run_induction`).

Key definitions: `Switching.Role`, `Switching.Roster`, `Switching.Roster.Step`.
Key theorems: `Switching.roster_of_step?`, `Switching.run_induction`.
-/

namespace BlockTransfer
namespace Switching

variable {W D : Type}

/-! ### Roles -/

/-- What a caller holds. -/
inductive Role where
  /-- No activation; the load lock or not. -/
  | outside (loading : Bool)
  /-- A new device without a number. -/
  | making
  /-- A new device with a number. -/
  | numbered (generation : Nat)
  /-- A snapshot of an activation. -/
  | inside (generation : Nat) (loading : Bool)
  /-- The activation that its load replaced. -/
  | retiring (generation : Nat)
  /-- An activation that it is to release. -/
  | releasing (generation : Nat) (loading : Bool)
  deriving DecidableEq, Repr

/-- Whether the caller has the load lock. -/
def Role.isLoading : Role → Bool
  | outside loading | inside _ loading | releasing _ loading => loading
  | making | numbered _ | retiring _ => true

/-- The activation that the caller has a snapshot of. -/
def Role.inside? : Role → Option Nat
  | inside generation _ => some generation
  | _ => none

/-- The activations that the caller keeps from being released. -/
def Role.held : Role → List Nat
  | inside generation _ | retiring generation => [generation]
  | _ => []

/-- The activations that the caller is to release. -/
def Role.closing : Role → List Nat
  | releasing generation _ => [generation]
  | _ => []

/-- Whether what is left of the errand is a load's. -/
def Next.isLoading : Next → Bool
  | build _ | unlock _ => true
  | finish _ => false

/-- The role of a caller that got that far. Only a load that succeeds replaces
an activation, so its reply tells the two ways to leave one apart. -/
def Stage.role : Stage D → Role
  | .free => .outside false
  | .admitted _ | .building _ | .unlocking _ => .outside true
  | .built _ => .making
  | .numbered _ generation => .numbered generation
  | .draining _ generation | .counting _ generation => .inside generation true
  | .inside _ generation | .recording _ _ generation | .freeing _ _ generation
  | .forgetting _ generation => .inside generation false
  | .leaving generation (.unlock (.ok _)) => .retiring generation
  | .leaving generation next => .inside generation next.isLoading
  | .releasing generation next => .releasing generation next.isLoading

/-! ### Rosters -/

/-- An activation's number, and how many callers hold it. -/
structure Tally where
  generation : Nat
  holders : Nat
  deriving DecidableEq, Repr

/-- The tally of an activation. -/
def tally (a : Activation D) : Tally := ⟨a.generation, a.holders⟩

/-- Changes the count of the activation of that generation. -/
def Tally.mapAt (generation : Nat) (f : Nat → Nat) (t : Tally) : Tally :=
  { t with holders := if t.generation = generation then f t.holders else t.holders }

/-- What callers and activations have to do with each other. -/
structure Roster where
  roles : List Role
  lock : Option Nat
  slot : Option Tally
  retired : List Tally
  last : Nat
  journal : List Occurrence

/-- The roster of callers with these roles. -/
def Ground.roster (g : Ground W D) (roles : List Role) : Roster where
  roles := roles
  lock := g.lock
  slot := g.dispatcher.slot.map tally
  retired := g.dispatcher.retired.map tally
  last := g.dispatcher.lastGeneration
  journal := g.journal

/-- The device of the activation of that generation can answer a wait. -/
def Ground.Idle (B : Background W D) (g : Ground W D) (generation : Nat) : Prop :=
  ∃ a, g.dispatcher.activation? generation = some a ∧ B.isReady .wait a.loaded.device = true

/-- The roster of a dispatcher's callers. -/
def roster (x : Switching W D) : Roster := x.ground.roster (x.callers.map (·.stage.role))

namespace Roster

/-- The roster after a caller took another role. -/
def move (b : Roster) (i : Nat) (r : Role) : Roster := { b with roles := b.roles.set i r }

/-- The roster with one more entry in the journal. -/
def log (b : Roster) (o : Occurrence) : Roster := { b with journal := b.journal ++ [o] }

/-- Changes the count of holders of an activation. -/
def mapHolders (b : Roster) (generation : Nat) (f : Nat → Nat) : Roster :=
  { b with
    slot := b.slot.map (·.mapAt generation f)
    retired := b.retired.map (·.mapAt generation f) }

/-- What is left to do for who let go of an activation: to release it, if it is
retired and nobody holds it. -/
def duty (b : Roster) (generation : Nat) (loading : Bool) : Role :=
  if ⟨generation, 0⟩ ∈ b.retired then .releasing generation loading else .outside loading

/-- The roster after a caller let go of an activation. -/
def letGo (b : Roster) (i generation : Nat) (loading : Bool) : Roster :=
  let b := b.mapHolders generation (· - 1)
  (b.move i (b.duty generation loading)).log (.left i generation)

/-- The roster without a retired activation. -/
def drop (b : Roster) (generation : Nat) : Roster :=
  { b with retired := b.retired.filter (·.generation != generation) }

/-- The roster with a new activation in the slot. -/
def install (b : Roster) (generation : Nat) : Roster :=
  { b with slot := some ⟨generation, 0⟩ }.log (.activated generation)

/-- The roster with one more retired activation. It is held by who replaced it. -/
def retire (b : Roster) (t : Tally) : Roster :=
  { b with retired := b.retired ++ [⟨t.generation, t.holders + 1⟩] }

/-- What a move can do to a roster, given which activations have a device that
can answer a wait. -/
inductive Step (b : Roster) (idle : Nat → Prop) : Roster → Prop where
  | rest : Step b idle b
  | locked {i : Nat} (role : b.roles[i]? = some (.outside false)) (free : b.lock = none) :
    Step b idle { b.move i (.outside true) with lock := some i }
  | unlocked {i : Nat} (role : b.roles[i]? = some (.outside true)) :
    Step b idle { b.move i (.outside false) with lock := none }
  | entered {i : Nat} {loading : Bool} {t : Tally} (role : b.roles[i]? = some (.outside loading))
      (slot : b.slot = some t) :
    Step b idle (((b.mapHolders t.generation (· + 1)).move i (.inside t.generation loading)).log
      (.entered i t.generation))
  | served {i generation : Nat} {loading : Bool}
      (role : b.roles[i]? = some (.inside generation loading)) :
    Step b idle (b.log (.served i generation))
  | left {i generation : Nat} {r : Role} (role : b.roles[i]? = some r)
      (held : r.held = [generation]) : Step b idle (b.letGo i generation r.isLoading)
  | released {i generation : Nat} {loading : Bool}
      (role : b.roles[i]? = some (.releasing generation loading)) (settled : idle generation) :
    Step b idle (((b.drop generation).move i (.outside loading)).log (.released generation))
  | built {i : Nat} (role : b.roles[i]? = some (.outside true)) :
    Step b idle ((b.move i .making).log .built)
  | numbered {i : Nat} (role : b.roles[i]? = some .making) :
    Step b idle { b.move i (.numbered (b.last + 1)) with last := b.last + 1 }
  | installed {i generation : Nat} (role : b.roles[i]? = some (.numbered generation))
      (slot : b.slot = none) : Step b idle ((b.move i (.outside true)).install generation)
  | swapped {i generation : Nat} {t : Tally} (role : b.roles[i]? = some (.numbered generation))
      (slot : b.slot = some t) :
    Step b idle (((b.retire t).move i (.retiring t.generation)).install generation)

section

variable (b : Roster) (generation : Nat) (loading : Bool)

theorem isLoading_duty : (b.duty generation loading).isLoading = loading := by
  unfold duty
  split <;> rfl

theorem held_duty : (b.duty generation loading).held = [] := by
  unfold duty
  split <;> rfl

theorem inside?_duty : (b.duty generation loading).inside? = none := by
  unfold duty
  split <;> rfl

theorem closing_duty : (b.duty generation loading).closing =
    if ⟨generation, 0⟩ ∈ b.retired then [generation] else [] := by
  unfold duty
  split <;> rfl

end

theorem move_same {b : Roster} {i : Nat} {r : Role} (h : b.roles[i]? = some r) :
    b.move i r = b := by
  obtain ⟨hi, rfl⟩ := List.getElem?_eq_some_iff.mp h
  rw [move, List.set_getElem_self]

/-- A caller that takes the role it has leaves the roster as it is. -/
theorem Step.of_same {b b' : Roster} {idle : Nat → Prop} (h : b.Step idle b') {i : Nat} {r : Role}
    (role : b'.roles[i]? = some r) : b.Step idle (b'.move i r) := by
  rwa [move_same role]

end Roster

/-! ### Every move is a step -/

section

variable {P : Platform W D} {B : Background W D} {g g' : Ground W D} {roles : List Role}

theorem roster_log (g : Ground W D) (roles : List Role) (o : Occurrence) :
    (g.log o).roster roles = (g.roster roles).log o := rfl

theorem roster_set (g : Ground W D) (roles : List Role) (index : Nat) (r : Role) :
    g.roster (roles.set index r) = (g.roster roles).move index r := rfl

/-- Devices, locked buffers and the world are not in the roster. -/
theorem roster_mapActivation (g : Ground W D) (roles : List Role) (generation : Nat) (w : W)
    (f : Activation D → Activation D) (hf : ∀ a, tally (f a) = tally a) :
    Ground.roster { g with dispatcher := g.dispatcher.mapActivation generation f, world := w }
      roles = g.roster roles := by
  have h : (tally ∘ fun a => if a.generation = generation then f a else a) = tally := by
    funext a
    simp only [Function.comp_apply]
    split
    · exact hf a
    · rfl
  simp only [Ground.roster, Dispatcher.mapActivation, Option.map_map, List.map_map, h]

theorem roster_setDevice (g : Ground W D) (roles : List Role) (generation : Nat) (w : W) (d : D) :
    Ground.roster { g with
      dispatcher := g.dispatcher.mapActivation generation (·.setDevice d), world := w } roles =
      g.roster roles :=
  roster_mapActivation g roles generation w _ fun _ => rfl

theorem roster_mapLocked (g : Ground W D) (roles : List Role) (generation : Nat)
    (f : LockedSet → LockedSet) : (g.mapLocked generation f).roster roles = g.roster roles :=
  roster_mapActivation g roles generation g.world _ fun _ => rfl

theorem roster_mapHolders (g : Ground W D) (roles : List Role) (generation : Nat)
    (f : Nat → Nat) :
    Ground.roster { g with dispatcher := g.dispatcher.mapActivation generation fun a =>
      { a with holders := f a.holders } } roles = (g.roster roles).mapHolders generation f := by
  have h : (tally ∘ fun a : Activation D =>
      if a.generation = generation then { a with holders := f a.holders } else a) =
      Tally.mapAt generation f ∘ tally := by
    funext a
    by_cases ha : a.generation = generation <;> simp [tally, Tally.mapAt, ha]
  simp only [Ground.roster, Dispatcher.mapActivation, Roster.mapHolders, Option.map_map,
    List.map_map, h]

/-- Who steps in holds the activation in the slot. -/
theorem roster_enter? (roles : List Role) {index generation : Nat}
    (h : g.enter? index = some (generation, g')) :
    ∃ t, (g.roster roles).slot = some t ∧ t.generation = generation ∧
      g'.roster roles = ((g.roster roles).mapHolders generation (· + 1)).log
        (.entered index generation) := by
  obtain ⟨⟨generation, d⟩, henter, heq⟩ := Option.map_eq_some_iff.mp h
  obtain ⟨a, ha, hd⟩ := Option.map_eq_some_iff.mp henter
  cases hd
  cases heq
  refine ⟨tally a, ?_, rfl, ?_⟩
  · simp only [Ground.roster, ha, Option.map_some]
  · rw [roster_log]
    exact congrArg (Roster.log · _) (roster_mapHolders g roles a.generation (· + 1))

/-- Who steps in takes a snapshot of what is in the slot. -/
theorem step_of_enter? {index generation : Nat} {loading : Bool}
    (h : g.enter? index = some (generation, g')) (role : roles[index]? = some (.outside loading)) :
    (g.roster roles).Step (g.Idle B)
      (g'.roster (roles.set index (.inside generation loading))) := by
  obtain ⟨t, hslot, rfl, hg⟩ := roster_enter? roles h
  rw [roster_set, hg]
  exact .entered role hslot

theorem roster_serve? {index generation : Nat} {r : Request} {answer : Except DeviceError Answer}
    (h : g.serve? P B index generation r = some (answer, g')) :
    g'.roster roles = (g.roster roles).log (.served index generation) := by
  obtain ⟨a, -, h⟩ := Option.bind_eq_some_iff.mp h
  split at h
  · obtain ⟨⟨answer, d, w⟩, hserve, heq⟩ := Option.map_eq_some_iff.mp h
    obtain ⟨a', -, hd⟩ := Option.map_eq_some_iff.mp hserve
    cases hd
    cases heq
    rw [roster_log, roster_setDevice]
  · cases h

/-- A caller that turns to the device it is inside of stays inside. -/
theorem step_of_visit? {index generation : Nat} {c c' : Caller D} {v : Visit}
    (h : c.visit? P B index generation g v = some (c', g'))
    (role : roles[index]? = some (.inside generation false)) :
    (g.roster roles).Step (g.Idle B) (g'.roster roles) ∧
      c'.stage.role = .inside generation false := by
  cases v with
  | forward call =>
    obtain ⟨⟨answer, g₁⟩, hserve, heq⟩ := Option.map_eq_some_iff.mp h
    cases heq
    rw [roster_serve? hserve]
    exact ⟨.served role, rfl⟩
  | newLocked count like =>
    obtain ⟨⟨answer, g₁⟩, hserve, heq⟩ := Option.map_eq_some_iff.mp h
    have hstep : (g.roster roles).Step (g.Idle B) (g₁.roster roles) := by
      rw [roster_serve? hserve]
      exact .served role
    simp only at heq
    split at heq
    · cases heq
      exact ⟨hstep, rfl⟩
    · split at heq <;> cases heq <;> exact ⟨hstep, rfl⟩
    · cases heq
      exact ⟨hstep, rfl⟩
  | freeLocked b =>
    obtain ⟨a, -, heq⟩ := Option.map_eq_some_iff.mp h
    split at heq <;> cases heq <;> exact ⟨.rest, rfl⟩

theorem roster_stepOut (g : Ground W D) (roles : List Role) (generation : Nat) :
    Ground.roster { g with dispatcher := (g.dispatcher.stepOut generation).2 } roles =
      (g.roster roles).mapHolders generation (· - 1) :=
  roster_mapHolders g roles generation (· - 1)

/-- A retired activation has lost its last caller if its count comes to zero. -/
theorem stepOut_eq_true_iff (g : Ground W D) (roles : List Role) (generation : Nat) :
    (g.dispatcher.stepOut generation).1 = true ↔
      ⟨generation, 0⟩ ∈ ((g.roster roles).mapHolders generation (· - 1)).retired := by
  rw [← roster_stepOut]
  simp only [Dispatcher.stepOut, Ground.roster, List.any_eq_true, List.mem_map, tally,
    Bool.and_eq_true, beq_iff_eq, Tally.mk.injEq]

theorem roster_releaseRetired (g : Ground W D) (roles : List Role) (generation : Nat) :
    Ground.roster { g with
      dispatcher := (g.dispatcher.releaseRetired P generation g.world).1
      world := (g.dispatcher.releaseRetired P generation g.world).2 } roles =
      (g.roster roles).drop generation := by
  have hfilter : (g.dispatcher.retired.filter (·.generation != generation)).map tally =
      (g.dispatcher.retired.map tally).filter (·.generation != generation) := by
    rw [List.filter_map]
    rfl
  simp only [Dispatcher.releaseRetired]
  split
  · rename_i hfind
    have hall : g.dispatcher.retired.filter (·.generation != generation) =
        g.dispatcher.retired := by
      refine List.filter_eq_self.mpr fun a ha => ?_
      simpa using List.find?_eq_none.mp hfind a ha
    simp only [Ground.roster, Roster.drop, ← hfilter, hall]
  · simp only [Ground.roster, Roster.drop, hfilter]

theorem role_goOn (c : Caller D) (next : Next) :
    (c.goOn next).stage.role = .outside next.isLoading := by
  cases next <;> rfl

/-- A free caller takes the load lock, steps in, or stays free. -/
theorem step_of_begin? {index : Nat} {es : List Errand} {rs : List Reply} {c' : Caller D}
    (h : Caller.begin? index ⟨es, .free, rs⟩ g = some (c', g'))
    (role : roles[index]? = some (.outside false)) :
    (g.roster roles).Step (g.Idle B) (g'.roster (roles.set index c'.stage.role)) := by
  unfold Caller.begin? at h
  split at h
  · cases h
  · split at h
    · rename_i hfree
      cases h
      exact .locked role (Option.isNone_iff_eq_none.mp hfree)
    · cases h
  · split at h
    · cases h
      exact Roster.Step.rest.of_same role
    · rename_i henter
      cases h
      exact step_of_enter? henter role

/-- A device with a number is swapped in. -/
theorem step_of_swap {index generation : Nat} {loaded : LoadedDevice D} {es : List Errand}
    {rs : List Reply} {c' : Caller D}
    (h : Caller.step? P B index ⟨es, .numbered loaded generation, rs⟩ g = some (c', g'))
    (role : roles[index]? = some (.numbered generation)) :
    (g.roster roles).Step (g.Idle B) (g'.roster (roles.set index c'.stage.role)) := by
  simp only [Caller.step?, Dispatcher.swap] at h
  cases hslot : g.dispatcher.slot with
  | none =>
    simp only [hslot] at h
    cases h
    have hinstall : (g.roster roles).Step (g.Idle B) _ := .installed role
      (by simp only [Ground.roster, hslot, Option.map_none])
    simpa [Ground.roster, Ground.log, Roster.install, Roster.move, Roster.log, tally,
      Caller.leaveWith, Stage.role] using hinstall
  | some a =>
    simp only [hslot] at h
    cases h
    have hswap : (g.roster roles).Step (g.Idle B) _ := .swapped (t := tally a) role
      (by simp only [Ground.roster, hslot, Option.map_some])
    simpa [Ground.roster, Ground.log, Roster.install, Roster.retire, Roster.move, Roster.log,
      tally, Caller.leaveWith, Stage.role] using hswap

/-- Who leaves lets go of an activation, and is to release it if it was the last. -/
theorem step_of_leave {index generation : Nat} {next : Next} {es : List Errand}
    {rs : List Reply} {c' : Caller D}
    (h : Caller.step? P B index ⟨es, .leaving generation next, rs⟩ g = some (c', g'))
    (role : roles[index]? = some (Stage.role (.leaving generation next : Stage D))) :
    (g.roster roles).Step (g.Idle B) (g'.roster (roles.set index c'.stage.role)) := by
  have hrole : ∃ r : Role, roles[index]? = some r ∧ r.held = [generation] ∧
      r.isLoading = next.isLoading := by
    refine ⟨_, role, ?_⟩
    rcases next with t | (e | a) | r <;> exact ⟨rfl, rfl⟩
  obtain ⟨r, hr, hheld, hloading⟩ := hrole
  have hleft : (g.roster roles).Step (g.Idle B) _ := .left hr hheld
  rw [hloading, Roster.letGo, Roster.duty] at hleft
  have hroster := roster_stepOut g roles generation
  have hlast := stepOut_eq_true_iff g roles generation
  rcases hout : g.dispatcher.stepOut generation with ⟨last, d⟩
  simp only [Caller.step?, hout] at h hroster hlast
  cases h
  rw [roster_set, roster_log, hroster]
  cases last with
  | true =>
    rw [if_pos (hlast.mp rfl)] at hleft
    exact hleft
  | false =>
    rw [if_neg fun hmem => Bool.false_ne_true (hlast.mpr hmem)] at hleft
    rw [if_neg Bool.false_ne_true, role_goOn]
    exact hleft

/-- Whatever a caller does is a step. -/
theorem step_of_caller_step? {index : Nat} {c c' : Caller D}
    (h : c.step? P B index g = some (c', g')) (role : roles[index]? = some c.stage.role) :
    (g.roster roles).Step (g.Idle B) (g'.roster (roles.set index c'.stage.role)) := by
  have hkeep : ∀ g₁ : Ground W D, c'.stage.role = c.stage.role →
      (g.roster roles).Step (g.Idle B) (g₁.roster roles) →
      (g.roster roles).Step (g.Idle B) (g₁.roster (roles.set index c'.stage.role)) :=
    fun g₁ hr hstep => hr ▸ hstep.of_same role
  obtain ⟨es, stage, rs⟩ := c
  cases stage with
  | free => exact step_of_begin? h role
  | admitted t =>
    simp only [Caller.step?] at h
    split at h
    · cases h
      exact hkeep g rfl .rest
    · rename_i henter
      cases h
      exact step_of_enter? henter role
  | draining t generation =>
    obtain ⟨a, -, h⟩ := Option.bind_eq_some_iff.mp h
    split at h
    · have hserved (w : W) (d : D) : (g.roster roles).Step (g.Idle B) (Ground.roster (Ground.log
          { g with dispatcher := g.dispatcher.mapActivation generation (·.setDevice d), world := w }
          (.served index generation)) roles) := by
        rw [roster_log, roster_setDevice]
        exact .served role
      simp only at h
      split at h <;> cases h <;> exact hkeep _ rfl (hserved _ _)
    · cases h
  | counting t generation =>
    obtain ⟨a, -, heq⟩ := Option.map_eq_some_iff.mp h
    split at heq <;> cases heq <;> exact hkeep g rfl .rest
  | building t =>
    simp only [Caller.step?] at h
    split at h <;> cases h
    · exact hkeep _ rfl .rest
    · exact .built role
  | built loaded =>
    cases h
    exact .numbered role
  | numbered loaded generation => exact step_of_swap h role
  | unlocking r =>
    cases h
    exact .unlocked role
  | inside v generation =>
    obtain ⟨hstep, hr⟩ := step_of_visit? h role
    exact hkeep _ hr hstep
  | recording b tag generation =>
    cases h
    refine hkeep _ rfl ?_
    rw [roster_mapLocked]
    exact .rest
  | freeing b tag generation =>
    obtain ⟨⟨answer, g₁⟩, hserve, heq⟩ := Option.map_eq_some_iff.mp h
    have hstep : (g.roster roles).Step (g.Idle B) (g₁.roster roles) := by
      rw [roster_serve? hserve]
      exact .served role
    simp only at heq
    split at heq <;> cases heq <;> exact hkeep _ rfl hstep
  | forgetting tag generation =>
    cases h
    refine hkeep _ rfl ?_
    rw [roster_mapLocked]
    exact .rest
  | leaving generation next => exact step_of_leave h role
  | releasing generation next =>
    obtain ⟨a, ha, h⟩ := Option.bind_eq_some_iff.mp h
    split at h
    · rename_i hready
      have hroster := roster_releaseRetired (P := P) g roles generation
      rcases hout : g.dispatcher.releaseRetired P generation g.world with ⟨d, w⟩
      simp only [hout] at h hroster
      cases h
      rw [role_goOn, roster_set, roster_log, hroster]
      exact .released role ⟨a, ha, hready⟩
    · cases h

variable {x x' : Switching W D} {e : Event}

/-- Whatever happens is a step. -/
theorem roster_of_step? (h : step? P B x e = some x') :
    x.roster.Step (x.ground.Idle B) x'.roster := by
  cases e with
  | caller i =>
    obtain ⟨c, hc, h⟩ := Option.bind_eq_some_iff.mp h
    obtain ⟨⟨c', g⟩, hmove, h⟩ := Option.bind_eq_some_iff.mp h
    cases h
    have hrole : (x.callers.map (·.stage.role))[i]? = some c.stage.role := by
      rw [List.getElem?_map, hc, Option.map_some]
    have := step_of_caller_step? hmove hrole
    rwa [← List.map_set (f := fun c : Caller D => c.stage.role)] at this
  | background generation choice =>
    obtain ⟨g, hadvance, h⟩ := Option.bind_eq_some_iff.mp h
    obtain ⟨a, -, hadvance⟩ := Option.bind_eq_some_iff.mp hadvance
    obtain ⟨⟨d, w⟩, -, hg⟩ := Option.map_eq_some_iff.mp hadvance
    cases hg
    cases h
    have hroster := roster_setDevice x.ground (x.callers.map (·.stage.role)) generation w d
    rw [roster, roster, hroster]
    exact .rest

/-! ### Schedules -/

theorem run?_append (x : Switching W D) (before after : List Event) :
    run? P B x (before ++ after) = (run? P B x before).bind fun u => run? P B u after :=
  foldlM_append ..

/-- What holds at the start and after every step from where it holds, given the
schedule so far, holds after every schedule. -/
theorem run_induction {Q : List Event → Switching W D → Prop} (h₀ : Q [] x)
    (hstep : ∀ before u e u', run? P B x before = some u → Q before u →
      step? P B u e = some u' → Q (before ++ [e]) u') {schedule : List Event}
    (h : run? P B x schedule = some x') : Q schedule x' :=
  foldlM_induction h₀ hstep h

end
end Switching
end BlockTransfer
