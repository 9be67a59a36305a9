import BlockTransfer.Device
import BlockTransfer.Proofs.Switching.Deeds
/-!
# Concurrent switches come one after the other

Callers come to a new dispatcher, each with errands of its own: loads, and calls
to whatever is active. Every schedule of their moves, with the devices' work
going on in between, leads to a lawful journal: loads do not overlap, the
generation in the slot is the number of swaps, every call is answered by the
device of the one activation that its caller stepped into while it was active, and
a device is given up once, after it left the slot and the last caller let go of it.
Who gives it up waits for it first, so none of the operations that it accepted is
under way then.

The journal is not all that is told: every move is a `Deed`, and every entry of the
journal comes from a move that did to the devices and the world what the entry says
(`Switching.Moment`).

Key definitions: `Switching.Moment`, `Switching.Orderly`.
Key theorem: `Switching.orderly_of_run?`.
-/

namespace BlockTransfer

/-- A device that can answer a wait has no asynchronous operation under way: a
wait blocks until every one issued so far has completed. -/
def Background.WaitsForAll {W D : Type} (B : Background W D) : Prop :=
  ∀ d, B.isReady .wait d = true → B.inFlight d = 0

namespace Switching

variable {W D : Type} {P : Platform W D} {B : Background W D}

/-- The caller stepped into the activation while that was active, has not stepped
out since, and was answered by no other device since. -/
def Stays (journal : List Occurrence) (caller generation : Nat) : Prop :=
  ∃ earlier since, journal = earlier ++ .entered caller generation :: since ∧
    current? earlier = some generation ∧ (∀ other, .left caller other ∉ since) ∧
    ∀ other, .served caller other ∈ since → other = generation

/-- The move of the schedule at which an entry was added to a journal leads from one
state to another, of which something holds. -/
def Moment (P : Platform W D) (B : Background W D) (first : Switching W D)
    (schedule : List Event) (journal : List Occurrence) (o : Occurrence)
    (Q : Switching W D → Switching W D → Prop) : Prop :=
  ∃ before e after u u', schedule = before ++ e :: after ∧ run? P B first before = some u ∧
    step? P B u e = some u' ∧ u.ground.journal = journal ∧
    u'.ground.journal = journal ++ [o] ∧ Q u u'

/-- The activation's device is given up with nothing under way that it accepted. -/
def ReleasesIdle (P : Platform W D) (B : Background W D) (generation : Nat)
    (u u' : Switching W D) : Prop :=
  ∃ a, a.generation = generation ∧ Releases P B a u u' ∧ B.inFlight a.loaded.device = 0

/-- What holds after a schedule that leads from one state to another. -/
structure Orderly (P : Platform W D) (B : Background W D) (first : Switching W D)
    (schedule : List Event) (x : Switching W D) : Prop where
  /-- What happened keeps the rules. -/
  lawful : Lawful x.ground.journal
  /-- The journal knows what is in the slot. -/
  current : x.ground.dispatcher.generation? = current? x.ground.journal
  /-- The generation in the slot is the number of swaps. -/
  generation : x.ground.dispatcher.generation?.getD 0 = swaps x.ground.journal
  /-- What happened stays, and the generation never decreases. -/
  grows : ∀ before after u, schedule = before ++ after → run? P B first before = some u →
    u.ground.journal <+: x.ground.journal ∧
      u.ground.dispatcher.generation?.getD 0 ≤ x.ground.dispatcher.generation?.getD 0
  /-- The caller with the load lock, if there is one, is the only one that loads. -/
  lock : ∀ i, x.ground.lock = some i ↔
    ∃ c, x.callers[i]? = some c ∧ c.stage.role.isLoading = true
  /-- The journal knows which activation a caller is inside of. -/
  inside : ∀ i c, x.callers[i]? = some c → inside? x.ground.journal i = c.stage.role.inside?
  /-- Every move does one thing to the devices and to the world. -/
  deeds : ∀ before e after u u', schedule = before ++ e :: after → run? P B first before = some u →
    step? P B u e = some u' → Deed P B u u'
  /-- Every call is answered by the device of what was active when its caller stepped
  in. -/
  answered : ∀ before after i generation,
    x.ground.journal = before ++ .served i generation :: after → Stays before i generation ∧
      Moment P B first schedule before (.served i generation) (Serves P B i generation)
  /-- Every activation is in the slot, or retired, or released, and only once. -/
  accounted : (releases x.ground.journal ++
      (x.ground.dispatcher.slot.toList ++ x.ground.dispatcher.retired).map (·.generation)).Perm
    (List.range' 1 (swaps x.ground.journal))
  /-- Every device that was built was given up, or runs, or is yet to become active. -/
  devices : builds x.ground.journal =
    (releases x.ground.journal).length + x.ground.running.length + x.made.length
  /-- The device of an activation that is released is given up, with nothing under way. -/
  idle : ∀ before after generation,
    x.ground.journal = before ++ .released generation :: after →
      Moment P B first schedule before (.released generation) (ReleasesIdle P B generation)
  /-- When all are through, every device built became active, and all but the
  active one are released. -/
  finished : IsOver x → x.made = [] ∧ x.ground.dispatcher.retired = [] ∧
    (releases x.ground.journal ++ x.ground.dispatcher.generation?.toList).Perm
      (List.range' 1 (builds x.ground.journal))
  /-- Where no caller can move, one waits for a device, or all are through. -/
  progress : (∀ i, step? P B x (.caller i) = none) → (∃ c ∈ x.callers, Awaits B x c) ∨ IsOver x
  /-- No errand takes more than twelve moves. -/
  moves : schedule.countP Event.isCaller + x.moves ≤ first.moves

/-! ### What a lawful journal says of a call -/

variable {journal : List Occurrence} {o : Occurrence} {caller generation : Nat}

theorem Lawful.init (h : Lawful (journal ++ [o])) : Lawful journal := by
  generalize hj : journal ++ [o] = l at h
  cases h with
  | nil => simp at hj
  | built h | activated h | entered h | served h | left h | released h =>
    rwa [(List.append_inj' hj rfl).1]

theorem Lawful.of_append {after : List Occurrence} (h : Lawful (journal ++ after)) :
    Lawful journal := by
  induction after using List.reverseRecOn with
  | nil => rwa [List.append_nil] at h
  | append_singleton after o ih =>
    rw [← List.append_assoc] at h
    exact ih h.init

theorem Lawful.inside_of_served (h : Lawful (journal ++ [.served caller generation])) :
    inside? journal caller = some generation := by
  generalize hj : journal ++ [.served caller generation] = l at h
  cases h with
  | nil => simp at hj
  | served _ inside =>
    obtain ⟨rfl, ho⟩ := List.append_inj' hj rfl
    cases ho
    exact inside
  | built | activated | entered | left | released =>
    cases (List.append_inj' hj rfl).2

theorem Stays.snoc (h : Stays journal caller generation)
    (left : ∀ other, o ≠ .left caller other)
    (served : ∀ other, o = .served caller other → other = generation) :
    Stays (journal ++ [o]) caller generation := by
  obtain ⟨earlier, since, rfl, current, hleft, hserved⟩ := h
  refine ⟨earlier, since ++ [o], by simp, current, fun other hm => ?_, fun other hm => ?_⟩
  · rcases List.mem_append.mp hm with hm | hm
    · exact hleft other hm
    · exact left other (List.mem_singleton.mp hm).symm
  · rcases List.mem_append.mp hm with hm | hm
    · exact hserved other hm
    · exact served other (List.mem_singleton.mp hm).symm

/-- Who is inside of an activation stays there. -/
theorem Lawful.stays (h : Lawful journal) (hi : inside? journal caller = some generation) :
    Stays journal caller generation := by
  induction h with
  | nil => cases hi
  | @entered j c g h outside current ih =>
    rw [inside?_snoc, Occurrence.goes] at hi
    split at hi
    · rename_i hc
      cases hi
      subst hc
      exact ⟨j, [], rfl, current, by simp, by simp⟩
    · exact (ih hi).snoc (by simp) (by simp)
  | @left j c g h held own ih =>
    rw [inside?_snoc, Occurrence.goes] at hi
    split at hi
    · cases hi
    · rename_i hc
      exact (ih hi).snoc (by simp [hc]) (by simp)
  | @served j c g h inside ih =>
    replace hi : inside? j caller = some generation := by simpa using hi
    refine (ih hi).snoc (by simp) fun other heq => ?_
    cases heq
    exact Option.some_inj.mp (inside.symm.trans hi)
  | built _ _ ih | activated _ _ _ ih | released _ _ _ _ _ _ ih =>
    exact (ih (by simpa using hi)).snoc (by simp) (by simp)

/-! ### After every schedule -/

theorem Roster.Step.journal_grows {b b' : Roster} {idle : Nat → Prop} (h : b.Step idle b') :
    b.journal <+: b'.journal := by
  cases h with
  | rest | locked | unlocked | numbered => exact List.prefix_refl _
  | entered | served | left | released | built | installed | swapped => exact List.prefix_append ..

variable {x first : Switching W D} {schedule : List Event}

theorem sound_start (l : Loader W D) (policy : LockedBufferPolicy) (w : W)
    (errands : List (List Errand)) : (start { loader := l, policy } w errands).roster.Sound :=
  Roster.sound_of_outside (by simp [Stage.role, start])

theorem made_of_free (h : ∀ c ∈ x.callers, c.stage = .free) : x.made = [] := by
  refine List.flatMap_eq_nil_iff.mpr fun c hc => ?_
  rw [h c hc]
  rfl

theorem devices_start (l : Loader W D) (policy : LockedBufferPolicy) (w : W)
    (errands : List (List Errand)) :
    let x := start { loader := l, policy } w errands
    builds x.ground.journal =
      (releases x.ground.journal).length + x.ground.running.length + x.made.length := by
  intro x
  have hmade : x.made = [] := made_of_free fun c hc => by
    obtain ⟨es, -, rfl⟩ := List.mem_map.mp hc
    rfl
  rw [hmade]
  rfl

theorem sound_of_run? (hs : first.roster.Sound) (h : run? P B first schedule = some x) :
    x.roster.Sound :=
  run_induction (Q := fun _ u => u.roster.Sound) hs
    (fun _ _ _ _ _ hu hstep => hu.step (roster_of_step? hstep)) h

theorem Moment.snoc {Q : Switching W D → Switching W D → Prop} {e : Event}
    (h : Moment P B first schedule journal o Q) :
    Moment P B first (schedule ++ [e]) journal o Q := by
  obtain ⟨before, e', after, u, u', rfl, h⟩ := h
  exact ⟨before, e', after ++ [e], u, u', by simp, h⟩

theorem Moment.imp {Q Q' : Switching W D → Switching W D → Prop}
    (h : Moment P B first schedule journal o Q)
    (hQ : ∀ u u', u.ground.journal = journal → u'.ground.journal = journal ++ [o] →
      Q u u' → Q' u u') : Moment P B first schedule journal o Q' := by
  obtain ⟨before, e, after, u, u', hschedule, hrun, hstep, hold, hnew, h⟩ := h
  exact ⟨before, e, after, u, u', hschedule, hrun, hstep, hold, hnew, hQ u u' hold hnew h⟩

/-- Every entry of the journal comes from a deed. -/
theorem moment_of_run? (hs : first.roster.Sound) (hjournal : first.ground.journal = [])
    (h : run? P B first schedule = some x) {before after : List Occurrence}
    (hx : x.ground.journal = before ++ o :: after) :
    Moment P B first schedule before o (Deed P B) := by
  refine run_induction (Q := fun schedule u => ∀ before o after,
    u.ground.journal = before ++ o :: after → Moment P B first schedule before o (Deed P B))
    ?_ ?_ h before o after hx
  · intro before o after hnil
    rw [hjournal] at hnil
    simp at hnil
  · intro earlier u e u' hrun hu hstep before o after hu'
    have hdeed := deed_of_step? (sound_of_run? hs hrun) hstep
    rcases hdeed.journal_cases with hsame | ⟨last, hlast⟩
    · exact (hu before o after (hsame.symm.trans hu')).snoc
    · rw [hlast] at hu'
      rcases List.eq_nil_or_concat after with rfl | ⟨after', o', rfl⟩
      · obtain ⟨rfl, ho⟩ := List.append_inj' hu' rfl
        cases ho
        exact ⟨earlier, e, [], u, u', rfl, hrun, hstep, rfl, hlast, hdeed⟩
      · rw [List.concat_eq_append, ← List.cons_append, ← List.append_assoc] at hu'
        exact (hu before o after' (List.append_inj' hu' rfl).1).snoc

/-- Every device that was built is accounted for. -/
theorem devices_of_run? (hs : first.roster.Sound)
    (hfirst : builds first.ground.journal = (releases first.ground.journal).length +
      first.ground.running.length + first.made.length)
    (h : run? P B first schedule = some x) : builds x.ground.journal =
      (releases x.ground.journal).length + x.ground.running.length + x.made.length :=
  run_induction (Q := fun _ u => builds u.ground.journal =
    (releases u.ground.journal).length + u.ground.running.length + u.made.length) hfirst
    (fun _ _ _ _ hrun hu hstep => (deed_of_step? (sound_of_run? hs hrun) hstep).devices hu) h

theorem journal_grows_of_run? (h : run? P B first schedule = some x) :
    first.ground.journal <+: x.ground.journal :=
  run_induction (Q := fun _ u => first.ground.journal <+: u.ground.journal) (List.prefix_refl _)
    (fun _ _ _ _ _ hu hstep => hu.trans (roster_of_step? hstep).journal_grows) h

theorem generation?_eq_current? (hs : x.roster.Sound) :
    x.ground.dispatcher.generation? = current? x.ground.journal := by
  refine Eq.trans ?_ hs.current.symm
  rw [Dispatcher.generation?]
  show _ = (x.ground.dispatcher.slot.map tally).map _
  rw [Option.map_map]
  rfl

theorem generation?_eq_swaps (hs : x.roster.Sound) :
    x.ground.dispatcher.generation?.getD 0 = swaps x.ground.journal := by
  rw [generation?_eq_current? hs]
  exact hs.lawful.current?_getD

theorem lock_eq_some_iff (hs : x.roster.Sound) (i : Nat) : x.ground.lock = some i ↔
    ∃ c, x.callers[i]? = some c ∧ c.stage.role.isLoading = true := by
  refine (hs.locked i).trans ?_
  cases hc : x.callers[i]? with
  | none => simp [roleAt, roster, Ground.roster, hc, Role.isLoading]
  | some c => simp [roleAt, roster, Ground.roster, hc]

theorem inside?_eq (hs : x.roster.Sound) {i : Nat} {c : Caller D}
    (hc : x.callers[i]? = some c) : inside? x.ground.journal i = c.stage.role.inside? := by
  refine (hs.inside i).trans ?_
  simp [roleAt, roster, Ground.roster, hc]

theorem accounted_of_sound (hs : x.roster.Sound) : (releases x.ground.journal ++
    (x.ground.dispatcher.slot.toList ++ x.ground.dispatcher.retired).map (·.generation)).Perm
      (List.range' 1 (swaps x.ground.journal)) := by
  have hbooks := hs.books
  rw [generations_roster] at hbooks
  exact hbooks.trans (.of_eq hs.lawful.activations_eq)

/-- A schedule goes on from what its beginning led to. -/
theorem grows_of_run? (hs : first.roster.Sound) {before after : List Event} {u : Switching W D}
    (h : run? P B first (before ++ after) = some x) (hu : run? P B first before = some u) :
    u.ground.journal <+: x.ground.journal ∧
      u.ground.dispatcher.generation?.getD 0 ≤ x.ground.dispatcher.generation?.getD 0 := by
  have hx := sound_of_run? hs h
  rw [run?_append, hu] at h
  have hgrown := journal_grows_of_run? h
  refine ⟨hgrown, ?_⟩
  rw [generation?_eq_swaps (sound_of_run? hs hu), generation?_eq_swaps hx]
  exact (hgrown.filterMap _).length_le

/-- Whoever is answered is answered by the device of what it stepped into. -/
theorem answered_of_run? (hs : first.roster.Sound) (hjournal : first.ground.journal = [])
    (h : run? P B first schedule = some x) {before after : List Occurrence} {i g : Nat}
    (hx : x.ground.journal = before ++ .served i g :: after) :
    Stays before i g ∧ Moment P B first schedule before (.served i g) (Serves P B i g) := by
  have hlawful : Lawful (before ++ [.served i g] ++ after) := by
    rw [List.append_assoc, List.singleton_append, ← hx]
    exact (sound_of_run? hs h).lawful
  refine ⟨hlawful.of_append.init.stays hlawful.of_append.inside_of_served, ?_⟩
  exact (moment_of_run? hs hjournal h hx).imp fun u u' hold hnew hdeed =>
    hdeed.serves (hold ▸ hnew)

/-- A device whose release can wait for it has nothing under way. -/
theorem releasesIdle_of_run? (hB : B.WaitsForAll) (hs : first.roster.Sound)
    (hjournal : first.ground.journal = []) (h : run? P B first schedule = some x)
    {before after : List Occurrence} {g : Nat}
    (hx : x.ground.journal = before ++ .released g :: after) :
    Moment P B first schedule before (.released g) (ReleasesIdle P B g) := by
  refine (moment_of_run? hs hjournal h hx).imp fun u u' hold hnew hdeed => ?_
  obtain ⟨a, ha, hreleases⟩ := hdeed.releases (hold ▸ hnew)
  exact ⟨a, ha, hreleases, hB _ hreleases.ready⟩

theorem IsOver.outside (h : IsOver x) : ∀ r ∈ x.roster.roles, r = .outside false := by
  intro r hr
  obtain ⟨c, hc, rfl⟩ := List.mem_map.mp hr
  rw [(h c hc).2]
  rfl

/-- When all are through, nobody holds a retired activation, and nobody is to
release one: there is none. -/
theorem retired_eq_nil (hs : x.roster.Sound) (hover : IsOver x) :
    x.ground.dispatcher.retired = [] := by
  have hroles := hover.outside
  refine List.eq_nil_iff_forall_not_mem.mpr fun a ha => ?_
  have hmem : tally a ∈ x.roster.retired := List.mem_map_of_mem ha
  have hcount : a.holders = 0 :=
    (hs.counts _ (List.mem_append_right _ hmem)).trans (holders_of_outside hroles _)
  have hclosers := hs.closing a.generation
  rw [closers_of_outside hroles, if_pos (by rwa [tally, hcount] at hmem)] at hclosers
  cases hclosers

theorem finished_of_isOver (hs : x.roster.Sound) (hover : IsOver x) :
    x.made = [] ∧ x.ground.dispatcher.retired = [] ∧
      (releases x.ground.journal ++ x.ground.dispatcher.generation?.toList).Perm
        (List.range' 1 (builds x.ground.journal)) := by
  have hretired := retired_eq_nil hs hover
  have hunder := hs.underway
  rw [loader_of_outside hover.outside] at hunder
  have hbuilds : builds x.ground.journal = swaps x.ground.journal := hunder.1
  have haccounted := accounted_of_sound hs
  rw [hretired, List.append_nil] at haccounted
  rw [hbuilds, Dispatcher.generation?, Option.toList_map]
  exact ⟨made_of_free fun c hc => (hover c hc).2, hretired, haccounted⟩

/-- Callers that come to a new dispatcher: whatever the platform, the loader, the
policy, the errands and the schedule are, loads come one after the other, calls
are answered by what was active, and every device built is released once, when
nobody holds it and nothing that it accepted is under way. -/
theorem orderly_of_run? (hB : B.WaitsForAll) {l : Loader W D} {policy : LockedBufferPolicy} {w : W}
    {errands : List (List Errand)} {schedule : List Event} {x : Switching W D}
    (h : run? P B (start { loader := l, policy } w errands) schedule = some x) :
    Orderly P B (start { loader := l, policy } w errands) schedule x := by
  have hfirst := sound_start l policy w errands
  have hs := sound_of_run? hfirst h
  refine
    { lawful := hs.lawful
      current := generation?_eq_current? hs
      generation := generation?_eq_swaps hs
      grows := ?_
      lock := lock_eq_some_iff hs
      inside := fun _ _ => inside?_eq hs
      deeds := ?_
      answered := fun _ _ _ _ => answered_of_run? hfirst rfl h
      accounted := accounted_of_sound hs
      devices := devices_of_run? hfirst (devices_start l policy w errands) h
      idle := fun _ _ _ => releasesIdle_of_run? hB hfirst rfl h
      finished := finished_of_isOver hs
      progress := awaits_of_stuck hs
      moves := moves_le h }
  · rintro before after u rfl hu
    exact grows_of_run? hfirst h hu
  · rintro before e after u u' rfl hu hstep
    exact deed_of_step? (sound_of_run? hfirst hu) hstep

end Switching

/-! ### The devices of this library -/

namespace Device

/-- Whether a posix device can answer a request at once: a wait only with nothing
under way, and an asynchronous transfer unless it has to wait for earlier ones. -/
def isReady : Request → Device → Bool
  | .wait, posix p => p.engine.completion.isIdle
  | .pread _ _ _ .async, posix p | .pwrite _ _ _ .async, posix p =>
    p.settings.overlapEvents || p.engine.completion.isIdle
  | _, _ => true

/-- The worker of that number carries out a job of its inbox, if it has one. -/
def advance? (worker : Nat) (d : Device) (w : World) : Option (Device × World) :=
  match d with
  | posix p => (p.engine.take? worker).map fun _ =>
      let (engine, storage) := p.engine.work worker w.storage
      (posix { p with engine }, { w with storage })
  | _ => none

/-- The workers of the posix devices go on by themselves. -/
def background : Background World Device where
  inFlight
    | posix p => p.inFlight
    | _ => 0
  isReady := isReady
  advance? := advance?

theorem waitsForAll_background : background.WaitsForAll := by
  intro d h
  cases d with
  | posix p => exact beq_iff_eq.mp h
  | bare | probe => rfl

end Device

namespace Switching

namespace WriteMeetsLoad

/-- One caller loads a device and has it write two bytes; the other loads another. -/
def errands : List (List Errand) :=
  [[.load "posix", .visit (.forward (.asyncPwrite ⟨0, .u8, 2, none⟩ "/p"))], [.load "posix"]]

def first : Switching World Device :=
  start { loader := ⟨"/plugins", Device.registry, {}⟩ }
    { storage := { memory := { regions := [[1, 2]] } }, nextPool := 1 } errands

/-- The first caller is about to write when the other one's load comes between. -/
def schedule : List Event :=
  List.replicate 7 (.caller 0) ++ List.replicate 10 (.caller 1) ++
    [.caller 0, .caller 0, .background 1 0, .caller 0]

def journal : List Occurrence :=
  [.built, .activated 1, .entered 0 1, .entered 1 1, .served 1 1, .left 1 1, .built, .activated 2,
    .left 1 1, .served 0 1, .left 0 1, .released 1]

end WriteMeetsLoad

open WriteMeetsLoad

/-- A write is accepted by a device after a load has replaced it: its caller keeps
the device from being released until it has left, and then the release waits for
the worker to carry out the write. -/
theorem orderly_of_run?_write_meets_load : ∃ x,
    run? Device.platform Device.background first schedule = some x ∧
      Device.background.WaitsForAll ∧ x.ground.journal = journal ∧ IsOver x ∧
      Orderly Device.platform Device.background first schedule x := by
  have hend : (run? Device.platform Device.background first schedule).map
      (fun x => (x.ground.journal, x.callers.map fun c => (c.errands, c.stage))) =
        some (journal, [([], .free), ([], .free)]) := rfl
  obtain ⟨x, hx, heq⟩ := Option.map_eq_some_iff.mp hend
  obtain ⟨hjournal, hcallers⟩ := Prod.mk.inj heq
  refine ⟨x, hx, Device.waitsForAll_background, hjournal, fun c hc => ?_,
    orderly_of_run? Device.waitsForAll_background hx⟩
  have hmem : (c.errands, c.stage) ∈ [([], .free), ([], .free)] :=
    hcallers ▸ List.mem_map_of_mem hc
  simpa using hmem

end Switching
end BlockTransfer
