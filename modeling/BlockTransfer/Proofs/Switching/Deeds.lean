import BlockTransfer.Proofs.Switching.Progress
/-!
# What moves do to devices

Of callers that switch devices, `Deed` tells what one move does to the devices and to
the world they act on. A device answers what its caller asks of it, or works on by
itself; a load makes one, or fails; the one that was made becomes active; one that is
retired is given up. No other move touches a device or the world, so no device is lost
or given up otherwise.

Key definitions: `LoadedDevice.GivenUp`, `Switching.Ground.running`,
`Switching.made`, `Switching.Serves`, `Switching.Releases`, `Switching.Deed`.
Key theorem: `Switching.deed_of_step?`.
-/

namespace BlockTransfer

variable {W D : Type} {P : Platform W D} {B : Background W D}

/-- A device is given up: it waits once more, whatever comes of it, is discarded, and
then its library is closed, if it comes from one. -/
def LoadedDevice.GivenUp (P : Platform W D) (loaded : LoadedDevice D) (w w' : W) : Prop :=
  ∃ answer device settled, P.serve .wait loaded.device w = (answer, device, settled) ∧
    w' = match loaded.origin with
      | .builtin => P.discard device settled
      | .module _ library => P.closeLibrary library (P.discard device settled)

theorem Activation.givenUp_release (a : Activation D) (w : W) :
    a.loaded.GivenUp P w (a.release P w) := by
  refine ⟨_, _, _, rfl, ?_⟩
  obtain ⟨⟨device, t, origin⟩, generation, locked, holders⟩ := a
  cases origin <;> rfl

namespace Switching

/-- The activations that are not released: the one in the slot, and the retired ones. -/
def Ground.activations (g : Ground W D) : List (Activation D) :=
  g.dispatcher.slot.toList ++ g.dispatcher.retired

/-- The devices that run, by generation. -/
def Ground.running (g : Ground W D) : List (Nat × LoadedDevice D) :=
  g.activations.map fun a => (a.generation, a.loaded)

/-- The device that a caller has made and that is not active yet. -/
def Stage.made : Stage D → List (LoadedDevice D)
  | .built loaded | .numbered loaded _ => [loaded]
  | _ => []

/-- The devices that were made and are not active yet. -/
def made (x : Switching W D) : List (LoadedDevice D) := x.callers.flatMap (·.stage.made)

/-- The device of that generation answers what its caller asks of it. -/
inductive Serves (P : Platform W D) (B : Background W D) (caller generation : Nat)
    (x x' : Switching W D) : Prop where
  | intro {c : Caller D} {r : Request} {loaded : LoadedDevice D}
      {answer : Except DeviceError Answer} {device : D} {others : List (Nat × LoadedDevice D)}
      (asker : x.callers[caller]? = some c) (asks : c.stage.asks? = some (generation, r))
      (ready : B.isReady r loaded.device = true)
      (serve : P.serve r loaded.device x.ground.world = (answer, device, x'.ground.world))
      (before : x.ground.running.Perm ((generation, loaded) :: others))
      (after : x'.ground.running.Perm ((generation, { loaded with device }) :: others))

/-- The device of an activation that is retired and that nobody holds is given up. -/
structure Releases (P : Platform W D) (B : Background W D) (a : Activation D)
    (x x' : Switching W D) : Prop where
  retired : a ∈ x.ground.dispatcher.retired
  unheld : a.holders = 0
  ready : B.isReady .wait a.loaded.device = true
  givenUp : a.loaded.GivenUp P x.ground.world x'.ground.world
  slot : x'.ground.dispatcher.slot = x.ground.dispatcher.slot
  others : x'.ground.dispatcher.retired =
    x.ground.dispatcher.retired.filter (·.generation != a.generation)
  running : x.ground.running.Perm ((a.generation, a.loaded) :: x'.ground.running)

/-- What a move does to the devices and to the world. -/
inductive Deed (P : Platform W D) (B : Background W D) (x x' : Switching W D) : Prop where
  /-- Nothing; a caller may have stepped into an activation, or out of one. -/
  | quiet (world : x'.ground.world = x.ground.world)
      (running : x'.ground.running = x.ground.running) (made : x'.made.Perm x.made)
      (journal : x'.ground.journal = x.ground.journal ∨ ∃ caller generation,
        x'.ground.journal = x.ground.journal ++ [.entered caller generation] ∨
          x'.ground.journal = x.ground.journal ++ [.left caller generation])
  /-- A device answers a caller. -/
  | served {caller generation : Nat} (serves : Serves P B caller generation x x')
      (made : x'.made.Perm x.made)
      (journal : x'.ground.journal = x.ground.journal ++ [.served caller generation])
  /-- A device works on by itself. -/
  | advanced {generation choice : Nat} {loaded : LoadedDevice D} {device : D}
      {others : List (Nat × LoadedDevice D)}
      (advance : B.advance? choice loaded.device x.ground.world = some (device, x'.ground.world))
      (before : x.ground.running.Perm ((generation, loaded) :: others))
      (after : x'.ground.running.Perm ((generation, { loaded with device }) :: others))
      (made : x'.made = x.made) (journal : x'.ground.journal = x.ground.journal)
  /-- A load finds no device of its type. -/
  | refused {t : String} {e : ResolutionError}
      (load : x.ground.dispatcher.loader.load P t x.ground.world = (.error e, x'.ground.world))
      (running : x'.ground.running = x.ground.running) (made : x'.made.Perm x.made)
      (journal : x'.ground.journal = x.ground.journal)
  /-- A load makes a device. -/
  | built {t : String} {loaded : LoadedDevice D}
      (load : x.ground.dispatcher.loader.load P t x.ground.world = (.ok loaded, x'.ground.world))
      (running : x'.ground.running = x.ground.running) (made : x'.made.Perm (loaded :: x.made))
      (journal : x'.ground.journal = x.ground.journal ++ [.built])
  /-- The device that was made becomes the active one. -/
  | activated {generation : Nat} {loaded : LoadedDevice D}
      (world : x'.ground.world = x.ground.world) (made : x.made.Perm (loaded :: x'.made))
      (slot : x'.ground.dispatcher.slot = some { loaded, generation })
      (running : x'.ground.running.Perm ((generation, loaded) :: x.ground.running))
      (journal : x'.ground.journal = x.ground.journal ++ [.activated generation])
  /-- A device that is active no more is given up. -/
  | released {a : Activation D} (releases : Releases P B a x x') (made : x'.made.Perm x.made)
      (journal : x'.ground.journal = x.ground.journal ++ [.released a.generation])

/-! ### Activations -/

variable {x x' : Switching W D} {g g' : Ground W D} {c c' : Caller D} {a : Activation D}
  {i generation : Nat}

theorem nodup_activations (hs : x.roster.Sound) :
    (x.ground.activations.map (·.generation)).Nodup := by
  rw [Ground.activations, ← generations_roster]
  exact hs.nodup_tallies

theorem of_activation? (h : g.dispatcher.activation? generation = some a) :
    a ∈ g.activations ∧ a.generation = generation :=
  ⟨List.mem_of_find?_eq_some h,
    beq_iff_eq.mp (List.find?_some (p := fun b : Activation D => b.generation == generation) h)⟩

/-- Of activations with distinct generations, one is told from the others. -/
theorem exists_others {l : List (Activation D)} (hn : (l.map (·.generation)).Nodup) (ha : a ∈ l) :
    ∃ others, l.Perm (a :: others) ∧ ∀ b ∈ others, b.generation ≠ a.generation := by
  obtain ⟨s, t, rfl⟩ := List.append_of_mem ha
  have hperm : (s ++ a :: t).Perm (a :: (s ++ t)) := List.perm_middle
  have hnodup := (hperm.map (·.generation)).nodup_iff.mp hn
  exact ⟨s ++ t, hperm, fun b hb heq =>
    (List.nodup_cons.mp hnodup).1 (List.mem_map.mpr ⟨b, hb, heq⟩)⟩

theorem activations_mapActivation (g : Ground W D) (generation : Nat)
    (f : Activation D → Activation D) (w : W) :
    Ground.activations { g with
      dispatcher := g.dispatcher.mapActivation generation f, world := w } =
      g.activations.map fun a => if a.generation = generation then f a else a := by
  simp only [Ground.activations, Dispatcher.mapActivation, List.map_append, Option.toList_map]

/-- Who is inside of an activation, and which buffers are locked, is no matter of devices. -/
theorem running_mapActivation (g : Ground W D) (generation : Nat) (f : Activation D → Activation D)
    (hf : ∀ a, (f a).generation = a.generation ∧ (f a).loaded = a.loaded) :
    Ground.running { g with dispatcher := g.dispatcher.mapActivation generation f } =
      g.running := by
  rw [Ground.running, activations_mapActivation, List.map_map, Ground.running]
  refine List.map_congr_left fun a _ => ?_
  simp only [Function.comp_apply]
  split
  · rw [(hf a).1, (hf a).2]
  · rfl

/-- The device of one generation changes, and no other. -/
theorem running_setDevice (hs : x.roster.Sound)
    (ha : x.ground.dispatcher.activation? generation = some a) (device : D) (w : W) :
    ∃ others, x.ground.running.Perm ((generation, a.loaded) :: others) ∧
      (Ground.running { x.ground with
        dispatcher := x.ground.dispatcher.mapActivation generation (·.setDevice device)
        world := w }).Perm ((generation, { a.loaded with device }) :: others) := by
  obtain ⟨hmem, rfl⟩ := of_activation? ha
  obtain ⟨others, hperm, hne⟩ := exists_others (nodup_activations hs) hmem
  have hrunning := hperm.map fun b : Activation D => (b.generation, b.loaded)
  refine ⟨_, hrunning, ?_⟩
  rw [Ground.running, activations_mapActivation]
  refine ((hperm.map _).map _).trans (.of_eq ?_)
  have hothers : others.map (fun b => if b.generation = a.generation then b.setDevice device
      else b) = others := by
    refine (List.map_congr_left fun b hb => ?_).trans (List.map_id _)
    rw [if_neg (hne b hb)]
    rfl
  rw [List.map_cons, hothers, if_pos rfl, List.map_cons]
  rfl

/-- A generation is found where it stands, once. -/
theorem find?_generation {l : List (Activation D)} (hn : (l.map (·.generation)).Nodup)
    (ha : a ∈ l) : l.find? (·.generation == a.generation) = some a := by
  let p := fun b : Activation D => b.generation == a.generation
  obtain ⟨b, hb⟩ := Option.isSome_iff_exists.mp
    ((List.find?_isSome (p := p)).mpr ⟨a, ha, beq_self_eq_true a.generation⟩)
  have hsame : b.generation = a.generation := beq_iff_eq.mp (List.find?_some (p := p) hb)
  rw [hb, List.inj_on_of_nodup_map hn (List.mem_of_find?_eq_some hb) ha hsame]

/-- A retired activation goes, and its device is given up. -/
theorem releases_releaseRetired (hs : x.roster.Sound) (ha : a ∈ x.ground.dispatcher.retired)
    (unheld : a.holders = 0) (ready : B.isReady .wait a.loaded.device = true)
    (callers : List (Caller D)) :
    let out := x.ground.dispatcher.releaseRetired P a.generation x.ground.world
    Releases P B a x ⟨Ground.log { x.ground with dispatcher := out.1, world := out.2 }
      (.released a.generation), callers⟩ := by
  have hnodup : (x.ground.dispatcher.retired.map (·.generation)).Nodup :=
    (nodup_activations hs).sublist ((List.sublist_append_right _ _).map _)
  obtain ⟨others, hperm, hne⟩ := exists_others hnodup ha
  have hfilter : (x.ground.dispatcher.retired.filter (·.generation != a.generation)).Perm
      others := by
    refine (hperm.filter _).trans (.of_eq ?_)
    rw [List.filter_cons_of_neg (by simp), List.filter_eq_self]
    exact fun b hb => bne_iff_ne.mpr (hne b hb)
  have hactivations : x.ground.activations.Perm (a :: (x.ground.dispatcher.slot.toList ++
      x.ground.dispatcher.retired.filter (·.generation != a.generation))) :=
    ((hperm.trans (hfilter.symm.cons a)).append_left _).trans List.perm_middle
  simp only [Dispatcher.releaseRetired, find?_generation hnodup ha]
  exact ⟨ha, unheld, ready, a.givenUp_release _, rfl, rfl, hactivations.map _⟩

/-! ### Callers -/

/-- What a caller has made is all that its move changes of what was made. -/
theorem made_set (hc : x.callers[i]? = some c) (g : Ground W D) (c' : Caller D) :
    (c.stage.made ++ made ⟨g, x.callers.set i c'⟩).Perm (c'.stage.made ++ x.made) :=
  flatMap_set_perm (fun c : Caller D => c.stage.made) hc c'

theorem made_set_of_eq (hc : x.callers[i]? = some c) (g : Ground W D)
    (h : c'.stage.made = c.stage.made) : (made ⟨g, x.callers.set i c'⟩).Perm x.made := by
  have hperm := made_set hc g c'
  rw [h] at hperm
  exact (List.perm_append_left_iff _).mp hperm

theorem made_goOn (c : Caller D) (next : Next) : (c.goOn next).stage.made = [] := by
  cases next <;> rfl

variable {P : Platform W D} {B : Background W D}

/-- A caller's move that leaves devices and the world alone. -/
theorem Deed.still (hc : x.callers[i]? = some c) (hmade : c'.stage.made = c.stage.made)
    (hworld : g'.world = x.ground.world) (hrunning : g'.running = x.ground.running)
    (hjournal : g'.journal = x.ground.journal ∨ ∃ caller generation,
      g'.journal = x.ground.journal ++ [.entered caller generation] ∨
        g'.journal = x.ground.journal ++ [.left caller generation]) :
    Deed P B x ⟨g', x.callers.set i c'⟩ :=
  .quiet hworld hrunning (made_set_of_eq hc g' hmade) hjournal

/-- A caller steps into the active device's activation. -/
theorem Deed.enter (hc : x.callers[i]? = some c) (hmade : c'.stage.made = c.stage.made)
    (h : x.ground.enter? i = some (generation, g')) :
    Deed P B x ⟨g', x.callers.set i c'⟩ := by
  obtain ⟨⟨generation, d⟩, henter, heq⟩ := Option.map_eq_some_iff.mp h
  obtain ⟨a, ha, hd⟩ := Option.map_eq_some_iff.mp henter
  cases hd
  cases heq
  exact .still hc hmade rfl (running_mapActivation _ _ _ fun _ => ⟨rfl, rfl⟩)
    (.inr ⟨_, _, .inl rfl⟩)

/-- A caller's request is answered. -/
theorem Deed.serve (hs : x.roster.Sound) (hc : x.callers[i]? = some c)
    (hmade : c'.stage.made = c.stage.made) {r : Request} {answer : Except DeviceError Answer}
    (hasks : c.stage.asks? = some (generation, r))
    (h : x.ground.serve? P B i generation r = some (answer, g')) :
    Deed P B x ⟨g', x.callers.set i c'⟩ := by
  obtain ⟨a, ha, h⟩ := Option.bind_eq_some_iff.mp h
  split at h
  · rename_i hready
    obtain ⟨⟨answer, d, w⟩, hserve, heq⟩ := Option.map_eq_some_iff.mp h
    obtain ⟨a', ha', hd⟩ := Option.map_eq_some_iff.mp hserve
    obtain rfl : a = a' := Option.some_inj.mp (ha.symm.trans ha')
    cases hd
    cases heq
    obtain ⟨others, hbefore, hafter⟩ := running_setDevice hs ha
      (P.serve r a.loaded.device x.ground.world).2.1 (P.serve r a.loaded.device x.ground.world).2.2
    exact .served (.intro hc hasks hready rfl hbefore hafter) (made_set_of_eq hc _ hmade) rfl
  · cases h

/-- A caller waits for the device that it is inside of. -/
theorem Deed.drain (hs : x.roster.Sound) (hc : x.callers[i]? = some c)
    (hmade : c'.stage.made = c.stage.made) (hasks : c.stage.asks? = some (generation, .wait))
    (ha : x.ground.dispatcher.activation? generation = some a)
    (hready : B.isReady .wait a.loaded.device = true) :
    let out := a.drain P x.ground.world
    Deed P B x ⟨Ground.log { x.ground with
      dispatcher := x.ground.dispatcher.mapActivation generation (·.setDevice out.2.1.loaded.device)
      world := out.2.2 } (.served i generation), x.callers.set i c'⟩ := by
  obtain ⟨others, hbefore, hafter⟩ := running_setDevice hs ha
    (P.serve .wait a.loaded.device x.ground.world).2.1
    (P.serve .wait a.loaded.device x.ground.world).2.2
  exact .served (.intro hc hasks hready rfl hbefore hafter) (made_set_of_eq hc _ hmade) rfl

theorem deed_of_visit? (hs : x.roster.Sound) {v : Visit} {es : List Errand} {rs : List Reply}
    (hc : x.callers[i]? = some ⟨es, .inside v generation, rs⟩)
    (h : Caller.visit? P B i generation ⟨es, .inside v generation, rs⟩ x.ground v =
      some (c', g')) : Deed P B x ⟨g', x.callers.set i c'⟩ := by
  cases v with
  | forward call =>
    obtain ⟨⟨answer, g₁⟩, hserve, heq⟩ := Option.map_eq_some_iff.mp h
    cases heq
    exact .serve hs hc rfl rfl hserve
  | newLocked count like =>
    obtain ⟨⟨answer, g₁⟩, hserve, heq⟩ := Option.map_eq_some_iff.mp h
    simp only at heq
    split at heq
    · cases heq
      exact .serve hs hc rfl rfl hserve
    · split at heq <;> cases heq <;> exact .serve hs hc rfl rfl hserve
    · cases heq
      exact .serve hs hc rfl rfl hserve
  | freeLocked b =>
    obtain ⟨a, -, heq⟩ := Option.map_eq_some_iff.mp h
    split at heq <;> cases heq <;> exact .still hc rfl rfl rfl (.inl rfl)

/-- A device with a number is swapped in; the one that it replaces runs on. -/
theorem deed_of_swap {loaded : LoadedDevice D} {es : List Errand} {rs : List Reply}
    (hc : x.callers[i]? = some ⟨es, .numbered loaded generation, rs⟩)
    (h : Caller.step? P B i ⟨es, .numbered loaded generation, rs⟩ x.ground = some (c', g')) :
    Deed P B x ⟨g', x.callers.set i c'⟩ := by
  have hmade (hnone : c'.stage.made = []) :
      x.made.Perm (loaded :: made ⟨g', x.callers.set i c'⟩) := by
    have hperm := made_set hc g' c'
    rw [hnone] at hperm
    exact hperm.symm
  simp only [Caller.step?, Dispatcher.swap] at h
  cases hslot : x.ground.dispatcher.slot with
  | none =>
    simp only [hslot] at h
    cases h
    refine .activated rfl (hmade rfl) rfl (.of_eq ?_) rfl
    simp [Ground.running, Ground.activations, Ground.log, hslot]
  | some a =>
    simp only [hslot] at h
    cases h
    refine .activated rfl (hmade rfl) rfl ?_ rfl
    simp only [Ground.running, Ground.activations, Ground.log, hslot, Option.map_some,
      Option.toList_some, List.singleton_append, List.map_cons, List.map_append, List.map_nil]
    exact (List.perm_append_singleton _ _).cons _

/-- Who is to release an activation gives its device up. -/
theorem deed_of_release (hs : x.roster.Sound) {next : Next} {es : List Errand} {rs : List Reply}
    (hc : x.callers[i]? = some ⟨es, .releasing generation next, rs⟩)
    (ha : x.ground.dispatcher.activation? generation = some a)
    (hready : B.isReady .wait a.loaded.device = true) :
    let out := x.ground.dispatcher.releaseRetired P generation x.ground.world
    Deed P B x ⟨Ground.log { x.ground with dispatcher := out.1, world := out.2 }
      (.released generation),
      x.callers.set i (Caller.goOn ⟨es, .releasing generation next, rs⟩ next)⟩ := by
  have role : x.roster.roles[i]? = some (.releasing generation next.isLoading) := by
    show (x.callers.map _)[i]? = _
    rw [List.getElem?_map, hc]
    rfl
  obtain ⟨b, hb, htally⟩ := List.mem_map.mp (hs.mem_retired role)
  obtain rfl : b.generation = generation := congrArg Tally.generation htally
  have hfound := find?_generation (nodup_activations hs) (List.mem_append_right _ hb)
  obtain rfl : b = a := Option.some_inj.mp (hfound.symm.trans ha)
  exact .released (releases_releaseRetired hs hb (congrArg Tally.holders htally) hready _)
    (made_set_of_eq hc _ (made_goOn _ next)) rfl

/-- Whatever a caller does. -/
theorem deed_of_caller_step? (hs : x.roster.Sound) (hc : x.callers[i]? = some c)
    (h : c.step? P B i x.ground = some (c', g')) : Deed P B x ⟨g', x.callers.set i c'⟩ := by
  obtain ⟨es, stage, rs⟩ := c
  cases stage with
  | free =>
    simp only [Caller.step?, Caller.begin?] at h
    split at h
    · cases h
    · split at h
      · cases h
        exact .still hc rfl rfl rfl (.inl rfl)
      · cases h
    · split at h
      · cases h
        exact .still hc rfl rfl rfl (.inl rfl)
      · rename_i henter
        cases h
        exact .enter hc rfl henter
  | admitted t =>
    simp only [Caller.step?] at h
    split at h
    · cases h
      exact .still hc rfl rfl rfl (.inl rfl)
    · rename_i henter
      cases h
      exact .enter hc rfl henter
  | draining t generation =>
    obtain ⟨a, ha, h⟩ := Option.bind_eq_some_iff.mp h
    split at h
    · rename_i hready
      simp only at h
      split at h <;> cases h <;> exact .drain hs hc rfl rfl ha hready
    · cases h
  | counting t generation =>
    obtain ⟨a, -, heq⟩ := Option.map_eq_some_iff.mp h
    split at heq <;> cases heq <;> exact .still hc rfl rfl rfl (.inl rfl)
  | building t =>
    simp only [Caller.step?] at h
    split at h <;> cases h
    · rename_i hload
      exact .refused (by rw [hload]) rfl (made_set_of_eq hc _ rfl) rfl
    · rename_i loaded w hload
      exact .built (by rw [hload]; rfl) rfl (made_set hc _ _) rfl
  | built loaded =>
    cases h
    exact .still hc rfl rfl rfl (.inl rfl)
  | numbered loaded generation => exact deed_of_swap hc h
  | unlocking r =>
    cases h
    exact .still hc rfl rfl rfl (.inl rfl)
  | inside v generation => exact deed_of_visit? hs hc h
  | recording b tag generation =>
    cases h
    exact .still hc rfl rfl (running_mapActivation _ _ _ fun _ => ⟨rfl, rfl⟩) (.inl rfl)
  | freeing b tag generation =>
    obtain ⟨⟨answer, g₁⟩, hserve, heq⟩ := Option.map_eq_some_iff.mp h
    simp only at heq
    split at heq <;> cases heq <;> exact .serve hs hc rfl rfl hserve
  | forgetting tag generation =>
    cases h
    exact .still hc rfl rfl (running_mapActivation _ _ _ fun _ => ⟨rfl, rfl⟩) (.inl rfl)
  | leaving generation next =>
    have hmade : (if (x.ground.dispatcher.stepOut generation).1 then
        ({ errands := es, stage := .releasing generation next, replies := rs } : Caller D)
        else Caller.goOn ⟨es, .leaving generation next, rs⟩ next).stage.made = [] := by
      split
      · rfl
      · exact made_goOn _ next
    cases h
    exact .still hc hmade rfl (running_mapActivation _ _ _ fun _ => ⟨rfl, rfl⟩)
      (.inr ⟨_, _, .inr rfl⟩)
  | releasing generation next =>
    obtain ⟨a, ha, h⟩ := Option.bind_eq_some_iff.mp h
    split at h
    · rename_i hready
      cases h
      exact deed_of_release hs hc ha hready
    · cases h

/-- Whatever happens. -/
theorem deed_of_step? (hs : x.roster.Sound) {e : Event} (h : step? P B x e = some x') :
    Deed P B x x' := by
  cases e with
  | caller i =>
    obtain ⟨c, hc, h⟩ := Option.bind_eq_some_iff.mp h
    obtain ⟨⟨c', g⟩, hmove, h⟩ := Option.bind_eq_some_iff.mp h
    cases h
    exact deed_of_caller_step? hs hc hmove
  | background generation choice =>
    obtain ⟨g, hadvance, h⟩ := Option.bind_eq_some_iff.mp h
    obtain ⟨a, ha, hadvance⟩ := Option.bind_eq_some_iff.mp hadvance
    obtain ⟨⟨d, w⟩, hgoes, hg⟩ := Option.map_eq_some_iff.mp hadvance
    cases hg
    cases h
    obtain ⟨others, hbefore, hafter⟩ := running_setDevice hs ha d w
    exact .advanced hgoes hbefore hafter rfl rfl

/-! ### Deeds and the journal -/

variable {o : Occurrence} {caller : Nat}

/-- A move adds one entry at most. -/
theorem Deed.journal_cases (h : Deed P B x x') : x'.ground.journal = x.ground.journal ∨
    ∃ o, x'.ground.journal = x.ground.journal ++ [o] := by
  cases h with
  | quiet _ _ _ journal =>
    rcases journal with h | ⟨_, _, h | h⟩
    · exact .inl h
    · exact .inr ⟨_, h⟩
    · exact .inr ⟨_, h⟩
  | advanced _ _ _ _ journal | refused _ _ _ journal => exact .inl journal
  | served _ _ journal | built _ _ _ journal | activated _ _ _ _ journal
  | released _ _ journal => exact .inr ⟨_, journal⟩

/-- An entry tells of what the deed was. -/
theorem Deed.serves (h : Deed P B x x')
    (hj : x'.ground.journal = x.ground.journal ++ [.served caller generation]) :
    Serves P B caller generation x x' := by
  cases h with
  | served serves _ journal =>
    have heq := journal.symm.trans hj
    simp only [List.append_cancel_left_eq, List.cons.injEq, Occurrence.served.injEq, and_true]
      at heq
    obtain ⟨rfl, rfl⟩ := heq
    exact serves
  | quiet _ _ _ journal => rcases journal with h | ⟨_, _, h | h⟩ <;> simp [h] at hj
  | advanced _ _ _ _ journal | refused _ _ _ journal => simp [journal] at hj
  | built _ _ _ journal | activated _ _ _ _ journal | released _ _ journal =>
    simp [journal] at hj

theorem Deed.releases (h : Deed P B x x')
    (hj : x'.ground.journal = x.ground.journal ++ [.released generation]) :
    ∃ a, a.generation = generation ∧ Releases P B a x x' := by
  cases h with
  | released releases _ journal =>
    have heq := journal.symm.trans hj
    simp only [List.append_cancel_left_eq, List.cons.injEq, Occurrence.released.injEq, and_true]
      at heq
    exact ⟨_, heq, releases⟩
  | quiet _ _ _ journal => rcases journal with h | ⟨_, _, h | h⟩ <;> simp [h] at hj
  | advanced _ _ _ _ journal | refused _ _ _ journal => simp [journal] at hj
  | built _ _ _ journal | activated _ _ _ _ journal | served _ _ journal =>
    simp [journal] at hj

/-- Devices come by being built, and go by being given up. -/
theorem Deed.devices (h : Deed P B x x') (hx : builds x.ground.journal =
      (Switching.releases x.ground.journal).length + x.ground.running.length + x.made.length) :
    builds x'.ground.journal = (Switching.releases x'.ground.journal).length +
      x'.ground.running.length + x'.made.length := by
  cases h with
  | quiet _ running made journal =>
    rw [running, made.length_eq]
    rcases journal with h | ⟨_, _, h | h⟩ <;> simpa [h] using hx
  | served serves made journal =>
    obtain ⟨_, _, _, _, before, after⟩ := serves
    have hrunning := after.length_eq.trans before.length_eq.symm
    simpa [journal, made.length_eq, hrunning] using hx
  | advanced _ before after made journal =>
    have hrunning := after.length_eq.trans before.length_eq.symm
    rw [journal, made, hrunning, hx]
  | refused _ running made journal => rw [journal, running, made.length_eq, hx]
  | built _ running made journal =>
    have hmade := made.length_eq
    rw [List.length_cons] at hmade
    simp only [journal, running, hmade, builds_snoc, releases_snoc, hx, ↓reduceIte,
      Occurrence.release?, Option.toList_none, List.append_nil]
    omega
  | activated _ made _ running journal =>
    have hmade := made.length_eq
    have hrunning := running.length_eq
    rw [List.length_cons] at hmade hrunning
    simp only [journal, hrunning, builds_snoc, releases_snoc, hx, reduceCtorEq, ↓reduceIte,
      add_zero, Occurrence.release?, Option.toList_none, List.append_nil]
    omega
  | released releases made journal =>
    have hrunning := releases.running.length_eq
    rw [List.length_cons] at hrunning
    simp only [journal, made.length_eq, builds_snoc, releases_snoc, hx, reduceCtorEq,
      ↓reduceIte, add_zero, Occurrence.release?, Option.toList_some, List.length_append,
      List.length_singleton]
    omega

end Switching
end BlockTransfer
