import BlockTransfer.Proofs.Device.Rest
import BlockTransfer.Proofs.Operation.Opening
import BlockTransfer.Proofs.Traffic.Deeds
import BlockTransfer.Proofs.Traffic.Progress
import BlockTransfer.Proofs.Traffic.Reach
/-!
# How many operations get under way where they may not overlap

A caller that may not overlap operations sees that nothing is in flight, and
starts its operation one move later. Between these moves other callers may see
the same. So the operations in flight, together with the callers admitted, are
never more than the callers that were ever admitted at one time
(`Traffic.pressure_le`); and whenever nothing is in flight, all callers whose
files are open can be admitted, and then start, one after the other
(`Traffic.exists_all_launched`). Hence at most one operation is ever in flight
exactly if two callers never have their files open while nothing is in flight.

Key definitions: `Traffic.admitted`, `Traffic.ready`, `Traffic.openAll`.
Key theorems: `Traffic.pressure_le`, `Traffic.exists_all_launched`,
`Traffic.exists_all_opened`, `Traffic.inFlight_le_iff_ready_le`.
-/

namespace BlockTransfer
namespace Traffic

/-! ### Callers that are about to start an operation -/

/-- The caller saw that nothing hinders its operation, and has not started it. -/
def Caller.isAdmitted (c : Caller) : Bool :=
  match c.stage with
  | .admitted _ => true
  | _ => false

/-- The caller's file is open, and its operation has not started. -/
def Caller.isReady (c : Caller) : Bool :=
  match c.stage with
  | .opened _ | .admitted _ => true
  | _ => false

/-- The caller has to do with a transfer, now or later. -/
def Caller.transfers (c : Caller) : Bool :=
  (c.errands.any fun
    | .transfer _ => true
    | .wait => false) ||
  match c.stage with
  | .free => false
  | _ => true

/-- How many callers are admitted. -/
def admitted (t : Traffic) : Nat := t.callers.countP Caller.isAdmitted

/-- How many callers have their file open and have not started. -/
def ready (t : Traffic) : Nat := t.callers.countP Caller.isReady

/-- How many operations are in flight. -/
def inFlight (t : Traffic) : Nat := t.ground.engine.completion.inFlight

/-- Opens the files of orders one after the other; what is left of the storage. -/
def openAll (blockSize : Nat) (orders : List Order) (s : Storage) :
    Except TransferError Storage :=
  orders.foldlM (fun s order => (Operation.openFile order blockSize s).map Prod.snd) s

theorem openAll_cons {blockSize : Nat} {order : Order} {orders : List Order} {s s' : Storage}
    (h : openAll blockSize (order :: orders) s = .ok s') :
    ∃ o s₁, Operation.openFile order blockSize s = .ok (o, s₁) ∧
      openAll blockSize orders s₁ = .ok s' := by
  simp only [openAll, List.foldlM_cons] at h
  cases hopen : Operation.openFile order blockSize s with
  | error e =>
    rw [hopen] at h
    cases h
  | ok x =>
    rw [hopen] at h
    exact ⟨x.1, x.2, rfl, h⟩

theorem Caller.isReady_of_isAdmitted {c : Caller} (h : c.isAdmitted = true) : c.isReady = true := by
  obtain ⟨es, stage, as⟩ := c
  cases stage <;> simp_all [isAdmitted, isReady]

theorem Caller.transfers_of_isAdmitted {c : Caller} (h : c.isAdmitted = true) :
    c.transfers = true := by
  obtain ⟨es, stage, as⟩ := c
  cases stage <;> simp_all [isAdmitted, transfers]

theorem admitted_le_ready (t : Traffic) : t.admitted ≤ t.ready :=
  List.countP_mono_left fun _ _ => Caller.isReady_of_isAdmitted

theorem isIdle_iff {t : Traffic} : t.ground.engine.completion.isIdle = true ↔ t.inFlight = 0 := by
  simp [Completion.isIdle, inFlight]

/-! ### What one move does to the counts -/

/-- The number of callers with a property, when one of them becomes another. -/
theorem countP_moveCaller {t : Traffic} {i : Nat} {c : Caller} (p : Caller → Bool)
    (hc : t.callers[i]? = some c) (c' : Caller) (g : Ground) :
    (t.moveCaller i c' g).callers.countP p + (p c).toNat =
      t.callers.countP p + (p c').toNat := by
  have hsum := sum_map_set (fun c => (p c).toNat) hc c'
  have hcount (l : List Caller) : l.countP p = (l.map fun c => (p c).toNat).sum := by
    induction l with
    | nil => rfl
    | cons a l ih => cases hp : p a <;> simp [hp, ih, Nat.add_comm]
  rw [hcount, hcount]
  exact hsum

/-- A caller's move starts an operation only if the caller was admitted, and
admits it only if nothing is in flight, or operations may overlap. -/
theorem Caller.Move.pressure {blockSize : Nat} {c c' : Caller} {g g' : Ground}
    (h : c.Move blockSize g c' g') :
    g'.engine.completion.inFlight + c'.isAdmitted.toNat ≤
        g.engine.completion.inFlight + c.isAdmitted.toNat ∨
      g' = g ∧ (g.engine.overlapEvents = true ∨ g.engine.completion.isIdle = true) := by
  cases h with
  | admitted hopen => exact .inr ⟨rfl, hopen⟩
  | launched =>
    rename_i o es as
    have hstage (n len : Nat) (rs : List ByteRange) :
        (⟨es, .launched n len rs, as⟩ : Caller).isAdmitted = false := by
      cases rs <;> rfl
    rw [hstage]
    exact .inl (Nat.le_refl _)
  | placed hput =>
    rw [show (g.run _).engine.completion = _ from (put?_same hput).2.2]
    exact .inl (Nat.le_refl _)
  | reported => exact .inl (Nat.sub_le _ _)
  | _ => exact .inl (Nat.le_refl _)

/-- A worker's move starts no operation. -/
theorem Worker.Move.inFlight_le {i : Nat} {w w' : Worker} {g g' : Ground} (h : w.Move i g w' g') :
    g'.engine.completion.inFlight ≤ g.engine.completion.inFlight := by
  cases h with
  | taken htake =>
    exact Nat.le_of_eq (congrArg _ (take?_same htake).2.2)
  | failed =>
    rename_i j e
    exact Nat.le_of_eq (congrArg _ (g.engine.noteResult_same j.flight (.error e)).2.2.1)
  | retired =>
    rename_i n
    exact Nat.le_of_eq (congrArg _ (g.engine.retire_same n).2)
  | reported => exact Nat.sub_le _ _
  | _ => exact Nat.le_refl _

/-! ### The operations in flight are at most as many as the callers admitted at one time -/

variable {first t t' : Traffic} {schedule : List Event} {k : Nat}

/-- Without overlap a step adds to the operations in flight and the callers
admitted only while nothing is in flight. -/
theorem pressure_of_step? {e : Event} (hoverlap : t.ground.engine.overlapEvents = false)
    (h : t.step? e = some t') :
    t'.inFlight + t'.admitted ≤ t.inFlight + t.admitted ∨ t'.inFlight = 0 := by
  cases e with
  | caller i =>
    obtain ⟨c, c', g, hc, hmove, rfl⟩ := caller_of_step? h
    have hcount := countP_moveCaller Caller.isAdmitted hc c' g
    rcases hmove.pressure with hle | ⟨rfl, hopen | hidle⟩
    · left
      simp only [inFlight, admitted, moveCaller] at hcount ⊢
      omega
    · rw [hoverlap] at hopen
      cases hopen
    · exact .inr (isIdle_iff.mp hidle)
  | worker i =>
    obtain ⟨w, w', g, -, hmove, rfl⟩ := worker_of_step? h
    exact .inl (Nat.add_le_add_right hmove.inFlight_le _)

/-- If on the way at most `k` callers were ever admitted at one time while
nothing was in flight, at most `k` operations are in flight. -/
theorem pressure_le (hoverlap : first.ground.engine.overlapEvents = false)
    (h₀ : first.inFlight = 0) (h : first.run? schedule = some t)
    (hk : ∀ earlier u, earlier <+: schedule → first.run? earlier = some u → u.inFlight = 0 →
      u.admitted ≤ k) : t.inFlight + t.admitted ≤ k := by
  revert hk
  refine run_induction (P := fun schedule t => (∀ earlier u, earlier <+: schedule →
    first.run? earlier = some u → u.inFlight = 0 → u.admitted ≤ k) →
      t.inFlight + t.admitted ≤ k) ?_ ?_ h
  · intro hk
    rw [h₀, Nat.zero_add]
    exact hk [] first (List.prefix_refl _) rfl h₀
  · intro before u e u' hu ih hstep hk
    have hoverlap' : u.ground.engine.overlapEvents = false :=
      (sameSettings_of_run? hu).overlapEvents.trans hoverlap
    rcases pressure_of_step? hoverlap' hstep with hle | hidle
    · exact Nat.le_trans hle
        (ih fun earlier v hbefore => hk earlier v (hbefore.trans (List.prefix_append ..)))
    · rw [hidle, Nat.zero_add]
      exact hk _ u' (List.prefix_refl _) (run?_concat hu hstep) hidle

/-! ### Only a caller with a transfer is ever admitted -/

theorem Caller.Move.transfers {blockSize : Nat} {c c' : Caller} {g g' : Ground}
    (h : c.Move blockSize g c' g') (hc' : c'.transfers = true) : c.transfers = true := by
  cases h <;> simp_all [Caller.transfers]

theorem transfers_le_of_run? (h : first.run? schedule = some t) :
    t.callers.countP Caller.transfers ≤ first.callers.countP Caller.transfers := by
  refine run_induction (P := fun _ t =>
    t.callers.countP Caller.transfers ≤ first.callers.countP Caller.transfers) (Nat.le_refl _)
    (fun before u e u' _ ih hstep => ?_) h
  cases e with
  | caller i =>
    obtain ⟨c, c', g, hc, hmove, rfl⟩ := caller_of_step? hstep
    have hcount := countP_moveCaller Caller.transfers hc c' g
    have hle : c'.transfers.toNat ≤ c.transfers.toNat := by
      cases hc' : c'.transfers
      · exact Nat.zero_le _
      · exact Nat.le_of_eq (congrArg Bool.toNat (hmove.transfers hc').symm)
    omega
  | worker i =>
    obtain ⟨w, w', g, -, -, rfl⟩ := worker_of_step? hstep
    exact ih

theorem admitted_le_transfers (h : first.run? schedule = some t) :
    t.admitted ≤ first.callers.countP Caller.transfers :=
  Nat.le_trans (List.countP_mono_left fun _ _ => Caller.transfers_of_isAdmitted)
    (transfers_le_of_run? h)

/-! ### All callers that are ready can start -/

/-- A caller makes a move that it can make. -/
theorem step?_caller_of_getElem? {i : Nat} {c c' : Caller} {g : Ground}
    (hc : t.callers[i]? = some c) (h : c.step? t.blockSize t.ground = some (c', g)) :
    t.step? (.caller i) = some (t.moveCaller i c' g) := by
  simp only [step?, hc, Option.bind_eq_bind, Option.bind_some, h]
  rfl

theorem run?_cons {e : Event} (hstep : t.step? e = some t') (rest : List Event) :
    t.run? (e :: rest) = t'.run? rest := by
  simp only [run?, List.foldlM_cons, hstep, Option.bind_eq_bind, Option.bind_some]

/-- While nothing is in flight every caller whose file is open can be admitted. -/
theorem exists_all_admitted (hidle : t.inFlight = 0) :
    ∃ more u, t.run? more = some u ∧ u.ground = t.ground ∧ u.admitted = t.ready := by
  induction hleft : t.ready - t.admitted generalizing t with
  | zero =>
    exact ⟨[], t, rfl, rfl,
      Nat.le_antisymm t.admitted_le_ready (Nat.sub_eq_zero_iff_le.mp hleft)⟩
  | succ n ih =>
    obtain ⟨c, hmem, hready, hnot⟩ : ∃ c ∈ t.callers, c.isReady = true ∧ c.isAdmitted = false := by
      by_contra hall
      push Not at hall
      have hle : t.ready ≤ t.admitted := List.countP_mono_left fun c hc hr => by
        simpa using hall c hc hr
      omega
    obtain ⟨i, hi⟩ := List.mem_iff_getElem?.mp hmem
    obtain ⟨es, stage, as⟩ := c
    cases stage with
    | opened o =>
      have hstep : t.step? (.caller i) = some (t.moveCaller i ⟨es, .admitted o, as⟩ t.ground) := by
        refine step?_caller_of_getElem? hi ?_
        simp [Caller.step?, isIdle_iff.mpr hidle]
      have hadmitted := countP_moveCaller Caller.isAdmitted hi ⟨es, .admitted o, as⟩ t.ground
      have hkept := countP_moveCaller Caller.isReady hi ⟨es, .admitted o, as⟩ t.ground
      simp only [Caller.isAdmitted, Caller.isReady, Bool.toNat_true, Bool.toNat_false]
        at hadmitted hkept
      have hleft' : (t.moveCaller i ⟨es, .admitted o, as⟩ t.ground).ready -
          (t.moveCaller i ⟨es, .admitted o, as⟩ t.ground).admitted = n := by
        simp only [ready, admitted] at hleft ⊢
        omega
      obtain ⟨more, u, hrun, hground, hall⟩ :=
        ih (t := t.moveCaller i ⟨es, .admitted o, as⟩ t.ground) hidle hleft'
      refine ⟨.caller i :: more, u, ?_, hground, ?_⟩
      · rw [run?_cons hstep, hrun]
      · rw [hall, ready, ready]
        omega
    | _ => simp_all [Caller.isReady, Caller.isAdmitted]

/-- Callers that are admitted can start, whatever is in flight. -/
theorem exists_admitted_launched (t : Traffic) :
    ∃ more u, t.run? more = some u ∧ u.inFlight = t.inFlight + t.admitted := by
  induction hleft : t.admitted generalizing t with
  | zero => exact ⟨[], t, rfl, rfl⟩
  | succ n ih =>
    have hpos : 0 < t.callers.countP Caller.isAdmitted := by
      rw [← admitted, hleft]
      exact Nat.succ_pos n
    obtain ⟨c, hmem, hc⟩ := List.countP_pos_iff.mp hpos
    obtain ⟨i, hi⟩ := List.mem_iff_getElem?.mp hmem
    obtain ⟨es, stage, as⟩ := c
    cases stage with
    | admitted o =>
      let c' : Caller :=
        ⟨es, .launched t.ground.engine.nextFlight o.buffer.len (t.ground.engine.plan o), as⟩
      have hstep : t.step? (.caller i) = some (t.moveCaller i c' (t.ground.launch o)) :=
        step?_caller_of_getElem? hi rfl
      have hnot : c'.isAdmitted = false := by
        simp only [Caller.isAdmitted, c', Stage.launched]
        cases (t.ground.engine.plan o).isEmpty <;> rfl
      have hcount := countP_moveCaller Caller.isAdmitted hi c' (t.ground.launch o)
      rw [hnot] at hcount
      have hleft' : (t.moveCaller i c' (t.ground.launch o)).admitted = n := by
        simp only [admitted, Caller.isAdmitted, Bool.toNat_true, Bool.toNat_false] at hleft hcount ⊢
        omega
      obtain ⟨more, u, hrun, hall⟩ := ih (t.moveCaller i c' (t.ground.launch o)) hleft'
      refine ⟨.caller i :: more, u, ?_, ?_⟩
      · rw [run?_cons hstep, hrun]
      · have hmore : (t.moveCaller i c' (t.ground.launch o)).inFlight = t.inFlight + 1 := rfl
        rw [hall, hmore]
        omega
    | _ => cases hc

/-- From where nothing is in flight, all callers whose files are open can have
their operations in flight together. -/
theorem exists_all_launched (h : first.run? schedule = some t) (hidle : t.inFlight = 0) :
    ∃ more u, first.run? (schedule ++ more) = some u ∧ u.inFlight = t.ready := by
  obtain ⟨more, u, hu, hground, hall⟩ := exists_all_admitted hidle
  obtain ⟨more', v, hv, hflights⟩ := exists_admitted_launched u
  refine ⟨more ++ more', v, ?_, ?_⟩
  · rw [run?_append, h, Option.bind_some, run?_append, hu, Option.bind_some, hv]
  · have hzero : u.inFlight = 0 := by rw [inFlight, hground]; exact hidle
    rw [hflights, hzero, hall, Nat.zero_add]

/-! ### Callers that open their files one after the other -/

/-- Callers that have orders as their next errands open the files of these. -/
theorem exists_all_opened (done : List Caller) {pending : List (Order × List Errand)}
    {s' : Storage} (hcallers : t.callers =
      done ++ pending.map fun p => { errands := .transfer p.1 :: p.2 })
    (hopen : openAll t.blockSize (pending.map Prod.fst) t.ground.storage = .ok s') :
    ∃ more u, t.run? more = some u ∧ u.ground.engine = t.ground.engine ∧
      u.ready = done.countP Caller.isReady + pending.length := by
  induction pending generalizing t done with
  | nil => exact ⟨[], t, rfl, rfl, by simp [ready, hcallers]⟩
  | cons p pending ih =>
    obtain ⟨order, es⟩ := p
    obtain ⟨o, s₁, hfirst, hrest⟩ := openAll_cons hopen
    obtain ⟨s₀, hlocate, hfit⟩ := Operation.openFile_eq_ok hfirst
    let i := done.length
    have hi : t.callers[i]? = some { errands := .transfer order :: es } := by
      simp [hcallers, i]
    let t₁ := t.moveCaller i ⟨es, .located o, []⟩ (t.ground.store s₀)
    have hlocated : t.step? (.caller i) = some t₁ := by
      refine step?_caller_of_getElem? hi ?_
      simp only [Caller.step?, Caller.begin?, hlocate]
      rfl
    have hi₁ : t₁.callers[i]? = some ⟨es, .located o, []⟩ := by
      simp [t₁, moveCaller, hcallers, i]
    let t₂ := t₁.moveCaller i ⟨es, .opened o, []⟩ (t.ground.store s₁)
    have hopened : t₁.step? (.caller i) = some t₂ := by
      refine step?_caller_of_getElem? hi₁ ?_
      have hfit' : o.fit t₁.ground.storage = .ok s₁ := hfit
      simp only [Caller.step?, hfit']
      rfl
    have hcallers₂ : t₂.callers = (done ++ [⟨es, .opened o, []⟩]) ++
        pending.map fun p => { errands := .transfer p.1 :: p.2 } := by
      simp [t₂, t₁, moveCaller, hcallers, i]
    obtain ⟨more, u, hrun, hengine, hall⟩ := ih (t := t₂) _ hcallers₂ hrest
    refine ⟨.caller i :: .caller i :: more, u, ?_, hengine, ?_⟩
    · rw [run?_cons hlocated, run?_cons hopened, hrun]
    · have hready : [(⟨es, .opened o, []⟩ : Caller)].countP Caller.isReady = 1 := rfl
      rw [hall, List.countP_append, List.length_cons, hready]
      omega

/-! ### What the setting comes to -/

/-- Without overlap, however many callers there are and whatever they ask for:
a schedule along which never more than `k` callers are between seeing nothing in
flight and starting has never more than `k` operations in flight; never more than
`k` are in flight in any schedule exactly if never more than `k` callers have
their files open while nothing is in flight; there are never more in flight than
callers that ask for transfers; and callers that can open the files of their
first orders one after the other can have all of these in flight together. -/
theorem inFlight_le_iff_ready_le {d : PosixDevice} (hd : d.AtRest)
    (hoverlap : d.settings.overlapEvents = false) (s : Storage) (errands : List (List Errand)) :
    (∀ k schedule t, (start d s errands).run? schedule = some t →
      (∀ earlier u, earlier <+: schedule → (start d s errands).run? earlier = some u →
        u.admitted ≤ k) → t.inFlight ≤ k) ∧
    (∀ k, (∀ schedule t, (start d s errands).run? schedule = some t → t.inFlight ≤ k) ↔
      ∀ schedule t, (start d s errands).run? schedule = some t → t.inFlight = 0 → t.ready ≤ k) ∧
    (∀ schedule t, (start d s errands).run? schedule = some t →
      t.inFlight ≤ (start d s errands).callers.countP Caller.transfers) ∧
    (∀ (firsts : List (Order × List Errand)) s',
      errands = firsts.map (fun p => .transfer p.1 :: p.2) →
      openAll d.settings.blockSize (firsts.map Prod.fst) s = .ok s' →
      ∃ schedule t, (start d s errands).run? schedule = some t ∧ t.inFlight = firsts.length) := by
  have hoverlap' : (start d s errands).ground.engine.overlapEvents = false :=
    hd.overlapEvents.trans hoverlap
  have h₀ : (start d s errands).inFlight = 0 := congrArg Completion.inFlight hd.completion
  have hbound {k : Nat} {schedule : List Event} {t : Traffic}
      (hrun : (start d s errands).run? schedule = some t)
      (hk : ∀ earlier u, earlier <+: schedule → (start d s errands).run? earlier = some u →
        u.inFlight = 0 → u.admitted ≤ k) : t.inFlight ≤ k :=
    Nat.le_trans (Nat.le_add_right _ _) (pressure_le hoverlap' h₀ hrun hk)
  refine ⟨fun k schedule t hrun hk => hbound hrun fun earlier u hprefix hu _ =>
    hk earlier u hprefix hu, fun k => ⟨fun hk schedule t hrun hidle => ?_,
    fun hk schedule t hrun => hbound hrun fun earlier u _ hu hidle =>
      Nat.le_trans u.admitted_le_ready (hk _ u hu hidle)⟩,
    fun schedule t hrun => hbound hrun fun earlier u _ hu _ => admitted_le_transfers hu, ?_⟩
  · obtain ⟨more, u, hu, hall⟩ := exists_all_launched hrun hidle
    exact hall ▸ hk _ u hu
  · rintro firsts s' rfl hopen
    obtain ⟨more, u, hu, hengine, hready⟩ := exists_all_opened []
      (t := start d s (firsts.map fun p => .transfer p.1 :: p.2)) (by simp [start]) hopen
    have hidle : u.inFlight = 0 := by rw [inFlight, hengine]; exact h₀
    obtain ⟨more', v, hv, hall⟩ := exists_all_launched hu hidle
    exact ⟨_, v, hv, by rw [hall, hready]; exact Nat.zero_add _⟩

/-- Three callers, of which one writes and the others wait, have one operation in
flight at most; three that write to different files can have three. -/
theorem inFlight_le_iff_ready_le_three_callers : ∃ d s one three, PosixDevice.AtRest d ∧
    d.settings.overlapEvents = false ∧ one.length = 3 ∧ three.length = 3 ∧
    (∀ schedule t, (start d s one).run? schedule = some t → t.inFlight ≤ 1) ∧
    ∃ schedule t, (start d s three).run? schedule = some t ∧ t.inFlight = 3 := by
  let settings : DeviceSettings :=
    { blockSize := 1, queueDepth := 1, threadCount := 1, overlapEvents := false }
  let s : Storage := ⟨{ entries := [] }, { regions := [[1]] }⟩
  let d : PosixDevice := ⟨settings, .idle settings, ⟨0, 1, []⟩⟩
  let write (path : String) : Order := ⟨.write, ⟨0, .u8, 1, none⟩, path, false⟩
  let firsts : List (Order × List Errand) :=
    [(write "p", []), (write "q", [.wait]), (write "r", [.transfer (write "p")])]
  have hcreate : PosixDevice.create {} settings 0 = .ok d := rfl
  have hd : PosixDevice.AtRest d := (PosixDevice.atRest_create hcreate).1
  have hopen : (openAll d.settings.blockSize (firsts.map Prod.fst) s).isOk = true := by decide
  obtain ⟨s', hs'⟩ : ∃ s', openAll d.settings.blockSize (firsts.map Prod.fst) s = .ok s' := by
    cases h : openAll d.settings.blockSize (firsts.map Prod.fst) s with
    | error e =>
      rw [h] at hopen
      cases hopen
    | ok s' => exact ⟨s', rfl⟩
  exact ⟨d, s, [[.transfer (write "p"), .wait, .transfer (write "p")], [.wait], [.wait]],
    firsts.map fun p => .transfer p.1 :: p.2, hd, rfl, rfl, rfl,
    (inFlight_le_iff_ready_le hd rfl s _).2.2.1,
    (inFlight_le_iff_ready_le hd rfl s _).2.2.2 firsts s' rfl hs'⟩

/-- Two callers write one byte each, to different files. Both open their files,
both see that nothing is in flight, and both start. -/
theorem two_in_flight_without_overlap : ∃ d s errands schedule t, PosixDevice.AtRest d ∧
    d.settings.overlapEvents = false ∧ (start d s errands).run? schedule = some t ∧
    ¬t.inFlight ≤ 1 := by
  let settings : DeviceSettings :=
    { blockSize := 1, queueDepth := 1, threadCount := 1, overlapEvents := false }
  let s : Storage := ⟨{ entries := [] }, { regions := [[1]] }⟩
  let d : PosixDevice := ⟨settings, .idle settings, ⟨0, 1, []⟩⟩
  let errands : List (List Errand) :=
    [[.transfer ⟨.write, ⟨0, .u8, 1, none⟩, "p", false⟩],
      [.transfer ⟨.write, ⟨0, .u8, 1, none⟩, "q", false⟩]]
  let opening : List Event := [.caller 0, .caller 0, .caller 1, .caller 1]
  let checking : List Event := [.caller 0, .caller 1]
  let starting : List Event := [.caller 0, .caller 1]
  have hcreate : PosixDevice.create {} settings 0 = .ok d := rfl
  have hd : PosixDevice.AtRest d := (PosixDevice.atRest_create hcreate).1
  have hend : ((start d s errands).run? (opening ++ checking ++ starting)).map inFlight =
      some 2 := by decide
  obtain ⟨t, ht, hflights⟩ := Option.map_eq_some_iff.mp hend
  exact ⟨d, s, errands, _, t, hd, rfl, ht, by rw [hflights]; decide⟩

end Traffic
end BlockTransfer
