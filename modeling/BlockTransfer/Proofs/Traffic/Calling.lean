import BlockTransfer.Proofs.Traffic.Outlook
/-!
# What a caller's moves make of the outlook

A caller that is alone with the workers finds or makes the file of an order, is
refused or looks at the file's length, and starts the operation. What the
storage will be is the same after each of these moves as before it, but for the
order that the caller takes up: that one is carried out in the outlook at once.

A write empties its file while earlier operations may still be under way. It
does no harm if these write no more bytes to the same file than it will
(`Operation.Yields`).

Key definitions: `Operation.Yields`.
Key theorems: `Traffic.Prospect.located`, `Traffic.Prospect.fitted`,
`Traffic.Prospect.launched`.
-/

namespace BlockTransfer

/-- The file of a later operation can be opened while an earlier one is under way:
the later one reads, or the earlier one does not use the file, or writes no more
bytes to it than the later one will. -/
def Operation.Yields (q o : Operation) : Prop :=
  o.direction = .write → q.handle = o.handle → 0 < q.buffer.len →
    q.direction = .write ∧ q.buffer.len ≤ o.buffer.len

instance (q o : Operation) : Decidable (q.Yields o) :=
  inferInstanceAs (Decidable (_ → _ → _ → _))

theorem Operation.Apart.yields {q o : Operation} (h : q.Apart o) : q.Yields o := by
  intro hd hh
  rw [(h.file hh).2] at hd
  cases hd

namespace Traffic

open Operation

variable {first t : Traffic} {schedule : List Event} {i : Nat} {c c' : Caller} {g : Ground}
  {dead dead' : Operation → Prop} {st : Stage}

/-- A caller does not report that a job ended. -/
theorem Caller.Move.not_ran {blockSize : Nat} {g' : Ground} (h : c.Move blockSize g c' g')
    {j : Job} {result : Except TransferError Unit} :
    g'.journal ≠ g.journal ++ [.ran j result] := by
  have hquiet : g.journal ≠ g.journal ++ [.ran j result] := by simp
  cases h with
  | drained => exact fun hj => by cases List.append_cancel_left hj
  | launched => exact fun hj => by cases List.append_cancel_left hj
  | reported => exact fun hj => by cases List.append_cancel_left hj
  | _ => exact hquiet

namespace Sound

/-- A caller's move that starts no operation. -/
theorem callerMove (h : Sound first dead t) (hc : t.callers[i]? = some c)
    (hmove : c.Move t.blockSize t.ground c' g)
    (hops : ∀ n q, g.engine.operation? n = some q → t.ground.engine.operation? n = some q)
    (hlist : g.engine.operations.Sublist t.ground.engine.operations)
    (halive : ∀ q ∈ t.ground.engine.operations, ¬dead' q → ¬dead q)
    (hlocated : ∀ q ∈ t.ground.engine.operations, q.Located g.storage)
    (hready : ∀ q ∈ t.ground.engine.operations, ¬dead' q → q.Ready g.storage)
    (hwrite : ∀ q ∈ t.ground.engine.operations, dead' q → q.direction = .write)
    (hplace : ∀ q ∈ t.ground.engine.operations, ¬dead' q → ∀ b,
      q.InPlace b t.ground.storage → q.InPlace b g.storage)
    (hdir : g.storage.SameDirectories t.ground.storage) :
    Sound first dead' (t.moveCaller i c' g) := by
  have hplace' : ∀ n q, t.ground.engine.operation? n = some q → ¬dead' q → ∀ b,
      q.InPlace b t.ground.storage → q.InPlace b g.storage :=
    fun _ q hq hd b hb => hplace q (Engine.mem_operations hq) hd b hb
  refine h.of_step (deed_of_caller hc hmove) hops hlist halive hlocated hready hwrite hplace'
    (fun j result hj => absurd hj hmove.not_ran) fun w hw => ?_
  exact (h.workers w hw).congr (fun _ _ q => hops _ q) halive hplace' hdir

end Sound

namespace Prospect

/-- A caller's move that starts no operation and leaves the storage alone. -/
theorem callerMove (h : Prospect first t st) (hc : t.callers[i]? = some c)
    (hmove : c.Move t.blockSize t.ground c' g) (hstorage : g.storage = t.ground.storage)
    (hops : ∀ n q, g.engine.operation? n = some q → t.ground.engine.operation? n = some q)
    (hlist : g.engine.operations.Sublist t.ground.engine.operations)
    (hpending : c'.stage.pending = none ∧ (∀ q, st.buries q = false) ∨
      c'.stage.pending = st.pending)
    (hstage : c'.stage.Sound t.ground.storage) :
    Prospect first (t.moveCaller i c' g) c'.stage := by
  have hburies : ∀ q, c'.stage.buries q = st.buries q := by
    intro q
    rcases hpending with ⟨hp, hst⟩ | hp
    · rw [Stage.buries_of_pending_none hp, hst]
    · simp only [Stage.buries, hp]
  have hsound : Sound first (c'.stage.buries · = true) t := by
    simpa only [hburies] using h.sound
  refine ⟨hstorage.symm ▸ hstage, ?_, fun o hp q hq hb => ?_⟩
  · refine hsound.callerMove hc hmove hops hlist (fun _ _ hd => hd) ?_ ?_ hsound.write ?_ ?_
    · exact hstorage.symm ▸ hsound.located
    · exact hstorage.symm ▸ hsound.ready
    · exact fun _ _ _ _ hb => hstorage.symm ▸ hb
    · exact hstorage.symm ▸ .refl _
  · have hp : c'.stage.pending = some o := hp
    rcases hpending with ⟨hnone, -⟩ | hsome
    · rw [hnone] at hp
      cases hp
    · exact h.within o (hsome ▸ hp) q (hlist.mem hq) (hburies q ▸ hb)

/-! ### Taking up an order -/

/-- With nothing buried, what is under way keeps the layout. -/
theorem sameLayout_ahead (h : Prospect first t st) (hst : ∀ q, st.buries q = false) :
    t.ahead.SameLayout t.ground.storage :=
  carryAll_sameLayout fun q hq => h.sound.ready q hq (by simp [hst])

theorem sameLayout_free (h : Prospect first t .free) : t.ahead.SameLayout t.ground.storage :=
  h.sameLayout_ahead (Stage.buries_of_pending_none rfl)

section Located

variable {order : Order} {es : List Errand} {as : List (Except TransferError Nat)}
  {o : Operation} {s : Storage}

/-- An order is refused now if it is refused after all that is under way. -/
theorem refused (h : Prospect first t .free) (hb : 0 < t.blockSize)
    (hm : t.ground.storage.memory.Holds order.buffer) {e : TransferError}
    (hl : locate order t.blockSize t.ground.storage = .error e) :
    order.perform t.blockSize t.ahead = (.error e, t.ahead) := by
  have hlayout := h.sameLayout_free
  rw [perform_eq hb ((hlayout.holds _).mpr hm), locate_error_congr hlayout.symm hl]

variable (h : Prospect first t .free) (hb : 0 < t.blockSize)
  (hm : t.ground.storage.memory.Holds order.buffer)
  (hl : locate order t.blockSize t.ground.storage = .ok (o, s))
  (hyield : ∀ q ∈ t.ground.engine.operations, o.direction = .write → q.handle = o.handle →
    q.direction = .write ∧ q.buffer.len ≤ o.buffer.len)

include h hb hm hl hyield

theorem located (hc : t.callers[i]? = some ⟨.transfer order :: es, .free, as⟩) :
    Prospect first (t.moveCaller i ⟨es, .located o, as⟩ (t.ground.store s)) (.located o) := by
  have hs := locate_spec hb hm hl
  have hburies : ∀ q, (Stage.located o).buries q = true ↔
      o.direction = .write ∧ q.handle = o.handle := fun q => Stage.buries_iff rfl
  have hfree : ∀ {q}, ¬(Stage.free.buries q = true) := by simp [Stage.buries, Stage.pending]
  have hne : ∀ {q}, ¬(Stage.located o).buries q = true → o.direction = .write →
      q.handle.at_ ≠ o.handle.at_ := fun hq hd hat =>
    hq ((hburies _).mpr ⟨hd, congrArg FileSystem.Handle.mk hat⟩)
  refine ⟨hs.located, ?_, fun p hp q hq hbur => ?_⟩
  · refine h.sound.callerMove hc (.located hl) (fun _ _ hq => hq) (.refl _) (fun _ _ _ => hfree)
      (fun q hq => ?_) (fun q hq hlive => ?_) (fun q hq hbur => ?_) (fun q hq hlive b hin => ?_)
      hs.sameDirectories
    · show q.Located s
      cases hd : o.direction with
      | read => exact (hs.read hd).symm ▸ h.sound.located q hq
      | write =>
        obtain ⟨data, hk⟩ := hs.located.file hd
        rw [hs.write hd]
        exact (h.sound.located q hq).putFile hk.ne_nil (hs.before hd) []
    · show q.Ready s
      have hr := h.sound.ready q hq hfree
      cases hd : o.direction with
      | read => exact (hs.read hd).symm ▸ hr
      | write =>
        obtain ⟨data, hk⟩ := hs.located.file hd
        rw [hs.write hd]
        exact hr.putFile (hne hlive hd) hk.ne_nil (hs.before hd) []
    · obtain ⟨hd, hh⟩ := (hburies q).mp hbur
      exact (hyield q hq hd hh).1
    · show q.InPlace b s
      cases hd : o.direction with
      | read => exact (hs.read hd).symm ▸ hin
      | write =>
        rw [hs.write hd]
        exact hin.putFile (h.sound.located q hq).grounded (hne hlive hd) []
  · cases hp
    obtain ⟨hd, hh⟩ := (hburies q).mp hbur
    exact (hyield q hq hd hh).2

/-- The order in hand is carried out after all that is under way. -/
theorem outlook_located {u : Traffic} (hu : u.ground = t.ground.store s) :
    ([(order.perform t.blockSize t.ahead).1], (order.perform t.blockSize t.ahead).2) =
      u.outlook (.located o) := by
  have hlayout := h.sameLayout_free
  have hm' := (hlayout.holds _).mpr hm
  obtain ⟨x, hx⟩ := locate_ok_congr hlayout.symm hl
  have hs := locate_spec hb hm hl
  have hs' := locate_spec hb hm' hx
  have hview : x = (Stage.located o).view t.ground.engine.operations s := by
    cases hd : o.direction with
    | read =>
      rw [hs.read hd, hs'.read hd, Stage.view, Stage.live_of_read rfl hd]
      rfl
    | write =>
      rw [hs.write hd, hs'.write hd, Stage.view, Stage.live_of_write rfl hd]
      exact carryAll_bury (fun q hq => (h.sound.located q hq).grounded)
        (fun q hq hh => (hyield q hq hd hh).1) []
  rw [perform_eq hb hm', hx, outlook, hu]
  subst hview
  rfl

end Located

/-! ### Looking at the length, or giving it -/

section Fit

variable {o : Operation} {es : List Errand} {as : List (Except TransferError Nat)}
  (h : Prospect first t (.located o))

include h

theorem misfit {e : TransferError} (hf : o.fit t.ground.storage = .error e) :
    t.outlook (.located o) = ([.error e], t.ahead) := by
  have hd := read_of_fit_error hf
  have hst : ∀ q, (Stage.located o).buries q = false := fun q => by
    simp [Stage.buries, Stage.pending, hd]
  have hf' := (fit_congr (h.sameLayout_ahead hst).symm e).mp hf
  have hview : (Stage.located o).view t.ground.engine.operations t.ground.storage = t.ahead := by
    rw [Stage.view, Stage.live_of_read rfl hd, ahead]
  simp only [outlook, hview, Stage.opening, Stage.finish, hf', Except.map]

variable {s : Storage} (hf : o.fit t.ground.storage = .ok s)

include hf

theorem fitted (hc : t.callers[i]? = some ⟨es, .located o, as⟩) :
    Prospect first (t.moveCaller i ⟨es, .opened o, as⟩ (t.ground.store s)) (.opened o) := by
  have hl : o.Located t.ground.storage := h.stage
  have hsort : o.direction = .write → o.handle.at_ ≠ [] ∧
      ∀ e, t.ground.storage.files.entryAt? o.handle.at_ = some e → e.sort = .file [] := by
    intro hd
    obtain ⟨data, hk⟩ := hl.file hd
    refine ⟨hk.ne_nil, fun e he => ?_⟩
    rw [hk.entry] at he
    cases he
    rfl
  have hne : ∀ {q}, ¬(Stage.opened o).buries q = true → o.direction = .write →
      q.handle.at_ ≠ o.handle.at_ := fun hq hd hat =>
    hq ((Stage.buries_iff rfl).mpr ⟨hd, congrArg FileSystem.Handle.mk hat⟩)
  refine ⟨ready_of_fit hl hf, ?_, h.within⟩
  refine h.sound.callerMove hc (.fitted hf) (fun _ _ hq => hq) (.refl _) (fun _ _ hd => hd)
    (fun q hq => ?_) (fun q hq hlive => ?_) h.sound.write (fun q hq hlive b hin => ?_)
    (fit_sameDirectories hl hf)
  · show q.Located s
    cases hd : o.direction with
    | read => exact (eq_of_fit_read hd hf).symm ▸ h.sound.located q hq
    | write =>
      rw [fit_write hd] at hf
      cases hf
      exact (h.sound.located q hq).putFile (hsort hd).1 (hsort hd).2 _
  · show q.Ready s
    cases hd : o.direction with
    | read => exact (eq_of_fit_read hd hf).symm ▸ h.sound.ready q hq hlive
    | write =>
      rw [fit_write hd] at hf
      cases hf
      exact (h.sound.ready q hq hlive).putFile (hne hlive hd) (hsort hd).1 (hsort hd).2 _
  · show q.InPlace b s
    cases hd : o.direction with
    | read => exact (eq_of_fit_read hd hf).symm ▸ hin
    | write =>
      rw [fit_write hd] at hf
      cases hf
      exact hin.putFile (h.sound.located q hq).grounded (hne hlive hd) _

/-- Nothing is seen of the length that a write gives its file. -/
theorem outlook_fitted {u : Traffic} (hu : u.ground = t.ground.store s)
    (h' : Prospect first u (.opened o)) :
    t.outlook (.located o) = u.outlook (.opened o) := by
  have hl : o.Located t.ground.storage := h.stage
  have hview := h.stage.view h.ready_of_live
  cases hd : o.direction with
  | read =>
    obtain rfl := eq_of_fit_read hd hf
    have hst : ∀ q, (Stage.located o).buries q = false := fun q => by
      simp [Stage.buries, Stage.pending, hd]
    have hahead : (Stage.located o).view t.ground.engine.operations t.ground.storage = t.ahead := by
      rw [Stage.view, Stage.live_of_read rfl hd, ahead]
    have hahead' : (Stage.opened o).view t.ground.engine.operations t.ground.storage = t.ahead := by
      rw [Stage.view, Stage.live_of_read rfl hd, ahead]
    have hfit : o.fit t.ahead = .ok t.ahead := by
      cases hx : o.fit t.ahead with
      | error e =>
        rw [(fit_congr (h.sameLayout_ahead hst) e).mp hx] at hf
        cases hf
      | ok x => rw [eq_of_fit_read hd hx]
    simp only [outlook, hu, Ground.store, hahead, hahead', Stage.opening, Stage.finish, hfit,
      Except.map]
  | write =>
    have hview' := h'.stage.view h'.ready_of_live
    rw [fit_write hd] at hf
    cases hf
    have hgrounded : ∀ p ∈ (Stage.opened o).live t.ground.engine.operations,
        p.Grounded t.ground.storage := fun p hp => (h.ready_of_live p hp).grounded
    have hne : ∀ p ∈ (Stage.opened o).live t.ground.engine.operations,
        p.handle.at_ ≠ o.handle.at_ := fun p hp hat => (Stage.mem_live.mp hp).2
      ((Stage.buries_iff rfl).mpr ⟨hd, congrArg FileSystem.Handle.mk hat⟩)
    have hswap : ∀ data, (Stage.opened o).view t.ground.engine.operations
        (t.ground.storage.putFile o.handle.at_ data) =
          ((Stage.located o).view t.ground.engine.operations t.ground.storage).putFile
            o.handle.at_ data := carryAll_putFile hgrounded hne
    simp only [hu, Ground.store, hswap] at hview'
    simp only [outlook, hu, Ground.store, hswap]
    rw [Stage.finish_of_write rfl hd hview, Stage.finish_of_write rfl hd hview',
      Stage.opening_of_write rfl hd, Stage.opening_of_write rfl hd, Storage.putFile_putFile,
      Storage.memory_putFile]

end Fit

/-! ### Starting -/

section Launch

variable {o : Operation} {es : List Errand} {as : List (Except TransferError Nat)}
  (hap : ∀ q ∈ t.ground.engine.operations, q.Apart o)

include hap

theorem launched (h : Prospect first t (.admitted o)) (hrec : Recorded first schedule t)
    (hsame : t.ground.engine.SameSettings first.ground.engine) (ho : o.blockSize = first.blockSize)
    (hc : t.callers[i]? = some ⟨es, .admitted o, as⟩) {st' : Stage}
    (hst : st' = .launched t.ground.engine.nextFlight o.buffer.len (t.ground.engine.plan o)) :
    Prospect first (t.moveCaller i ⟨es, st', as⟩ (t.ground.launch o)) st' := by
  have hready : o.Ready t.ground.storage := h.stage
  have hk := hrec.balanced.flight?_nextFlight
  have hops : (t.ground.launch o).engine.operations = t.ground.engine.operations ++ [o] :=
    Engine.operations_launch _ _ _
  have hnot : ∀ {q}, q ∈ t.ground.engine.operations → ¬(Stage.admitted o).buries q = true :=
    fun hq => Stage.not_buries_of_apart rfl (hap _ hq)
  have hlive : ∀ q ∈ t.ground.engine.operations, q.Ready t.ground.storage := fun q hq =>
    h.sound.ready q hq (hnot hq)
  have hwait : ((t.moveCaller i ⟨es, st', as⟩ (t.ground.launch o)).waiting).Perm
      ((t.ground.engine.plan o).map (⟨t.ground.engine.nextFlight, ·⟩) ++ t.waiting) := by
    rw [← Stage.undealt_launched _ o.buffer.len, ← hst]
    exact waiting_moveCaller hc ⟨es, st', as⟩ rfl
  have hpending : st'.pending = none := hst ▸ Stage.pending_launched _ _ _
  have hnone : ∀ q, ¬st'.buries q = true := fun q => by
    simp [Stage.buries_of_pending_none hpending q]
  have hmem : ∀ {P : Operation → Prop}, (∀ q ∈ t.ground.engine.operations, P q) → P o →
      ∀ q ∈ (t.ground.launch o).engine.operations, P q := by
    intro P hold hnew q hq
    rw [hops] at hq
    rcases List.mem_append.mp hq with hq | hq
    · exact hold q hq
    · rw [List.mem_singleton.mp hq]
      exact hnew
  have hold : ∀ n q, n ≠ t.ground.engine.nextFlight →
      (t.ground.launch o).engine.operation? n = some q →
      t.ground.engine.operation? n = some q := by
    intro n q hn hq
    have hq : (t.ground.engine.launch o _).2.operation? n = some q := hq
    rwa [Engine.operation?_launch _ _ _ _ hk, if_neg hn] at hq
  refine
    { stage := Stage.sound_of_pending_none hpending _
      sound :=
        { apart := ?apart
          blockSize := hmem h.sound.blockSize ho
          located := hmem h.sound.located hready.toLocated
          ready := hmem (fun q hq _ => hlive q hq) fun _ => hready
          write := fun q _ hbur => absurd hbur (hnone q)
          tracked := fun n q hq _ r hr => ?tracked
          workers := fun w hw => ?workers }
      within := fun p hp => ?within }
  case apart =>
    show (t.ground.launch o).engine.operations.Pairwise Operation.Apart
    rw [hops]
    refine List.pairwise_append.mpr
      ⟨h.sound.apart, List.pairwise_singleton _ _, fun q hq p hp => ?_⟩
    rw [List.mem_singleton.mp hp]
    exact hap q hq
  case tracked =>
    by_cases hn : n = t.ground.engine.nextFlight
    · have hq : (t.ground.engine.launch o _).2.operation? n = some q := hq
      rw [Engine.operation?_launch _ _ _ _ hk, if_pos hn] at hq
      cases hq
      rw [← hsame.plan] at hr
      refine .inl (hwait.mem_iff.mpr (List.mem_append_left _ (List.mem_map.mpr ⟨r, hr, ?_⟩)))
      rw [hn]
    · have hq := hold n q hn hq
      have hlive := hnot (Engine.mem_operations hq)
      rcases h.sound.tracked n q hq hlive r hr with hjob | hplace
      · exact .inl (hwait.mem_iff.mpr (List.mem_append_right _ hjob))
      · exact .inr hplace
  case workers =>
    -- what a worker holds was on its way before, so it is not of the new operation
    refine (h.sound.workers w hw).congr (fun j hj q hq => ?_) (fun q hq _ => hnot hq)
      (fun _ _ _ _ _ hb => hb) (.refl _)
    exact hold j.flight q (hrec.balanced.flight_ne_nextFlight (mem_waiting_of_held hw hj)) hq
  case within =>
    rw [hpending] at hp
    cases hp

/-- Once it has started, the operation in hand is the last of those under way. -/
theorem outlook_launched {u : Traffic} (hu : u.ground = t.ground.launch o) :
    t.outlook (.admitted o) = ([.ok o], u.ahead) := by
  have hlive : (Stage.admitted o).live t.ground.engine.operations = t.ground.engine.operations :=
    List.filter_eq_self.mpr fun q hq => by
      have hnot : ¬(Stage.admitted o).buries q = true := Stage.not_buries_of_apart rfl (hap q hq)
      simpa using hnot
  have hops : (t.ground.launch o).engine.operations = t.ground.engine.operations ++ [o] :=
    Engine.operations_launch _ _ _
  simp only [outlook, Stage.view, hlive, ahead, hu, hops, carryAll_append]
  rfl

end Launch

end Prospect

end Traffic
end BlockTransfer
