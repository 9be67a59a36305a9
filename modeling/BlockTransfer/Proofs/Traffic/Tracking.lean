import BlockTransfer.Proofs.Operation.Several
import BlockTransfer.Proofs.Traffic.ExactlyOnce
/-!
# Which bytes the workers have moved

While operations that are apart are under way, every range of every operation
either belongs to a job that has not ended or is in place (`Traffic.Sound`). So
when all jobs of an operation have ended its whole range is in place, in
whatever order the workers took the blocks of all the jobs.

An operation may be dead: its file was given up to a later write before it
ended. Of dead operations only so much is kept track of as shows that they
touch nothing but that file.

Key definitions: `Traffic.Setting`, `Traffic.Sound`.
Key theorems: `Traffic.tiles_plan`, `Traffic.Sound.workerMove`,
`Traffic.Sound.inPlace_whole`.
-/

namespace BlockTransfer
namespace Traffic

/-- Block sizes are words, none of them zero, and there are workers. -/
structure Setting (first : Traffic) : Prop where
  blockSize_pos : 0 < first.blockSize
  blockSize_lt : first.blockSize < Word.count
  workers : 0 < first.ground.engine.workerCount

variable {first t t' : Traffic} {schedule : List Event}

/-! ### Plans -/

/-- The jobs of a located operation tile its buffer. -/
theorem tiles_plan (hs : Setting first) {q : Operation} {s : Storage} (hl : q.Located s)
    (hq : q.blockSize = first.blockSize) :
    ByteRange.Tiles 0 q.buffer.len (first.ground.engine.plan q) :=
  Plan.tiles_jobs _ hl.blockSize (hq ▸ hs.blockSize_lt) hl.holds.bound hs.workers

/-- An operation has no jobs if it has no bytes. -/
theorem plan_eq_nil_iff (hs : Setting first) {q : Operation} {s : Storage} (hl : q.Located s)
    (hq : q.blockSize = first.blockSize) :
    first.ground.engine.plan q = [] ↔ q.buffer.len = 0 := by
  have htiles := tiles_plan hs hl hq
  constructor
  · intro hnil
    rw [hnil] at htiles
    exact htiles.symm
  · intro hlen
    by_contra hne
    obtain ⟨r, hr⟩ := List.exists_mem_of_ne_nil _ hne
    have := htiles.mem r hr
    omega

/-- The range of a job on its way is one that its operation planned. -/
theorem range_mem_plan (h : Recorded first schedule t) {j : Job} {q : Operation}
    (hj : j ∈ t.waiting) (hq : t.ground.engine.operation? j.flight = some q) :
    j.range ∈ first.ground.engine.plan q := by
  obtain ⟨f, hf, rfl⟩ := Engine.flight?_of_operation? hq
  obtain ⟨ranges, hstarted⟩ := h.balanced.operation _ _ hf
  have hplanned := h.balanced.jobs.mem_iff.mpr (List.mem_append_left _ hj)
  obtain ⟨x, hx, hjx⟩ := List.mem_flatMap.mp hplanned
  cases x with
  | started n o rs =>
    obtain ⟨r, hr, rfl⟩ := List.mem_map.mp hjx
    obtain ⟨rfl, -⟩ := started_unique h.balanced.nodup hx hstarted
    rw [← h.plan _ _ _ hx]
    exact hr
  | ran k result => cases hjx
  | reported n result => cases hjx
  | drained answer => cases hjx

/-! ### What is kept track of -/

/-- What is known of the job in a worker's hands: the blocks moved so far are in
place, and whether one can be moved at all is the operation's verdict. -/
def Worker.Sound (dead : Operation → Prop) (g : Ground) : Worker → Prop
  | .moving j blocks => ∀ q, g.engine.operation? j.flight = some q →
      ∃ moved, q.blocks j.range = moved ++ blocks ∧
        (moved ≠ [] → q.verdict g.storage = .ok ()) ∧
        (¬dead q → ∀ b ∈ moved, q.InPlace b g.storage)
  | .failed j e => ∀ q, g.engine.operation? j.flight = some q → q.verdict g.storage = .error e
  | _ => True

/-- Operations under way are apart and have their files; those that are not dead
have every range in place that no job is left for. -/
structure Sound (first : Traffic) (dead : Operation → Prop) (t : Traffic) : Prop where
  apart : t.ground.engine.operations.Pairwise Operation.Apart
  blockSize : ∀ q ∈ t.ground.engine.operations, q.blockSize = first.blockSize
  located : ∀ q ∈ t.ground.engine.operations, q.Located t.ground.storage
  ready : ∀ q ∈ t.ground.engine.operations, ¬dead q → q.Ready t.ground.storage
  write : ∀ q ∈ t.ground.engine.operations, dead q → q.direction = .write
  tracked : ∀ n q, t.ground.engine.operation? n = some q → ¬dead q →
    ∀ r ∈ first.ground.engine.plan q, ⟨n, r⟩ ∈ t.waiting ∨ q.InPlace r t.ground.storage
  workers : ∀ w ∈ t.workers, w.Sound dead t.ground

variable {dead : Operation → Prop}

namespace Sound

/-- All of an operation is in place once its jobs have ended. -/
theorem inPlace_whole (h : Sound first dead t) (hs : Setting first) {n : Nat} {q : Operation}
    (hn : ∀ j ∈ t.waiting, j.flight ≠ n) (hq : t.ground.engine.operation? n = some q)
    (hdead : ¬dead q) : q.InPlace q.whole t.ground.storage := by
  have hmem := Engine.mem_operations hq
  have hl := h.located q hmem
  refine Operation.inPlace_of_tiles hl.grounded (tiles_plan hs hl (h.blockSize q hmem))
    fun r hr => ?_
  rcases h.tracked n q hq hdead r hr with hwait | hplace
  · exact absurd rfl (hn _ hwait)
  · exact hplace

section Block

variable {n : Nat} {q : Operation} {r : ByteRange} (h : Sound first dead t)
  (hq : t.ground.engine.operation? n = some q) (hr : r.stop ≤ q.buffer.len)

include h hq

theorem inPlace_carry {m : Nat} {p : Operation} (hp : t.ground.engine.operation? m = some p)
    {b : ByteRange} (hb : p.InPlace b t.ground.storage) :
    p.InPlace b (q.carry r t.ground.storage) := by
  have hg := (h.located p (Engine.mem_operations hp)).grounded
  by_cases hmn : m = n
  · subst hmn
    rw [hq] at hp
    cases hp
    exact hb.carry hg r
  · exact hb.carry_of_apart (Engine.apart_of_ne h.apart hp hq hmn) hg r

include hr

theorem located_carry {p : Operation} (hp : p.Located t.ground.storage) :
    p.Located (q.carry r t.ground.storage) :=
  hp.carry (h.located q (Engine.mem_operations hq)) r hr

theorem ready_carry (hb : Balanced t) {p : Operation} (hp : p ∈ t.ground.engine.operations)
    (hdead : ¬dead p) : p.Ready (q.carry r t.ground.storage) := by
  obtain ⟨m, hm⟩ := Engine.exists_operation? hb.nodup_numbers hp
  have hready := h.ready p hp hdead
  by_cases hmn : m = n
  · subst hmn
    rw [hq] at hm
    cases hm
    exact hready.carry hready hr
  · refine hready.carry_of_le (h.located q (Engine.mem_operations hq)) hr fun hd hat => ?_
    exact absurd hat.symm ((Engine.apart_of_ne h.apart hq hm (Ne.symm hmn)).at_ne hd)

end Block

/-- Nothing is lost if no operation comes to life or begins, the bytes in place
stay in place, and a job that ends has its range in place. -/
theorem of_step {dead' : Operation → Prop} (h : Sound first dead t) (hd : Deed t t')
    (hops : ∀ n q, t'.ground.engine.operation? n = some q →
      t.ground.engine.operation? n = some q)
    (hlist : t'.ground.engine.operations.Sublist t.ground.engine.operations)
    (halive : ∀ q ∈ t.ground.engine.operations, ¬dead' q → ¬dead q)
    (hlocated : ∀ q ∈ t.ground.engine.operations, q.Located t'.ground.storage)
    (hready : ∀ q ∈ t.ground.engine.operations, ¬dead' q → q.Ready t'.ground.storage)
    (hwrite : ∀ q ∈ t.ground.engine.operations, dead' q → q.direction = .write)
    (hplace : ∀ n q, t.ground.engine.operation? n = some q → ¬dead' q → ∀ b,
      q.InPlace b t.ground.storage → q.InPlace b t'.ground.storage)
    (hran : ∀ j result, t'.ground.journal = t.ground.journal ++ [.ran j result] →
      ∀ q, t.ground.engine.operation? j.flight = some q → ¬dead' q →
        q.InPlace j.range t'.ground.storage)
    (hworkers : ∀ w ∈ t'.workers, w.Sound dead' t'.ground) : Sound first dead' t' := by
  refine ⟨h.apart.sublist hlist, fun q hq => h.blockSize q (hlist.mem hq),
    fun q hq => hlocated q (hlist.mem hq), fun q hq => hready q (hlist.mem hq),
    fun q hq => hwrite q (hlist.mem hq), fun n q hq hdead r hr => ?_, hworkers⟩
  have hold := hops n q hq
  rcases h.tracked n q hold (halive q (Engine.mem_operations hold) hdead) r hr with hwait | hp
  · rcases waiting_of_deed hd hwait with hwait | ⟨result, hjournal⟩
    · exact .inl hwait
    · exact .inr (hran _ result hjournal q hold hdead)
  · exact .inr (hplace n q hold hdead r hp)

/-- The workers other than the one that moves. -/
theorem workers_set {i : Nat} {w' : Worker} {g : Ground}
    (hothers : ∀ w ∈ t.workers, w.Sound dead g) (hw' : w'.Sound dead g) :
    ∀ w ∈ t.workers.set i w', w.Sound dead g := by
  intro w hw
  rcases List.mem_or_eq_of_mem_set hw with hw | rfl
  · exact hothers w hw
  · exact hw'

end Sound

/-- A worker's knowledge stays good while the operation of its job neither comes to
life nor begins and what is in place stays so. -/
theorem Worker.Sound.congr {dead' : Operation → Prop} {w : Worker} {g g' : Ground}
    (h : w.Sound dead g) (hops : ∀ j ∈ w.held, ∀ q,
      g'.engine.operation? j.flight = some q → g.engine.operation? j.flight = some q)
    (halive : ∀ q ∈ g.engine.operations, ¬dead' q → ¬dead q)
    (hplace : ∀ n q, g.engine.operation? n = some q → ¬dead' q → ∀ b,
      q.InPlace b g.storage → q.InPlace b g'.storage)
    (hdir : g'.storage.SameDirectories g.storage) : w.Sound dead' g' := by
  cases w with
  | moving j blocks =>
    intro q hq
    have hold := hops j (List.mem_singleton_self j) q hq
    obtain ⟨moved, hblocks, hv, hin⟩ := h q hold
    refine ⟨moved, hblocks, fun hne => ?_, fun hdead b hb => hplace _ _ hold hdead b ?_⟩
    · rw [Operation.verdict_of_sameDirectories hdir, hv hne]
    · exact hin (halive q (Engine.mem_operations hold) hdead) b hb
  | failed j e =>
    intro q hq
    rw [Operation.verdict_of_sameDirectories hdir]
    exact h q (hops j (List.mem_singleton_self j) q hq)
  | _ => trivial

/-! ### The moves of workers -/

/-- What a worker's move comes to: nothing, or a block is carried, or the end of
an operation is reported. -/
inductive Effect (t : Traffic) (g : Ground) : Prop where
  | none (storage : g.storage = t.ground.storage)
      (operations : g.engine.operations = t.ground.engine.operations)
  | block {j : Job} {q : Operation} {r : ByteRange} (hj : j ∈ t.workers.flatMap Worker.held)
      (hq : t.ground.engine.operation? j.flight = some q) (hr : r.start < r.stop)
      (hstop : r.stop ≤ j.range.stop) (hn : r.stop ≤ q.buffer.len)
      (storage : g.storage = q.carry r t.ground.storage)
      (operations : g.engine.operations = t.ground.engine.operations)
  | reported (n : Nat) (result : Except TransferError Unit) (closing : n ∈ t.closing)
      (ground : g = t.ground.report n result)

/-- A worker starts no operation. -/
theorem Worker.Move.operation? {i : Nat} {w w' : Worker} {g g' : Ground} (h : w.Move i g w' g')
    (n : Nat) (q : Operation) (hq : g'.engine.operation? n = some q) :
    g.engine.operation? n = some q := by
  cases h with
  | taken htake =>
    have hsame := Engine.operation?_congr (take?_same htake).1 n
    exact hsame ▸ hq
  | @failed j e => exact Engine.operation?_note g.engine j.flight n e ▸ hq
  | @retired m => exact Engine.operation?_retire g.engine m n ▸ hq
  | @reported m result =>
    have hq : (g.engine.report m result).operation? n = some q := hq
    rw [Engine.operation?_report] at hq
    split at hq
    · cases hq
    · exact hq
  | _ => exact hq

namespace Sound

/-- A step that leaves the storage and the operations alone. -/
theorem of_same {i : Nat} {w w' : Worker} {g : Ground} (h : Sound first dead t)
    (hw : t.workers[i]? = some w) (hmove : w.Move i t.ground w' g)
    (hstorage : g.storage = t.ground.storage)
    (hlist : g.engine.operations.Sublist t.ground.engine.operations)
    (hran : ∀ j result, g.journal = t.ground.journal ++ [.ran j result] →
      ∀ q, t.ground.engine.operation? j.flight = some q → ¬dead q →
        q.InPlace j.range t.ground.storage)
    (hw' : w'.Sound dead g) : Sound first dead (t.moveWorker i w' g) := by
  have hplace : ∀ n q, t.ground.engine.operation? n = some q → ¬dead q → ∀ b,
      q.InPlace b t.ground.storage → q.InPlace b g.storage := fun _ _ _ _ _ hb => hstorage ▸ hb
  have hdir : g.storage.SameDirectories t.ground.storage := hstorage ▸ .refl _
  have hops := hmove.operation?
  refine h.of_step (deed_of_worker hw hmove) hops hlist (fun _ _ hdead => hdead)
    (fun q hq => ?_) (fun q hq hdead => ?_) h.write hplace (fun j result hj q hq hdead => ?_)
    (workers_set (fun v hv => ?_) hw')
  · exact hstorage.symm ▸ h.located q hq
  · exact hstorage.symm ▸ h.ready q hq hdead
  · exact hstorage.symm ▸ hran j result hj q hq hdead
  · exact (h.workers v hv).congr (fun _ _ q => hops _ q) (fun _ _ hdead => hdead) hplace hdir

section Worker

variable {i : Nat} {w w' : Worker} {g : Ground} (h : Sound first dead t) (hs : Setting first)
  (hrec : Recorded first schedule t) (hw : t.workers[i]? = some w)

include h hs hrec hw

/-- The range in a worker's hands lies inside the buffer. -/
theorem range_of_held {j : Job} {q : Operation} (hj : j ∈ w.held)
    (hq : t.ground.engine.operation? j.flight = some q) :
    j.range.start < j.range.stop ∧ j.range.stop ≤ q.buffer.len := by
  have hwait := mem_waiting_of_held (List.mem_of_getElem? hw) hj
  have hmem := Engine.mem_operations hq
  have htiles := tiles_plan hs (h.located q hmem) (h.blockSize q hmem)
  obtain ⟨-, hlt, hle⟩ := htiles.mem _ (range_mem_plan hrec hwait hq)
  exact ⟨hlt, hle⟩

/-- So do the blocks that are left of it. -/
theorem block_of_moving {j : Job} {block : ByteRange} {blocks : List ByteRange} {q : Operation}
    (hj : w = .moving j (block :: blocks)) (hq : t.ground.engine.operation? j.flight = some q) :
    block.start < block.stop ∧ block.stop ≤ j.range.stop ∧ block.stop ≤ q.buffer.len := by
  subst hj
  obtain ⟨hlt, hle⟩ := h.range_of_held hs hrec hw (List.mem_singleton_self j) hq
  obtain ⟨moved, hblocks, -, -⟩ := h.workers _ (List.mem_of_getElem? hw) q hq
  have htiles := ByteRange.tiles_blocks j.range (h.located q (Engine.mem_operations hq)).blockSize
    (Nat.le_of_lt hlt)
  have hmem : block ∈ q.blocks j.range := by
    rw [hblocks]
    exact List.mem_append_right _ List.mem_cons_self
  obtain ⟨-, hlt', hle'⟩ := htiles.mem _ hmem
  exact ⟨hlt', hle', Nat.le_trans hle' hle⟩

/-- A block moved by a worker is carried, whether or not that fails. -/
theorem moveBlock_eq {j : Job} {block : ByteRange} {blocks : List ByteRange} {q : Operation}
    (hj : w = .moving j (block :: blocks)) (hq : t.ground.engine.operation? j.flight = some q) :
    q.moveBlock j.range.stop block t.ground.storage =
      (q.verdict t.ground.storage, q.carry block t.ground.storage) := by
  obtain ⟨hlt, -, hle⟩ := h.block_of_moving hs hrec hw hj hq
  have hmem := Engine.mem_operations hq
  by_cases hdead : dead q
  · have hd := h.write q hmem hdead
    rw [Operation.moveBlock_write hd, Operation.verdict_of_write hd]
  · exact Operation.moveBlock_eq (h.ready q hmem hdead) _ hlt hle

theorem effect_of_workerMove (hmove : w.Move i t.ground w' g) : Effect t g := by
  have hblock : ∀ {j : Job} {block : ByteRange} {blocks : List ByteRange} {f : Flight}
      {v : Except TransferError Unit} {s : Storage}, w = .moving j (block :: blocks) →
      t.ground.engine.flight? j.flight = some f →
      f.operation.moveBlock j.range.stop block t.ground.storage = (v, s) →
      Effect t (t.ground.store s) := by
    intro j block blocks f v s hj hf hmv
    have hq := Engine.operation?_of_flight? hf
    obtain ⟨hlt, hstop, hle⟩ := h.block_of_moving hs hrec hw hj hq
    rw [h.moveBlock_eq hs hrec hw hj hq, Prod.mk.injEq] at hmv
    refine .block (List.mem_flatMap.mpr ⟨w, List.mem_of_getElem? hw, ?_⟩) hq hlt hstop hle
      hmv.2.symm rfl
    rw [hj]
    exact List.mem_singleton_self j
  cases hmove with
  | @taken _ j engine f htake hf =>
    exact .none rfl (Engine.operations_congr (take?_same htake).1)
  | moved hf hmv => exact hblock rfl hf hmv
  | stumbled hf hmv => exact hblock rfl hf hmv
  | failed => exact .none rfl (Engine.operations_note _ _ _ hrec.balanced.nodup_numbers)
  | retired => exact .none rfl (Engine.operations_retire _ _ hrec.balanced.nodup_numbers)
  | @reported n result =>
    have hclosing := mem_closing_of_worker (List.mem_of_getElem? hw) (List.mem_singleton_self n)
    exact .reported n result hclosing rfl
  | _ => exact .none rfl rfl

/-- A range is in place once a worker has moved all its blocks. -/
theorem inPlace_of_moving {j : Job} {q : Operation} (hj : w = .moving j [])
    (hq : t.ground.engine.operation? j.flight = some q) (hdead : ¬dead q) :
    q.InPlace j.range t.ground.storage := by
  subst hj
  obtain ⟨hlt, -⟩ := h.range_of_held hs hrec hw (List.mem_singleton_self j) hq
  obtain ⟨moved, hblocks, -, hin⟩ := h.workers _ (List.mem_of_getElem? hw) q hq
  have hl := h.located q (Engine.mem_operations hq)
  rw [List.append_nil] at hblocks
  refine Operation.inPlace_of_tiles hl.grounded
    (ByteRange.tiles_blocks j.range hl.blockSize (Nat.le_of_lt hlt)) fun b hb => ?_
  exact hin hdead b (hblocks ▸ hb)

/-- A block that is moved is in place, and so is whatever was. -/
theorem moved {j : Job} {block : ByteRange} {blocks : List ByteRange} {f : Flight} {s : Storage}
    (hj : w = .moving j (block :: blocks)) (hf : t.ground.engine.flight? j.flight = some f)
    (hmv : f.operation.moveBlock j.range.stop block t.ground.storage = (.ok (), s)) :
    Sound first dead (t.moveWorker i (.moving j blocks) (t.ground.store s)) := by
  subst hj
  have hq := Engine.operation?_of_flight? hf
  obtain ⟨-, -, hle⟩ := h.block_of_moving hs hrec hw rfl hq
  have hdeed := deed_of_worker hw (.moved hf hmv)
  rw [h.moveBlock_eq hs hrec hw rfl hq, Prod.mk.injEq] at hmv
  obtain ⟨hv, rfl⟩ := hmv
  have hmem := Engine.mem_operations hq
  have hplace : ∀ n p, t.ground.engine.operation? n = some p → ¬dead p → ∀ b,
      p.InPlace b t.ground.storage → p.InPlace b (f.operation.carry block t.ground.storage) :=
    fun _ _ hp _ _ hb => h.inPlace_carry hq hp hb
  have hdir := Operation.carry_sameDirectories (h.located _ hmem).grounded block
  refine h.of_step hdeed (fun _ _ hq => hq) (.refl _) (fun _ _ hdead => hdead)
    (fun p hp => h.located_carry hq hle (h.located p hp))
    (fun p hp => h.ready_carry hq hle hrec.balanced hp) h.write hplace ?_ (workers_set ?_ ?_)
  · intro k result hk
    have hk : t.ground.journal = t.ground.journal ++ [.ran k result] := hk
    simp at hk
  · exact fun v hv =>
      (h.workers v hv).congr (fun _ _ _ hq => hq) (fun _ _ hdead => hdead) hplace hdir
  · intro p hp
    have hp : t.ground.engine.operation? j.flight = some p := hp
    rw [hq] at hp
    cases hp
    obtain ⟨before, hblocks, -, hin⟩ := h.workers _ (List.mem_of_getElem? hw) _ hq
    refine ⟨before ++ [block], by rw [hblocks, List.append_assoc]; rfl, fun _ => ?_,
      fun hdead b hb => ?_⟩
    · exact (Operation.verdict_of_sameDirectories hdir).trans hv
    rcases List.mem_append.mp hb with hb | hb
    · exact hplace _ _ hq hdead b (hin hdead b hb)
    · rw [List.mem_singleton.mp hb]
      exact Operation.inPlace_carry (h.located _ hmem).grounded block

/-- Workers keep track. -/
theorem workerMove (hmove : w.Move i t.ground w' g) : Sound first dead (t.moveWorker i w' g) := by
  have hnone : ∀ {x : Occurrence}, (∀ j result, x ≠ .ran j result) → ∀ j result,
      t.ground.journal ++ [x] = t.ground.journal ++ [.ran j result] →
      ∀ q, t.ground.engine.operation? j.flight = some q → ¬dead q →
        q.InPlace j.range t.ground.storage := by
    intro x hx j result hj
    exact absurd (List.singleton_inj.mp (List.append_cancel_left hj)) (hx j result)
  have hquiet : ∀ (j : Job) (result : Except TransferError Unit),
      t.ground.journal = t.ground.journal ++ [.ran j result] →
      ∀ q, t.ground.engine.operation? j.flight = some q → ¬dead q →
        q.InPlace j.range t.ground.storage := by
    intro j result hj
    simp at hj
  have hsound := h.workers w (List.mem_of_getElem? hw)
  have hmove' := hmove
  cases hmove with
  | @taken _ j engine f htake hf =>
    have hflights := (take?_same htake).1
    have hlist := Engine.operations_congr hflights
    refine h.of_same hw hmove' rfl (hlist ▸ .refl _) hquiet fun q hq => ?_
    have hq' : engine.operation? j.flight = some q := hq
    rw [Engine.operation?, hf] at hq'
    cases hq'
    exact ⟨[], rfl, fun hne => absurd rfl hne, fun _ b hb => absurd hb List.not_mem_nil⟩
  | @ran j =>
    refine h.of_same hw hmove' rfl (.refl _) ?_ trivial
    intro k result hk q hq hdead
    cases List.singleton_inj.mp (List.append_cancel_left hk)
    exact h.inPlace_of_moving hs hrec hw rfl hq hdead
  | moved hf hmv => exact h.moved hs hrec hw rfl hf hmv
  | @stumbled j block blocks _ f e s hf hmv =>
    have hq := Engine.operation?_of_flight? hf
    rw [h.moveBlock_eq hs hrec hw rfl hq, Prod.mk.injEq] at hmv
    obtain ⟨hv, rfl⟩ := hmv
    obtain ⟨hd, hdir, -⟩ := Operation.directory_of_verdict hv
    refine h.of_same hw hmove' (Operation.carry_directory hd hdir block) (.refl _) hquiet
      fun p hp => ?_
    have hp : t.ground.engine.operation? j.flight = some p := hp
    rw [hq] at hp
    cases hp
    have hsame := Operation.carry_sameDirectories
      (h.located _ (Engine.mem_operations hq)).grounded block
    exact (Operation.verdict_of_sameDirectories hsame).trans hv
  | @failed j e =>
    have hlist := Engine.operations_note t.ground.engine j.flight e hrec.balanced.nodup_numbers
    refine h.of_same hw hmove' rfl (hlist ▸ .refl _) ?_ trivial
    intro k result hk q hq hdead
    cases List.singleton_inj.mp (List.append_cancel_left hk)
    obtain ⟨hd, hdir, -⟩ := Operation.directory_of_verdict (hsound q hq)
    exact Operation.carry_directory hd hdir _
  | @retired n =>
    have hlist := Engine.operations_retire t.ground.engine n hrec.balanced.nodup_numbers
    refine h.of_same hw hmove' rfl (hlist ▸ .refl _) hquiet ?_
    split <;> trivial
  | @judged n => exact h.of_same hw hmove' rfl (.refl _) hquiet trivial
  | @reported n result =>
    exact h.of_same hw hmove' rfl (Engine.operations_report_sublist _ _ _) (hnone (by simp)) trivial

/-- A job ends as the verdict on its operation tells. -/
theorem verdict_of_ran (hmove : w.Move i t.ground w' g) {j : Job}
    {result : Except TransferError Unit} (hj : g.journal = t.ground.journal ++ [.ran j result])
    {q : Operation} (hq : t.ground.engine.operation? j.flight = some q) :
    result = q.verdict t.ground.storage := by
  have hsound := h.workers w (List.mem_of_getElem? hw)
  cases hmove with
  | ran =>
    cases List.singleton_inj.mp (List.append_cancel_left hj)
    obtain ⟨hlt, -⟩ := h.range_of_held hs hrec hw (List.mem_singleton_self j) hq
    obtain ⟨moved, hblocks, hv, -⟩ := hsound q hq
    have htiles := ByteRange.tiles_blocks j.range (h.located q (Engine.mem_operations hq)).blockSize
      (Nat.le_of_lt hlt)
    rw [List.append_nil] at hblocks
    exact (hv (hblocks ▸ htiles.ne_nil hlt)).symm
  | failed =>
    cases List.singleton_inj.mp (List.append_cancel_left hj)
    exact (hsound q hq).symm
  | reported =>
    cases List.singleton_inj.mp (List.append_cancel_left hj)
  | _ =>
    have hj : t.ground.journal = t.ground.journal ++ [.ran j result] := hj
    simp at hj

end Worker

end Sound

end Traffic
end BlockTransfer
