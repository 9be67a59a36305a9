import BlockTransfer.Proofs.Traffic.Calling
import Mathlib.Data.List.Chain
/-!
# A caller alone with the workers

One caller hands a list of orders to the workers and waits once. `Alone` says
where it stands: what opening the files of the orders behind it came to is what
it comes to when the same orders are carried out at once, one after the other,
and the outlook together with the orders before it is the storage that those
leave. Every move of the caller and of the workers keeps that, as long as every
operation yields to the next one, and all of them are apart if they may overlap
(`Traffic.Clear`). Once the wait is answered the outlook is the storage itself
(`Traffic.Settled`).

Key definitions: `Traffic.accepted`, `Traffic.Clear`, `Traffic.Alone`,
`Traffic.Settled`.
Key theorems: `Traffic.Alone.workerMove`, `Traffic.Alone.callerMove`.
-/

namespace BlockTransfer
namespace Traffic

open Operation

/-! ### Orders that are not refused -/

/-- The operations of the orders that were not refused. -/
def accepted (openings : List (Except TransferError Operation)) : List Operation :=
  openings.filterMap Except.toOption

@[simp] theorem accepted_nil : accepted [] = [] := rfl

@[simp] theorem accepted_append (a b : List (Except TransferError Operation)) :
    accepted (a ++ b) = accepted a ++ accepted b :=
  List.filterMap_append

@[simp] theorem accepted_ok (o : Operation) (rest : List (Except TransferError Operation)) :
    accepted (.ok o :: rest) = o :: accepted rest := rfl

@[simp] theorem accepted_error (e : TransferError)
    (rest : List (Except TransferError Operation)) : accepted (.error e :: rest) = accepted rest :=
  rfl

/-- What an asynchronous call answers, given what opening its file came to. -/
def receipt (opening : Except TransferError Operation) : Except TransferError Nat :=
  opening.map fun o => o.buffer.len

/-- Every operation yields to the next one; operations that may overlap are apart. -/
structure Clear (overlap : Bool) (ops : List Operation) : Prop where
  chain : ops.IsChain Operation.Yields
  apart : overlap = true → ops.Pairwise Operation.Apart

theorem clear_of_apart {ops : List Operation} (h : ops.Pairwise Operation.Apart)
    (overlap : Bool) : Clear overlap ops :=
  ⟨(h.imp Operation.Apart.yields).isChain, fun _ => h⟩

section Clear

variable {overlap : Bool} {before after ops : List Operation} {o : Operation}
  (h : Clear overlap (before ++ o :: after))

include h

theorem Clear.apart_of_sublist (ho : overlap = true) (hops : ops.Sublist before) :
    ∀ q ∈ ops, q.Apart o := fun q hq =>
  (List.pairwise_append.mp (h.apart ho)).2.2 q (hops.mem hq) o List.mem_cons_self

/-- Whatever is under way yields to the operation that comes next. -/
theorem Clear.yields (hops : ops.Sublist before)
    (hlast : overlap = false → ops <:+ before ∧ ops.length ≤ 1) : ∀ q ∈ ops, q.Yields o := by
  intro q hq
  cases overlap with
  | true => exact (h.apart_of_sublist rfl hops q hq).yields
  | false =>
    obtain ⟨⟨earlier, hbefore⟩, hlen⟩ := hlast rfl
    obtain ⟨p, rfl⟩ := List.length_eq_one_iff.mp (Nat.le_antisymm hlen (List.length_pos_of_mem hq))
    rw [List.mem_singleton.mp hq]
    have hchain := h.chain
    rw [← hbefore, List.append_assoc] at hchain
    exact (List.isChain_append_cons_cons.mp hchain).2.1

end Clear

/-- One operation at most is under way, and it is the last of those accepted. -/
theorem suffix_of_sublist {ops ops' before : List Operation} (hsub : ops'.Sublist ops)
    (h : ops <:+ before ∧ ops.length ≤ 1) : ops' <:+ before ∧ ops'.length ≤ 1 := by
  refine ⟨?_, Nat.le_trans hsub.length_le h.2⟩
  by_cases hnil : ops' = []
  · rw [hnil]
    exact List.nil_suffix
  · have hpos := List.length_pos_iff.mpr hnil
    rw [hsub.eq_of_length (by have := hsub.length_le; omega)]
    exact h.1

/-! ### What the journal tells of starts -/

/-- The operation that an occurrence starts. -/
def Occurrence.launched : Occurrence → List Operation
  | .started _ o _ => [o]
  | _ => []

/-- The operations started so far. -/
def launched (journal : List Occurrence) : List Operation := journal.flatMap Occurrence.launched

@[simp] theorem launched_append (journal : List Occurrence) (x : Occurrence) :
    launched (journal ++ [x]) = launched journal ++ x.launched := by
  simp [launched]

/-- No wait has been answered so far. -/
def Undrained (journal : List Occurrence) : Prop := ∀ answer, .drained answer ∉ journal

theorem Undrained.append {journal : List Occurrence} (h : Undrained journal) {x : Occurrence}
    (hx : ∀ answer, x ≠ .drained answer) : Undrained (journal ++ [x]) := by
  intro answer hmem
  rcases List.mem_append.mp hmem with hmem | hmem
  · exact h answer hmem
  · exact hx answer (List.mem_singleton.mp hmem).symm

/-- A worker's move starts no operation and answers no wait. -/
theorem Worker.Move.journal {i : Nat} {w w' : Worker} {g g' : Ground} (h : w.Move i g w' g') :
    launched g'.journal = launched g.journal ∧ (Undrained g.journal → Undrained g'.journal) := by
  cases h with
  | ran => exact ⟨by simp [Ground.log, Occurrence.launched], fun h => h.append (by simp)⟩
  | failed =>
    exact ⟨by simp [Ground.log, Ground.run, Occurrence.launched], fun h => h.append (by simp)⟩
  | reported =>
    exact ⟨by simp [Ground.report, Ground.log, Ground.run, Occurrence.launched],
      fun h => h.append (by simp)⟩
  | _ => exact ⟨rfl, id⟩

/-! ### Where the caller stands -/

/-- The answer that a caller will give without fail. -/
def Stage.owing : Stage → List (Except TransferError Nat)
  | .dealing _ len _ | .placing _ len _ _ _ => [.ok len]
  | .ending _ | .reporting _ _ => [.ok 0]
  | _ => []

theorem Stage.owing_launched {n len : Nat} {ranges : List ByteRange} (h : ranges = [] → len = 0) :
    (Stage.launched n len ranges).owing = [.ok len] := by
  cases ranges with
  | nil => rw [h rfl]; rfl
  | cons r ranges => rfl

/-- The caller has the openings `past` behind it and the orders `rest` before it. -/
structure Alone (first : Traffic) (calls : List Order) (t : Traffic) (c : Caller)
    (past : List (Except TransferError Operation)) (rest : List Order) : Prop where
  callers : t.callers = [c]
  errands : c.errands = rest.map .transfer ++ [.wait]
  holds : ∀ order ∈ rest, t.ground.storage.memory.Holds order.buffer
  directories : t.ground.storage.SameDirectories first.ground.storage
  prospect : Prospect first t c.stage
  /-- What the orders come to when they are carried out at once. -/
  outlook : Order.performAll first.blockSize calls first.ground.storage =
    (past ++ (t.outlook c.stage).1 ++
        (Order.performAll first.blockSize rest (t.outlook c.stage).2).1,
      (Order.performAll first.blockSize rest (t.outlook c.stage).2).2)
  /-- An operation without bytes is reported before the caller goes on. -/
  empty : ∀ n q, t.ground.engine.operation? n = some q → q.buffer.len = 0 → n ∈ c.stage.closing
  under : t.ground.engine.operations.Sublist (accepted past)
  last : first.ground.engine.overlapEvents = false →
    t.ground.engine.operations <:+ accepted past ∧ t.ground.engine.operations.length ≤ 1
  admitted : ∀ o, c.stage = .admitted o → (∀ q ∈ t.ground.engine.operations, q.Apart o) ∧
    (first.ground.engine.overlapEvents = false → t.ground.engine.operations = [])
  answers : c.answers ++ c.stage.owing = past.map receipt
  launched : launched t.ground.journal = accepted past
  undrained : Undrained t.ground.journal

/-- The wait has been answered: the storage is what the orders leave when they
are carried out at once. -/
structure Settled (first : Traffic) (calls : List Order) (t : Traffic) : Prop where
  storage : t.ground.storage = (Order.performAll first.blockSize calls first.ground.storage).2
  directories : t.ground.storage.SameDirectories first.ground.storage
  idle : t.ground.engine.numbers = []
  completion : t.ground.engine.completion = {}
  answered : ∃ answer journal,
    t.callers = [⟨[], .free,
      (Order.performAll first.blockSize calls first.ground.storage).1.map receipt ++ [answer]⟩] ∧
    t.ground.journal = journal ++ [.drained answer] ∧ Undrained journal ∧
    Traffic.launched journal =
      accepted (Order.performAll first.blockSize calls first.ground.storage).1

variable {first t : Traffic} {schedule : List Event} {calls rest : List Order} {c : Caller}
  {past : List (Except TransferError Operation)}

namespace Alone

/-! ### Workers -/

section Worker

variable {i : Nat} {w w' : Worker} {g : Ground} (h : Alone first calls t c past rest)
  (hs : Setting first) (hrec : Recorded first schedule t) (hw : t.workers[i]? = some w)
  (hmove : w.Move i t.ground w' g)

include h hs hrec hw hmove

theorem workerMove_storage : (∀ b, g.storage.memory.Holds b ↔ t.ground.storage.memory.Holds b) ∧
    g.storage.SameDirectories t.ground.storage ∧
    g.engine.operations.Sublist t.ground.engine.operations := by
  cases h.prospect.sound.effect_of_workerMove hs hrec hw hmove with
  | none storage operations =>
    rw [storage, operations]
    exact ⟨fun _ => .rfl, .refl _, .refl _⟩
  | @block j q r hj hq hr hstop hn storage operations =>
    have hl := h.prospect.sound.located q (Engine.mem_operations hq)
    rw [storage, operations]
    exact ⟨holds_carry hl hn, carry_sameDirectories hl.grounded r, .refl _⟩
  | reported n result closing ground =>
    subst ground
    exact ⟨fun _ => .rfl, .refl _, Engine.operations_report_sublist _ _ _⟩

theorem workerMove : Alone first calls (t.moveWorker i w' g) c past rest := by
  obtain ⟨hholds, hdir, hsub⟩ := h.workerMove_storage hs hrec hw hmove
  obtain ⟨hlaunched, hundrained⟩ := hmove.journal
  exact
    { callers := h.callers
      errands := h.errands
      holds := fun order ho => (hholds _).mpr (h.holds order ho)
      directories := hdir.trans h.directories
      prospect := h.prospect.workerMove hs hrec hw hmove
      outlook := h.prospect.outlook_workerMove hs hrec hw hmove ▸ h.outlook
      empty := fun n q hq => h.empty n q (hmove.operation? n q hq)
      under := hsub.trans h.under
      last := fun ho => suffix_of_sublist hsub (h.last ho)
      admitted := fun o ho => by
        obtain ⟨hap, hnil⟩ := h.admitted o ho
        exact ⟨fun q hq => hap q (hsub.mem hq),
          fun hf => List.eq_nil_of_sublist_nil (hnil hf ▸ hsub)⟩
      answers := h.answers
      launched := hlaunched.trans h.launched
      undrained := hundrained h.undrained }

end Worker

/-! ### The caller -/

variable {c' : Caller} {g : Ground} {es : List Errand} {as : List (Except TransferError Nat)}

theorem callers_moveCaller (h : Alone first calls t c past rest) (c' : Caller) (g : Ground) :
    (t.moveCaller 0 c' g).callers = [c'] :=
  callers_moveCaller_single h.callers c' g

theorem getElem?_callers (h : Alone first calls t c past rest) : t.callers[0]? = some c := by
  simp [h.callers]

/-- With an order before it the caller does not wait. -/
theorem of_transfer {order : Order}
    (h : Alone first calls t ⟨.transfer order :: es, .free, as⟩ past rest) :
    ∃ rest', rest = order :: rest' := by
  have herr := h.errands
  cases rest with
  | nil => cases herr
  | cons order' rest' =>
    cases herr
    exact ⟨rest', rfl⟩

/-- The wait is the last errand. -/
theorem of_wait (h : Alone first calls t ⟨.wait :: es, .free, as⟩ past rest) :
    rest = [] ∧ es = [] := by
  have herr := h.errands
  cases rest with
  | nil =>
    cases herr
    exact ⟨rfl, rfl⟩
  | cons order rest' => cases herr

/-- A free caller has reported every operation without bytes. -/
theorem pos_of_closing_nil (h : Alone first calls t c past rest) (hb : Balanced t)
    (hc : c.stage.closing = []) : ∀ q ∈ t.ground.engine.operations, 0 < q.buffer.len := by
  intro q hq
  obtain ⟨n, hn⟩ := Engine.exists_operation? hb.nodup_numbers hq
  by_contra hlen
  have hmem := h.empty n q hn (Nat.eq_zero_of_not_pos hlen)
  rw [hc] at hmem
  exact List.not_mem_nil hmem

/-- A move that takes up no order, starts no operation and leaves the storage alone. -/
theorem goOn (h : Alone first calls t c past rest) (hmove : c.Move t.blockSize t.ground c' g)
    (hp : c.stage.pending = none) (hp' : c'.stage.pending = none) (herr : c'.errands = c.errands)
    (hans : c'.answers ++ c'.stage.owing = c.answers ++ c.stage.owing)
    (hstorage : g.storage = t.ground.storage)
    (hops : ∀ n q, g.engine.operation? n = some q → t.ground.engine.operation? n = some q)
    (hlist : g.engine.operations.Sublist t.ground.engine.operations)
    (hahead : (t.moveCaller 0 c' g).ahead = t.ahead)
    (hclosing : ∀ n q, g.engine.operation? n = some q → n ∈ c.stage.closing →
      n ∈ c'.stage.closing)
    (hlaunched : Traffic.launched g.journal = Traffic.launched t.ground.journal)
    (hundrained : Undrained t.ground.journal → Undrained g.journal) :
    Alone first calls (t.moveCaller 0 c' g) c' past rest := by
  have houtlook := h.outlook
  rw [outlook_of_pending_none hp] at houtlook
  have hsub := hlist.trans h.under
  refine
    { callers := h.callers_moveCaller c' g
      errands := herr.trans h.errands
      holds := fun order ho => ?holds
      directories := ?directories
      prospect := ?prospect
      outlook := ?outlook
      empty := fun n q hq hlen => hclosing n q hq (h.empty n q (hops n q hq) hlen)
      under := hsub
      last := fun ho => suffix_of_sublist hlist (h.last ho)
      admitted := fun o ho => ?admitted
      answers := hans.trans h.answers
      launched := hlaunched.trans h.launched
      undrained := hundrained h.undrained }
  case holds =>
    show g.storage.memory.Holds order.buffer
    exact hstorage.symm ▸ h.holds order ho
  case directories =>
    show g.storage.SameDirectories first.ground.storage
    exact hstorage.symm ▸ h.directories
  case prospect =>
    refine h.prospect.callerMove h.getElem?_callers hmove hstorage hops hlist
      (.inl ⟨hp', Stage.buries_of_pending_none hp⟩) ?_
    exact Stage.sound_of_pending_none hp' _
  case outlook =>
    rw [outlook_of_pending_none hp', hahead]
    exact houtlook
  case admitted =>
    rw [ho] at hp'
    cases hp'

/-- A refusal is what the order comes to when it is carried out at once. -/
theorem refuse (h : Alone first calls t c past rest) {e : TransferError}
    {rest' : List Order} (herr : c'.errands = rest'.map .transfer ++ [.wait])
    (hsub : ∀ order ∈ rest', order ∈ rest) (hmove : c.Move t.blockSize t.ground c' t.ground)
    (hfree : c'.stage = .free) (hbur : ∀ q, c.stage.buries q = false)
    (hans : c'.answers = c.answers ++ [.error e]) (howing : c.stage.owing = [])
    (hclosing : c.stage.closing = [])
    (houtlook : (t.outlook c.stage).1 ++
        (Order.performAll first.blockSize rest (t.outlook c.stage).2).1 =
          .error e :: (Order.performAll first.blockSize rest' t.ahead).1 ∧
      (Order.performAll first.blockSize rest (t.outlook c.stage).2).2 =
        (Order.performAll first.blockSize rest' t.ahead).2) :
    Alone first calls (t.moveCaller 0 c' t.ground) c' (past ++ [.error e]) rest' := by
  have hp' : c'.stage.pending = none := by rw [hfree]; rfl
  have hacc : accepted (past ++ [.error e]) = accepted past := by simp
  have hahead : (t.moveCaller 0 c' t.ground).ahead = t.ahead := rfl
  have hgoal := h.outlook
  rw [List.append_assoc, houtlook.1, houtlook.2] at hgoal
  refine
    { callers := h.callers_moveCaller c' _
      errands := herr
      holds := fun order ho => h.holds order (hsub order ho)
      directories := h.directories
      prospect := ?prospect
      outlook := ?outlook
      empty := fun n q hq hlen => ?empty
      under := hacc ▸ h.under
      last := hacc ▸ h.last
      admitted := fun o ho => ?admitted
      answers := ?answers
      launched := hacc ▸ h.launched
      undrained := h.undrained }
  case prospect =>
    refine h.prospect.callerMove h.getElem?_callers hmove rfl (fun _ _ hq => hq) (.refl _)
      (.inl ⟨hp', hbur⟩) (Stage.sound_of_pending_none hp' _)
  case outlook =>
    rw [outlook_of_pending_none hp', hahead, hgoal]
    simp
  case empty =>
    have hmem := h.empty n q hq hlen
    rw [hclosing] at hmem
    cases hmem
  case admitted =>
    rw [hfree] at ho
    cases ho
  case answers =>
    have hold := h.answers
    rw [howing, List.append_nil] at hold
    rw [hfree, hans, hold, List.map_append]
    exact List.append_nil _

section Calls

variable {order : Order} {o : Operation} {s : Storage}

theorem refused (h : Alone first calls t ⟨.transfer order :: es, .free, as⟩ past (order :: rest))
    (hs : Setting first) (hsize : t.blockSize = first.blockSize) {e : TransferError}
    (hl : locate order t.blockSize t.ground.storage = .error e) :
    Alone first calls (t.moveCaller 0 ⟨es, .free, as ++ [.error e]⟩ t.ground)
      ⟨es, .free, as ++ [.error e]⟩ (past ++ [.error e]) rest := by
  have hb : 0 < t.blockSize := hsize.symm ▸ hs.blockSize_pos
  have hrefused := h.prospect.refused hb (h.holds order List.mem_cons_self) hl
  rw [hsize] at hrefused
  refine h.refuse (List.cons.inj h.errands).2 (fun _ => List.mem_cons_of_mem _) (.refused hl) rfl
    (Stage.buries_of_pending_none rfl) rfl rfl rfl ?_
  rw [outlook_of_pending_none rfl]
  simp only [List.nil_append, Order.performAll, hrefused, and_self]

theorem misfit (h : Alone first calls t ⟨es, .located o, as⟩ past rest) {e : TransferError}
    (hf : o.fit t.ground.storage = .error e) :
    Alone first calls (t.moveCaller 0 ⟨es, .free, as ++ [.error e]⟩ t.ground)
      ⟨es, .free, as ++ [.error e]⟩ (past ++ [.error e]) rest := by
  have hd := read_of_fit_error hf
  refine h.refuse h.errands (fun _ ho => ho) (.misfit hf) rfl
    (fun q => by simp [Stage.buries, Stage.pending, hd]) rfl rfl rfl ?_
  rw [h.prospect.misfit hf]
  exact ⟨rfl, rfl⟩

/-- What is under way yields to a write that is taken up. -/
theorem yields_of_locate
    (h : Alone first calls t ⟨.transfer order :: es, .free, as⟩ past (order :: rest))
    (hs : Setting first) (hsize : t.blockSize = first.blockSize) (hb : Balanced t)
    (hclear : Clear first.ground.engine.overlapEvents
      (accepted (Order.performAll first.blockSize calls first.ground.storage).1))
    (hl : locate order t.blockSize t.ground.storage = .ok (o, s)) :
    ∀ q ∈ t.ground.engine.operations, o.direction = .write → q.handle = o.handle →
      q.direction = .write ∧ q.buffer.len ≤ o.buffer.len := by
  have hpos : 0 < t.blockSize := hsize.symm ▸ hs.blockSize_pos
  intro q hq hd hh
  obtain ⟨x, hx⟩ := locate_ok_congr h.prospect.sameLayout_free.symm hl
  have hopening := perform_of_locate_write hx hd
  rw [hsize] at hopening
  have hgoal := h.outlook
  rw [outlook_of_pending_none rfl] at hgoal
  simp only [List.append_nil, Order.performAll, hopening] at hgoal
  rw [hgoal, accepted_append, accepted_ok] at hclear
  exact hclear.yields h.under h.last q hq hd hh (h.pos_of_closing_nil hb rfl q hq)

theorem located (h : Alone first calls t ⟨.transfer order :: es, .free, as⟩ past (order :: rest))
    (hs : Setting first) (hsize : t.blockSize = first.blockSize)
    (hl : locate order t.blockSize t.ground.storage = .ok (o, s))
    (hyield : ∀ q ∈ t.ground.engine.operations, o.direction = .write → q.handle = o.handle →
      q.direction = .write ∧ q.buffer.len ≤ o.buffer.len) :
    Alone first calls (t.moveCaller 0 ⟨es, .located o, as⟩ (t.ground.store s))
      ⟨es, .located o, as⟩ past rest := by
  have hpos : 0 < t.blockSize := hsize.symm ▸ hs.blockSize_pos
  have hm := h.holds order List.mem_cons_self
  have hlocates := locate_spec hpos hm hl
  have hgoal := h.outlook
  rw [outlook_of_pending_none rfl] at hgoal
  refine
    { callers := h.callers_moveCaller _ _
      errands := (List.cons.inj h.errands).2
      holds := fun order' ho => ?_
      directories := hlocates.sameDirectories.trans h.directories
      prospect := h.prospect.located hpos hm hl hyield h.getElem?_callers
      outlook := ?_
      empty := fun n q hq hlen => h.empty n q hq hlen
      under := h.under
      last := h.last
      admitted := fun o ho => by cases ho
      answers := h.answers
      launched := h.launched
      undrained := h.undrained }
  · show s.memory.Holds order'.buffer
    rw [hlocates.memory]
    exact h.holds order' (List.mem_cons_of_mem _ ho)
  · rw [← h.prospect.outlook_located hpos hm hl hyield rfl, hsize, hgoal]
    simp only [List.append_nil, Order.performAll, List.append_assoc, List.singleton_append]

theorem fitted (h : Alone first calls t ⟨es, .located o, as⟩ past rest)
    (hf : o.fit t.ground.storage = .ok s) :
    Alone first calls (t.moveCaller 0 ⟨es, .opened o, as⟩ (t.ground.store s))
      ⟨es, .opened o, as⟩ past rest := by
  have hl : o.Located t.ground.storage := h.prospect.stage
  have hprospect := h.prospect.fitted hf h.getElem?_callers
  have houtlook := h.prospect.outlook_fitted hf rfl hprospect
  refine
    { callers := h.callers_moveCaller _ _
      errands := h.errands
      holds := fun order' ho => ?_
      directories := (fit_sameDirectories hl hf).trans h.directories
      prospect := hprospect
      outlook := houtlook ▸ h.outlook
      empty := fun n q hq hlen => h.empty n q hq hlen
      under := h.under
      last := h.last
      admitted := fun o ho => by cases ho
      answers := h.answers
      launched := h.launched
      undrained := h.undrained }
  show s.memory.Holds order'.buffer
  rw [memory_of_fit hf]
  exact h.holds order' ho

/-- What is under way is apart from an operation that may start beside it. -/
theorem apart_of_opened (h : Alone first calls t ⟨es, .opened o, as⟩ past rest)
    (hclear : Clear first.ground.engine.overlapEvents
      (accepted (Order.performAll first.blockSize calls first.ground.storage).1))
    (hoverlap : first.ground.engine.overlapEvents = true) :
    ∀ q ∈ t.ground.engine.operations, q.Apart o := by
  have hgoal := h.outlook
  have hopening : (t.outlook (.opened o)).1 = [.ok o] := rfl
  rw [hopening] at hgoal
  rw [hgoal, List.append_assoc, accepted_append, List.singleton_append, accepted_ok] at hclear
  exact hclear.apart_of_sublist hoverlap h.under

theorem admits (h : Alone first calls t ⟨es, .opened o, as⟩ past rest) (hb : Balanced t)
    (hsame : t.ground.engine.SameSettings first.ground.engine)
    (hapart : first.ground.engine.overlapEvents = true →
      ∀ q ∈ t.ground.engine.operations, q.Apart o)
    (hopen : t.ground.engine.overlapEvents = true ∨ t.ground.engine.completion.isIdle = true) :
    Alone first calls (t.moveCaller 0 ⟨es, .admitted o, as⟩ t.ground)
      ⟨es, .admitted o, as⟩ past rest := by
  refine
    { callers := h.callers_moveCaller _ _
      errands := h.errands
      holds := h.holds
      directories := h.directories
      prospect := h.prospect.callerMove h.getElem?_callers (.admitted hopen) rfl
        (fun _ _ hq => hq) (.refl _) (.inr rfl) h.prospect.stage
      outlook := h.outlook
      empty := fun n q hq hlen => h.empty n q hq hlen
      under := h.under
      last := h.last
      admitted := fun p hp => ?_
      answers := h.answers
      launched := h.launched
      undrained := h.undrained }
  cases hp
  rw [hsame.overlapEvents] at hopen
  rcases hopen with hoverlap | hidle
  · refine ⟨hapart hoverlap, fun hf => ?_⟩
    rw [hoverlap] at hf
    cases hf
  · have hnil : t.ground.engine.operations = [] := hb.operations_of_idle hidle
    refine ⟨fun q hq => ?_, fun _ => hnil⟩
    have hq : q ∈ t.ground.engine.operations := hq
    rw [hnil] at hq
    cases hq

theorem launch (h : Alone first calls t ⟨es, .admitted o, as⟩ past rest) (hs : Setting first)
    (hrec : Recorded first schedule t) (hsame : t.ground.engine.SameSettings first.ground.engine)
    (ho : o.blockSize = first.blockSize) {st : Stage}
    (hst : st = .launched t.ground.engine.nextFlight o.buffer.len (t.ground.engine.plan o)) :
    Alone first calls (t.moveCaller 0 ⟨es, st, as⟩ (t.ground.launch o)) ⟨es, st, as⟩
      (past ++ [.ok o]) rest := by
  obtain ⟨hap, hnil⟩ := h.admitted o rfl
  have hready : o.Ready t.ground.storage := h.prospect.stage
  have hempty := plan_eq_nil_iff hs hready.toLocated ho
  rw [← hsame.plan] at hempty
  have hk := hrec.balanced.flight?_nextFlight
  have hops : (t.ground.launch o).engine.operations = t.ground.engine.operations ++ [o] :=
    Engine.operations_launch _ _ _
  have hacc : accepted (past ++ [.ok o]) = accepted past ++ [o] := by simp
  have hpending : st.pending = none := hst ▸ Stage.pending_launched _ _ _
  have hgoal := h.outlook
  rw [Prospect.outlook_launched (u := t.moveCaller 0 ⟨es, st, as⟩ (t.ground.launch o)) hap rfl]
    at hgoal
  refine
    { callers := h.callers_moveCaller _ _
      errands := h.errands
      holds := h.holds
      directories := h.directories
      prospect := h.prospect.launched hap hrec hsame ho h.getElem?_callers hst
      outlook := ?outlook
      empty := fun n q hq hlen => ?empty
      under := ?under
      last := fun hf => ?last
      admitted := fun p hp => ?admitted
      answers := ?answers
      launched := ?launched
      undrained := h.undrained.append (by simp) }
  case outlook =>
    rw [outlook_of_pending_none hpending, hgoal]
    simp
  case empty =>
    have hq : (t.ground.engine.launch o _).2.operation? n = some q := hq
    rw [Engine.operation?_launch _ _ _ _ hk] at hq
    show n ∈ st.closing
    rw [hst, Stage.closing_launched]
    split at hq
    · rename_i hn
      cases hq
      rw [if_pos (hempty.mpr hlen), hn]
      exact List.mem_singleton_self _
    · exact absurd (h.empty n q hq hlen) List.not_mem_nil
  case under =>
    show (t.ground.launch o).engine.operations.Sublist _
    rw [hops, hacc]
    exact h.under.append (.refl _)
  case last =>
    show (t.ground.launch o).engine.operations <:+ _ ∧
      (t.ground.launch o).engine.operations.length ≤ 1
    rw [hops, hacc, hnil hf]
    exact ⟨List.suffix_append _ _, Nat.le_refl 1⟩
  case admitted =>
    have hp : st = .admitted p := hp
    rw [hp] at hpending
    cases hpending
  case answers =>
    have hold := h.answers
    show as ++ st.owing = _
    rw [hst, Stage.owing_launched hempty.mp, List.map_append, ← hold]
    simp [Stage.owing, receipt, Except.map]
  case launched =>
    show Traffic.launched ((t.ground.launch o).journal) = _
    rw [hacc, ← h.launched]
    exact launched_append _ _

section Dealing

variable {n len worker : Nat} {r : ByteRange} {rs : List ByteRange}

theorem dealt (h : Alone first calls t ⟨es, .dealing n len [], as⟩ past rest) :
    Alone first calls (t.moveCaller 0 ⟨es, .free, as ++ [.ok len]⟩ t.ground)
      ⟨es, .free, as ++ [.ok len]⟩ past rest :=
  h.goOn .dealt rfl rfl rfl (List.append_nil _) rfl (fun _ _ hq => hq) (.refl _) rfl
    (fun _ _ _ hn => hn) rfl id

theorem turned (h : Alone first calls t ⟨es, .dealing n len (r :: rs), as⟩ past rest) :
    Alone first calls (t.moveCaller 0 ⟨es, .placing n len t.ground.engine.turn.1 r rs, as⟩
      (t.ground.run t.ground.engine.turn.2))
      ⟨es, .placing n len t.ground.engine.turn.1 r rs, as⟩ past rest :=
  h.goOn .turned rfl rfl rfl rfl rfl (fun _ _ hq => hq) (.refl _) rfl (fun _ _ _ hn => hn) rfl id

theorem placed (h : Alone first calls t ⟨es, .placing n len worker r rs, as⟩ past rest)
    {engine : Engine} (hput : t.ground.engine.put? worker ⟨n, r⟩ = some engine) :
    Alone first calls (t.moveCaller 0 ⟨es, .dealing n len rs, as⟩ (t.ground.run engine))
      ⟨es, .dealing n len rs, as⟩ past rest := by
  have hops := Engine.operations_congr (put?_same hput).1
  have hop := Engine.operation?_congr (put?_same hput).1
  refine h.goOn (.placed hput) rfl rfl rfl rfl rfl (fun m q hq => hop m ▸ hq) (hops ▸ .refl _) ?_
    (fun _ _ _ hn => hn) rfl id
  exact congrArg (carryAll · t.ground.storage) hops

end Dealing

/-- Nothing is under way when the wait is answered, so the outlook has come true. -/
theorem drain (h : Alone first calls t ⟨.wait :: es, .free, as⟩ past rest) (hb : Balanced t)
    (hidle : t.ground.engine.completion.isIdle = true) :
    Settled first calls (t.moveCaller 0
      ⟨es, .free, as ++ [t.ground.engine.completion.drain.1]⟩ t.ground.drain) := by
  obtain ⟨rfl, rfl⟩ := h.of_wait
  have hnil : t.ground.engine.operations = [] := hb.operations_of_idle hidle
  have hzero : t.ground.engine.completion.inFlight = 0 := by simpa [Completion.isIdle] using hidle
  have hgoal := h.outlook
  rw [outlook_of_pending_none rfl] at hgoal
  simp only [ahead, hnil, carryAll_nil, Order.performAll, List.append_nil] at hgoal
  have hanswers := h.answers
  simp only [Stage.owing, List.append_nil] at hanswers
  refine
    { storage := by rw [hgoal]; rfl
      directories := h.directories
      idle := hb.numbers_of_idle hidle
      completion := ?_
      answered := ⟨_, t.ground.journal, ?_, rfl, h.undrained, hgoal.symm ▸ h.launched⟩ }
  · show { inFlight := t.ground.engine.completion.inFlight : Completion } = {}
    rw [hzero]
  · rw [h.callers_moveCaller, hanswers, hgoal]

end Calls

/-- Every move of the caller keeps where it stands, or ends the wait. -/
theorem callerMove (h : Alone first calls t c past rest) (hs : Setting first)
    (hrec : Recorded first schedule t) (hreg : Regular t) (hsize : t.blockSize = first.blockSize)
    (hsame : t.ground.engine.SameSettings first.ground.engine)
    (hclear : Clear first.ground.engine.overlapEvents
      (accepted (Order.performAll first.blockSize calls first.ground.storage).1))
    (hmove : c.Move t.blockSize t.ground c' g) :
    (∃ past' rest', Alone first calls (t.moveCaller 0 c' g) c' past' rest') ∨
      Settled first calls (t.moveCaller 0 c' g) := by
  have hb := hrec.balanced
  have hregular := hreg.callers c (List.mem_of_getElem? h.getElem?_callers)
  have hquiet := h.goOn hmove
  cases hmove with
  | drained hidle => exact .inr (h.drain hb hidle)
  | refused hl =>
    obtain ⟨rest', rfl⟩ := h.of_transfer
    exact .inl ⟨_, rest', h.refused hs hsize hl⟩
  | located hl =>
    obtain ⟨rest', rfl⟩ := h.of_transfer
    exact .inl ⟨_, rest', h.located hs hsize hl (h.yields_of_locate hs hsize hb hclear hl)⟩
  | misfit hf => exact .inl ⟨_, _, h.misfit hf⟩
  | fitted hf => exact .inl ⟨_, _, h.fitted hf⟩
  | admitted hopen => exact .inl ⟨_, _, h.admits hb hsame (h.apart_of_opened hclear) hopen⟩
  | launched => exact .inl ⟨_, _, h.launch hs hrec hsame (hregular.trans hsize) rfl⟩
  | dealt => exact .inl ⟨_, _, h.dealt⟩
  | turned => exact .inl ⟨_, _, h.turned⟩
  | placed hput => exact .inl ⟨_, _, h.placed hput⟩
  | judged =>
    exact .inl ⟨_, _, hquiet rfl rfl rfl rfl rfl (fun _ _ hq => hq) (.refl _) rfl
      (fun _ _ _ hn => hn) rfl id⟩
  | @reported n result es as =>
    have hn : n ∈ t.closing := List.mem_append_left _ (List.mem_flatMap.mpr
      ⟨_, List.mem_of_getElem? h.getElem?_callers, List.mem_singleton_self n⟩)
    have hview := h.prospect.view_report hb hs hn result
    have hfind : ∀ m q, (t.ground.report n result).engine.operation? m = some q →
        m ≠ n ∧ t.ground.engine.operation? m = some q := by
      intro m q hq
      have hq : (t.ground.engine.report n result).operation? m = some q := hq
      rw [Engine.operation?_report] at hq
      split at hq
      · cases hq
      · exact ⟨‹_›, hq⟩
    refine .inl ⟨_, _, hquiet rfl rfl rfl (List.append_nil _) rfl (fun m q hq => (hfind m q hq).2)
      (Engine.operations_report_sublist _ _ _) ?_ (fun m q hq hm => ?_) ?_
      fun hu => hu.append (by simp)⟩
    · have hnone : (Stage.reporting n result).pending = none := rfl
      simp only [Stage.view, Stage.live_of_pending_none hnone] at hview
      exact hview
    · exact absurd (List.mem_singleton.mp hm) (hfind m q hq).1
    · simp [Ground.report, Ground.log, Ground.run, Occurrence.launched]

end Alone

end Traffic
end BlockTransfer
