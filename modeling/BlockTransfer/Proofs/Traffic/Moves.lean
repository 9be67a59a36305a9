import BlockTransfer.Device.Posix.Traffic
import BlockTransfer.Proofs.Turns
/-!
# The moves of callers and workers, one by one

`Caller.Move` and `Worker.Move` list what the one whose turn it is can do, each
with what it asks for and what it leaves. A step of the whole is one of them
(`Traffic.caller_of_step?`, `Traffic.worker_of_step?`), so what every move
preserves holds after every schedule (`Traffic.run_induction`).

Key definitions: `Traffic.Caller.Move`, `Traffic.Worker.Move`.
Key theorems: `Traffic.caller_of_step?`, `Traffic.worker_of_step?`,
`Traffic.run_induction`.
-/

namespace BlockTransfer
namespace Traffic

/-- The shared state with the storage replaced. -/
def Ground.store (g : Ground) (storage : Storage) : Ground := { g with storage }

/-- The shared state with the engine replaced. -/
def Ground.run (g : Ground) (engine : Engine) : Ground := { g with engine }

/-- The shared state after the results of what ended are taken. -/
def Ground.drain (g : Ground) : Ground :=
  (g.run { g.engine with completion := g.engine.completion.drain.2 }).log
    (.drained g.engine.completion.drain.1)

/-- The shared state after an operation starts. -/
def Ground.launch (g : Ground) (o : Operation) : Ground :=
  (g.run (g.engine.launch o (g.engine.plan o).length).2).log
    (.started g.engine.nextFlight o (g.engine.plan o))

/-- The shared state after the end of an operation is reported. -/
def Ground.report (g : Ground) (number : Nat) (result : Except TransferError Unit) : Ground :=
  (g.run (g.engine.report number result)).log (.reported number result)

/-- Where a caller is once it has started an operation with these jobs. -/
def Stage.launched (number len : Nat) (jobs : List ByteRange) : Stage :=
  if jobs.isEmpty then .ending number else .dealing number len jobs

/-- A caller's move. -/
inductive Caller.Move (blockSize : Nat) : Caller → Ground → Caller → Ground → Prop where
  | drained {es as g} (idle : g.engine.completion.isIdle = true) :
    Move blockSize ⟨.wait :: es, .free, as⟩ g
      ⟨es, .free, as ++ [g.engine.completion.drain.1]⟩ g.drain
  | refused {c es as g e} (h : Operation.locate c blockSize g.storage = .error e) :
    Move blockSize ⟨.transfer c :: es, .free, as⟩ g ⟨es, .free, as ++ [.error e]⟩ g
  | located {c es as g o s} (h : Operation.locate c blockSize g.storage = .ok (o, s)) :
    Move blockSize ⟨.transfer c :: es, .free, as⟩ g ⟨es, .located o, as⟩ (g.store s)
  | misfit {o es as g e} (h : o.fit g.storage = .error e) :
    Move blockSize ⟨es, .located o, as⟩ g ⟨es, .free, as ++ [.error e]⟩ g
  | fitted {o es as g s} (h : o.fit g.storage = .ok s) :
    Move blockSize ⟨es, .located o, as⟩ g ⟨es, .opened o, as⟩ (g.store s)
  | admitted {o es as g} (h : g.engine.overlapEvents = true ∨ g.engine.completion.isIdle = true) :
    Move blockSize ⟨es, .opened o, as⟩ g ⟨es, .admitted o, as⟩ g
  | launched {o es as g} :
    Move blockSize ⟨es, .admitted o, as⟩ g
      ⟨es, .launched g.engine.nextFlight o.buffer.len (g.engine.plan o), as⟩ (g.launch o)
  | dealt {n len es as g} :
    Move blockSize ⟨es, .dealing n len [], as⟩ g ⟨es, .free, as ++ [.ok len]⟩ g
  | turned {n len r rs es as g} :
    Move blockSize ⟨es, .dealing n len (r :: rs), as⟩ g
      ⟨es, .placing n len g.engine.turn.1 r rs, as⟩ (g.run g.engine.turn.2)
  | placed {n len worker r rs es as g engine} (h : g.engine.put? worker ⟨n, r⟩ = some engine) :
    Move blockSize ⟨es, .placing n len worker r rs, as⟩ g ⟨es, .dealing n len rs, as⟩
      (g.run engine)
  | judged {n es as g} :
    Move blockSize ⟨es, .ending n, as⟩ g
      ⟨es, .reporting n (g.engine.outcome n g.storage), as⟩ g
  | reported {n result es as g} :
    Move blockSize ⟨es, .reporting n result, as⟩ g ⟨es, .free, as ++ [.ok 0]⟩ (g.report n result)

/-- A move of the worker with that index. -/
inductive Worker.Move (index : Nat) : Worker → Ground → Worker → Ground → Prop where
  | taken {g j engine f} (h : g.engine.take? index = some (j, engine))
      (hf : engine.flight? j.flight = some f) :
    Move index .idle g (.moving j (f.operation.blocks j.range)) (g.run engine)
  | ran {j g} : Move index (.moving j []) g (.done j.flight) (g.log (.ran j (.ok ())))
  | moved {j block blocks g f s} (hf : g.engine.flight? j.flight = some f)
      (h : f.operation.moveBlock j.range.stop block g.storage = (.ok (), s)) :
    Move index (.moving j (block :: blocks)) g (.moving j blocks) (g.store s)
  | stumbled {j block blocks g f e s} (hf : g.engine.flight? j.flight = some f)
      (h : f.operation.moveBlock j.range.stop block g.storage = (.error e, s)) :
    Move index (.moving j (block :: blocks)) g (.failed j e) (g.store s)
  | failed {j e g} :
    Move index (.failed j e) g (.done j.flight)
      ((g.run (g.engine.note j.flight e)).log (.ran j (.error e)))
  | retired {n g} :
    Move index (.done n) g (if (g.engine.retire n).1 then .ending n else .idle)
      (g.run (g.engine.retire n).2)
  | judged {n g} :
    Move index (.ending n) g (.reporting n (g.engine.outcome n g.storage)) g
  | reported {n result g} : Move index (.reporting n result) g .idle (g.report n result)

theorem Caller.move_of_step? {blockSize : Nat} {c c' : Caller} {g g' : Ground}
    (h : c.step? blockSize g = some (c', g')) : c.Move blockSize g c' g' := by
  obtain ⟨es, stage, as⟩ := c
  cases stage with
  | free =>
    simp only [step?, begin?] at h
    split at h
    · cases h
    · rename_i es
      split at h
      · rename_i hidle
        cases h
        exact .drained hidle
      · cases h
    · rename_i c es
      split at h
      · rename_i e hl
        cases h
        exact .refused hl
      · rename_i o s hl
        cases h
        exact .located hl
  | located o =>
    simp only [step?] at h
    split at h
    · rename_i e hf
      cases h
      exact .misfit hf
    · rename_i s hf
      cases h
      exact .fitted hf
  | opened o =>
    simp only [step?] at h
    split at h
    · rename_i hopen
      cases h
      exact .admitted (by simpa using hopen)
    · cases h
  | admitted o =>
    cases h
    exact .launched
  | dealing n len ranges =>
    cases ranges <;> cases h
    · exact .dealt
    · exact .turned
  | placing n len worker range ranges =>
    obtain ⟨engine, hput, heq⟩ := Option.map_eq_some_iff.mp h
    cases heq
    exact .placed hput
  | ending n =>
    cases h
    exact .judged
  | reporting n result =>
    cases h
    exact .reported

theorem Worker.move_of_step? {index : Nat} {w w' : Worker} {g g' : Ground}
    (h : w.step? index g = some (w', g')) : w.Move index g w' g' := by
  cases w with
  | idle =>
    obtain ⟨⟨j, engine⟩, htake, hrest⟩ := Option.bind_eq_some_iff.mp h
    obtain ⟨f, hf, heq⟩ := Option.map_eq_some_iff.mp hrest
    cases heq
    exact .taken htake hf
  | moving j blocks =>
    cases blocks with
    | nil =>
      cases h
      exact .ran
    | cons block blocks =>
      obtain ⟨f, hf, heq⟩ := Option.map_eq_some_iff.mp h
      split at heq
      · rename_i s hmove
        cases heq
        exact .moved hf hmove
      · rename_i e s hmove
        cases heq
        exact .stumbled hf hmove
  | failed j e =>
    cases h
    exact .failed
  | done n =>
    cases h
    exact .retired
  | ending n =>
    cases h
    exact .judged
  | reporting n result =>
    cases h
    exact .reported

/-! ### Steps and schedules -/

variable {t t' : Traffic}

/-- The traffic after the caller of that index moved. -/
def moveCaller (t : Traffic) (i : Nat) (c : Caller) (g : Ground) : Traffic :=
  { t with ground := g, callers := t.callers.set i c }

/-- The traffic after the worker of that index moved. -/
def moveWorker (t : Traffic) (i : Nat) (w : Worker) (g : Ground) : Traffic :=
  { t with ground := g, workers := t.workers.set i w }

/-- Where one caller is all there are, it is the one that moves ... -/
theorem eq_of_single_caller {i : Nat} {c c₀ : Caller} (h : t.callers = [c₀])
    (hc : t.callers[i]? = some c) : i = 0 ∧ c₀ = c := by
  rw [h, List.getElem?_singleton] at hc
  split at hc
  · rename_i hi
    exact ⟨hi, Option.some.inj hc⟩
  · cases hc

/-- ... and it is all there are afterwards. -/
theorem callers_moveCaller_single {c₀ : Caller} (h : t.callers = [c₀]) (c : Caller) (g : Ground) :
    (t.moveCaller 0 c g).callers = [c] := by
  rw [moveCaller, h, List.set_cons_zero]

theorem caller_of_step? {i : Nat} (h : t.step? (.caller i) = some t') :
    ∃ c c' g, t.callers[i]? = some c ∧ c.Move t.blockSize t.ground c' g ∧
      t' = t.moveCaller i c' g := by
  obtain ⟨c, hc, h⟩ := Option.bind_eq_some_iff.mp h
  obtain ⟨⟨c', g⟩, hmove, h⟩ := Option.bind_eq_some_iff.mp h
  cases h
  exact ⟨c, c', g, hc, Caller.move_of_step? hmove, rfl⟩

theorem worker_of_step? {i : Nat} (h : t.step? (.worker i) = some t') :
    ∃ w w' g, t.workers[i]? = some w ∧ w.Move i t.ground w' g ∧ t' = t.moveWorker i w' g := by
  obtain ⟨w, hw, h⟩ := Option.bind_eq_some_iff.mp h
  obtain ⟨⟨w', g⟩, hmove, h⟩ := Option.bind_eq_some_iff.mp h
  cases h
  exact ⟨w, w', g, hw, Worker.move_of_step? hmove, rfl⟩

theorem run?_append (t : Traffic) (before after : List Event) :
    t.run? (before ++ after) = (t.run? before).bind fun u => u.run? after :=
  foldlM_append ..

theorem run?_concat {first : Traffic} {before : List Event} {e : Event}
    (h : first.run? before = some t) (hstep : t.step? e = some t') :
    first.run? (before ++ [e]) = some t' := by
  rw [run?_append, h]
  show t.run? [e] = some t'
  simp only [run?, List.foldlM_cons, hstep]
  rfl

/-- What holds at the start and after every step from where it holds, given the
schedule so far, holds after every schedule. -/
theorem run_induction {P : List Event → Traffic → Prop} (h₀ : P [] t)
    (hstep : ∀ before u e u', t.run? before = some u → P before u → u.step? e = some u' →
      P (before ++ [e]) u') {schedule : List Event} (h : t.run? schedule = some t') :
    P schedule t' :=
  foldlM_induction h₀ hstep h

end Traffic
end BlockTransfer
