import BlockTransfer.Proofs.Operation.Opening
import BlockTransfer.Proofs.Traffic.Progress
/-!
# Schedules that get somewhere

A schedule can be extended until a goal is reached, if what is kept on the way
rules out that all callers get through without reaching it: every step uses up
work, and no one is stuck before all callers are through.

Key theorems: `Traffic.exists_opened`, `Traffic.exists_run`.
-/

namespace BlockTransfer
namespace Traffic

variable {first t t' : Traffic} {before : List Event}

/-- The only caller makes a move that it can make. -/
theorem step?_caller {c c' : Caller} {g : Ground} (hc : t.callers = [c])
    (h : c.step? t.blockSize t.ground = some (c', g)) :
    t.step? (.caller 0) = some (t.moveCaller 0 c' g) := by
  have hget : t.callers[0]? = some c := by rw [hc, List.getElem?_cons_zero]
  simp only [step?, hget, Option.bind_eq_bind, Option.bind_some, h]
  rfl

@[simp] theorem moveCaller_moveCaller (t : Traffic) (i : Nat) (c c' : Caller) (g g' : Ground) :
    (t.moveCaller i c g).moveCaller i c' g' = t.moveCaller i c' g' := by
  simp [moveCaller]

/-- The only caller opens the file of its next order. -/
theorem run?_open {order : Order} {es : List Errand} {as : List (Except TransferError Nat)}
    {o : Operation} {s₀ s₁ : Storage} (hrun : first.run? before = some t)
    (hc : t.callers = [⟨.transfer order :: es, .free, as⟩])
    (hl : Operation.locate order t.blockSize t.ground.storage = .ok (o, s₀))
    (hf : o.fit s₀ = .ok s₁) :
    first.run? (before ++ [.caller 0] ++ [.caller 0]) =
      some (t.moveCaller 0 ⟨es, .opened o, as⟩ (t.ground.store s₁)) := by
  have hlocated : t.step? (.caller 0) =
      some (t.moveCaller 0 ⟨es, .located o, as⟩ (t.ground.store s₀)) :=
    step?_caller hc (by simp only [Caller.step?, Caller.begin?, hl]; rfl)
  have hopened : (t.moveCaller 0 ⟨es, .located o, as⟩ (t.ground.store s₀)).step? (.caller 0) =
      some ((t.moveCaller 0 ⟨es, .located o, as⟩ (t.ground.store s₀)).moveCaller 0
        ⟨es, .opened o, as⟩ (t.ground.store s₁)) := by
    refine step?_caller (c := ⟨es, .located o, as⟩) (by simp [moveCaller, hc]) ?_
    have hf' : o.fit (t.ground.store s₀).storage = .ok s₁ := hf
    simp only [Caller.step?, moveCaller, hf']
    rfl
  rw [moveCaller_moveCaller] at hopened
  exact run?_concat (run?_concat hrun hlocated) hopened

/-- The only caller is refused its next order, and that changes nothing else. -/
theorem exists_refused {order : Order} {es : List Errand} {as : List (Except TransferError Nat)}
    {e : TransferError} (hrun : first.run? before = some t)
    (hc : t.callers = [⟨.transfer order :: es, .free, as⟩])
    (hopen : Operation.openFile order t.blockSize t.ground.storage = .error e) :
    ∃ schedule, first.run? schedule =
      some (t.moveCaller 0 ⟨es, .free, as ++ [.error e]⟩ t.ground) := by
  rcases Operation.openFile_eq_error hopen with hl | ⟨o, s₀, hl, hf⟩
  · refine ⟨before ++ [.caller 0], run?_concat hrun (step?_caller hc ?_)⟩
    simp only [Caller.step?, Caller.begin?, hl]
    rfl
  · -- only a read is refused after its file is found
    obtain rfl := Operation.eq_of_locate_read hl (Operation.read_of_fit_error hf)
    have hlocated : t.step? (.caller 0) = some (t.moveCaller 0 ⟨es, .located o, as⟩ t.ground) :=
      step?_caller hc (by simp only [Caller.step?, Caller.begin?, hl])
    have hcallers : (t.moveCaller 0 ⟨es, .located o, as⟩ t.ground).callers =
        [⟨es, .located o, as⟩] := by simp [moveCaller, hc]
    have hrefused : (t.moveCaller 0 ⟨es, .located o, as⟩ t.ground).step? (.caller 0) =
        some ((t.moveCaller 0 ⟨es, .located o, as⟩ t.ground).moveCaller 0
          ⟨es, .free, as ++ [.error e]⟩ t.ground) := by
      refine step?_caller hcallers ?_
      simp only [Caller.step?, moveCaller, hf]
      rfl
    rw [moveCaller_moveCaller] at hrefused
    exact ⟨_, run?_concat (run?_concat hrun hlocated) hrefused⟩

/-- The only caller is refused some orders and opens the file of the next. -/
theorem exists_opened {refused : List Order} {order : Order} {es : List Errand} {o : Operation}
    {x : Storage} {as : List (Except TransferError Nat)} (hrun : first.run? before = some t)
    (hc : t.callers = [⟨(refused ++ [order]).map .transfer ++ es, .free, as⟩])
    (hrefused : ∀ c ∈ refused, ∃ e,
      Operation.openFile c t.blockSize t.ground.storage = .error e)
    (hopen : Operation.openFile order t.blockSize t.ground.storage = .ok (o, x)) :
    ∃ schedule answers, first.run? schedule =
      some (t.moveCaller 0 ⟨es, .opened o, answers⟩ (t.ground.store x)) := by
  induction refused generalizing before t as with
  | nil =>
    obtain ⟨x₀, hl, hf⟩ := Operation.openFile_eq_ok hopen
    exact ⟨_, _, run?_open hrun hc hl hf⟩
  | cons c refused ih =>
    obtain ⟨e, he⟩ := hrefused c List.mem_cons_self
    obtain ⟨schedule, hu⟩ := exists_refused hrun hc he
    have hcallers : (t.moveCaller 0
        ⟨(refused ++ [order]).map .transfer ++ es, .free, as ++ [.error e]⟩ t.ground).callers =
        [⟨(refused ++ [order]).map .transfer ++ es, .free, as ++ [.error e]⟩] := by
      simp [moveCaller, hc]
    obtain ⟨schedule', answers, hv⟩ := ih hu hcallers
      (fun c' hc' => hrefused c' (List.mem_cons_of_mem _ hc')) hopen
    rw [moveCaller_moveCaller] at hv
    exact ⟨schedule', answers, hv⟩

/-- What is kept up to the goal can be carried to the goal. -/
theorem exists_run (hb : Balanced first) (hr : Regular first) {P Goal : Traffic → Prop}
    (hstep : ∀ schedule u e u', first.run? schedule = some u → P u → ¬Goal u →
      u.step? e = some u' → P u')
    (hdone : ∀ u, P u → u.isOver = true → u.waiting = [] → Goal u)
    (hrun : first.run? before = some t) (h : P t) :
    ∃ schedule u, first.run? schedule = some u ∧ P u ∧ Goal u := by
  induction hwork : t.work using Nat.strongRecOn generalizing before t with
  | ind k ih =>
    have hregular := hr.run hb hrun
    by_cases hgoal : Goal t
    · exact ⟨before, t, hrun, h, hgoal⟩
    · by_cases hstuck : ∀ e, t.step? e = none
      · obtain ⟨hover, hwaiting, -⟩ := done_of_stuck hstuck (hb.run hrun) hregular
        exact ⟨before, t, hrun, h, hdone t h hover hwaiting⟩
      · obtain ⟨e, he⟩ := not_forall.mp hstuck
        obtain ⟨t', ht'⟩ := Option.ne_none_iff_exists'.mp he
        have hlt := work_lt_of_step? hregular ht'
        exact ih _ (hwork ▸ hlt) (run?_concat hrun ht') (hstep _ _ _ _ hrun h hgoal ht') rfl

end Traffic
end BlockTransfer
