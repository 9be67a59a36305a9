import BlockTransfer.Completion
import BlockTransfer.Proofs.Turns
import Mathlib.Data.List.Forall2
import Mathlib.Data.List.Nodup
import Mathlib.Data.List.Perm.Subperm
/-!
# Every end is taken by one drain

Threads start operations, end them and drain, in the order in which the count's lock lets
them. Each operation ends after its own start, and a drain takes effect only with nothing
in flight. Such moves can all be made (`Completion.exists_run?`): an end always finds its
operation in flight. What is in flight are the starts less the ends; a drain answers for
the ends since the drain before it, all of them and no others, whatever that one answered
(`Completion.accounted_of_orderly`).

Key definitions: `Completion.Move`, `Completion.Orderly`, `Completion.run?`,
`Completion.takings`, `Completion.Answers`, `Completion.Accounted`.
Key theorem: `Completion.accounted_of_orderly`.
-/

namespace BlockTransfer
namespace Completion

/-! ### Moves -/

/-- What a thread does to a count. Operations are known by numbers. Each move is made under
the count's lock, which is not told who makes it: the moves of all threads are one list. -/
inductive Move where
  | starts (operation : Nat)
  | ends (operation : Nat) (result : Except TransferError Unit)
  | drains

/-- An operation's end. -/
abbrev End := Nat × Except TransferError Unit

namespace Move

/-- What the count sees of a move. -/
def event : Move → Event
  | starts _ => .begin
  | ends _ result => .finish result
  | drains => .drain

def started? : Move → Option Nat
  | starts n => some n
  | _ => none

def ended? : Move → Option End
  | ends n result => some (n, result)
  | _ => none

end Move

/-- The operations that were started. -/
def started (moves : List Move) : List Nat := moves.filterMap Move.started?

/-- The ends in their order. -/
def ended (moves : List Move) : List End := moves.filterMap Move.ended?

/-- The answers so far and the count, after one more event. -/
def attend? (s : List (Except TransferError Nat) × Completion) (e : Event) :
    Option (List (Except TransferError Nat) × Completion) :=
  (s.2.step? e).map fun (answer, c) => (s.1 ++ answer.toList, c)

/-- What the drains among the moves answer, and the count after them, if all moves can be
made. -/
def run? (moves : List Move) : Option (List (Except TransferError Nat) × Completion) :=
  (moves.map Move.event).foldlM attend? ([], {})

/-- Whether a move may follow on earlier ones: an operation is started once, it ends once
and after its own start, and a drain takes effect only with nothing in flight. -/
def Permitted (earlier : List Move) : Move → Prop
  | .starts n => n ∉ started earlier
  | .ends n _ => n ∈ started earlier ∧ n ∉ (ended earlier).map Prod.fst
  | .drains => ∀ s ∈ run? earlier, s.2.inFlight = 0

instance (earlier : List Move) : (m : Move) → Decidable (Permitted earlier m)
  | .starts n => inferInstanceAs (Decidable (n ∉ started earlier))
  | .ends n _ =>
    inferInstanceAs (Decidable (n ∈ started earlier ∧ n ∉ (ended earlier).map Prod.fst))
  | .drains => inferInstanceAs (Decidable (∀ s ∈ run? earlier, s.2.inFlight = 0))

/-- Every move may follow on those before it. -/
def Orderly (moves : List Move) : Prop :=
  ∀ i : Fin moves.length, Permitted (moves.take i) (moves.get i)

instance (moves : List Move) : Decidable (Orderly moves) :=
  inferInstanceAs (Decidable (∀ _ : Fin moves.length, _))

variable {moves : List Move} {m : Move}

theorem Orderly.of_append {more : List Move} (h : Orderly (moves ++ more)) : Orderly moves := by
  intro i
  have hi := h ⟨i, by rw [List.length_append]; omega⟩
  rw [List.take_append_of_le_length (Nat.le_of_lt i.isLt)] at hi
  rwa [List.get_eq_getElem, List.getElem_append_left i.isLt] at hi

theorem Orderly.last (h : Orderly (moves ++ [m])) : Permitted moves m := by
  have hi := h ⟨moves.length, by simp⟩
  rwa [List.take_left, List.get_eq_getElem, List.getElem_concat_length rfl] at hi

theorem Orderly.take (h : Orderly moves) (n : Nat) : Orderly (moves.take n) := by
  have hsplit : Orderly (moves.take n ++ moves.drop n) := by rwa [List.take_append_drop]
  exact hsplit.of_append

theorem started_snoc (moves : List Move) (m : Move) :
    started (moves ++ [m]) = started moves ++ m.started?.toList := filterMap_snoc _ _ _

theorem ended_snoc (moves : List Move) (m : Move) :
    ended (moves ++ [m]) = ended moves ++ m.ended?.toList := filterMap_snoc _ _ _

theorem ended_ends (moves : List Move) (n : Nat) (result : Except TransferError Unit) :
    ended (moves ++ [.ends n result]) = ended moves ++ [(n, result)] := ended_snoc _ _

/-- Only an end adds to the ends. -/
theorem ended_snoc_of_none (hm : m.ended? = none) (moves : List Move) :
    ended (moves ++ [m]) = ended moves := by
  rw [ended_snoc, hm]
  exact List.append_nil _

theorem run?_snoc {s : List (Except TransferError Nat) × Completion} (h : run? moves = some s)
    (m : Move) : run? (moves ++ [m]) = attend? s m.event := by
  have hmoves : (moves.map Move.event).foldlM attend? ([], {}) = some s := h
  rw [run?, List.map_append, foldlM_append, hmoves, Option.bind_some, List.map_singleton,
    List.foldlM_cons]
  cases attend? s m.event <;> rfl

/-! ### What the drains take -/

/-- How a move changes what each drain took, and what no drain has taken yet. -/
def collect (s : List (List End) × List End) : Move → List (List End) × List End
  | .starts _ => s
  | .ends n result => (s.1, s.2 ++ [(n, result)])
  | .drains => (s.1 ++ [s.2], [])

def collected (moves : List Move) : List (List End) × List End := moves.foldl collect ([], [])

/-- The ends between a drain and the drain before it, for each drain. -/
def takings (moves : List Move) : List (List End) := (collected moves).1

/-- The ends since the last drain. -/
def untaken (moves : List Move) : List End := (collected moves).2

theorem collected_snoc (moves : List Move) (m : Move) :
    collected (moves ++ [m]) = collect (collected moves) m := List.foldl_concat _ _ _ _

/-- Every end is in the taking of one drain, or in none yet. -/
theorem flatten_takings (moves : List Move) :
    (takings moves).flatten ++ untaken moves = ended moves := by
  induction moves using List.reverseRecOn with
  | nil => rfl
  | append_singleton moves m ih =>
    rw [ended_snoc, ← ih, takings, untaken, collected_snoc]
    cases m with
    | starts n => exact (List.append_nil _).symm
    | ends n result => exact (List.append_assoc _ _ _).symm
    | drains => simp [collect, takings, untaken, Move.ended?]

/-- The failure that an end reports. -/
def fault? : End → Option TransferError
  | (_, .ok _) => none
  | (_, .error e) => some e

/-- What a drain says about the ends that it takes: how many they are, if all of them went
well, and the failure of the first that did not otherwise. -/
structure Answers (taken : List End) (answer : Except TransferError Nat) : Prop where
  ok_iff : ∀ k, answer = .ok k ↔ k = taken.length ∧ ∀ x ∈ taken, x.2 = .ok ()
  error_iff : ∀ e, answer = .error e ↔ ∃ before n after,
    taken = before ++ (n, .error e) :: after ∧ ∀ x ∈ before, x.2 = .ok ()

theorem fault?_eq_none_iff {x : End} : fault? x = none ↔ x.2 = .ok () := by
  obtain ⟨n, result⟩ := x
  cases result <;> simp [fault?]

theorem fault?_eq_some_iff {x : End} {e : TransferError} :
    fault? x = some e ↔ x = (x.1, .error e) := by
  obtain ⟨n, result⟩ := x
  cases result <;> simp [fault?]

theorem faults_eq_nil_iff {taken : List End} :
    taken.filterMap fault? = [] ↔ ∀ x ∈ taken, x.2 = .ok () := by
  simp only [List.filterMap_eq_nil_iff, fault?_eq_none_iff]

/-- The first failure is that of the first end that reports one. -/
theorem head?_faults_eq_some_iff {taken : List End} {e : TransferError} :
    (taken.filterMap fault?).head? = some e ↔ ∃ before n after,
      taken = before ++ (n, .error e) :: after ∧ ∀ x ∈ before, x.2 = .ok () := by
  constructor
  · intro h
    obtain ⟨more, hmore⟩ := List.head?_eq_some_iff.mp h
    obtain ⟨before, x, after, rfl, hbefore, hx, -⟩ := List.filterMap_eq_cons_iff.mp hmore
    exact ⟨before, x.1, after, by rw [← fault?_eq_some_iff.mp hx],
      fun y hy => fault?_eq_none_iff.mp (hbefore y hy)⟩
  · rintro ⟨before, n, after, rfl, hbefore⟩
    rw [List.filterMap_append, faults_eq_nil_iff.mpr hbefore]
    rfl

theorem answers_drain {taken : List End} {c : Completion}
    (hcompleted : c.completed = taken.length) (hfailures : c.failures = taken.filterMap fault?) :
    Answers taken c.drain.1 where
  ok_iff k := by
    rw [← faults_eq_nil_iff, ← hfailures, ← hcompleted, drain]
    cases c.failures <;> simp [eq_comm]
  error_iff e := by
    rw [← head?_faults_eq_some_iff, ← hfailures, drain]
    cases c.failures <;> simp

/-! ### Keeping account -/

/-- What the drains among the moves answered, and the count after the moves. -/
structure Accounted (moves : List Move) (answers : List (Except TransferError Nat))
    (c : Completion) : Prop where
  /-- What is in flight was started and has not ended. -/
  inFlight : c.inFlight + (ended moves).length = (started moves).length
  /-- Each drain answers for the ends since the drain before it. -/
  answers : List.Forall₂ Answers (takings moves) answers
  /-- Every end is in the taking of one drain or not taken yet ... -/
  once : (takings moves).flatten ++ untaken moves = ended moves
  /-- ... and is found there once, because no operation ends twice. -/
  distinct : ((ended moves).map Prod.fst).Nodup
  own : (ended moves).map Prod.fst ⊆ started moves
  /-- The count holds what is not taken yet, and nothing else. -/
  completed : c.completed = (untaken moves).length
  failures : c.failures = (untaken moves).filterMap fault?

namespace Accounted

variable {answers : List (Except TransferError Nat)} {c : Completion}

theorem empty : Accounted [] [] {} :=
  ⟨rfl, .nil, rfl, List.nodup_nil, List.nil_subset _, rfl, rfl⟩

/-- A start is counted. -/
theorem starts (h : Accounted moves answers c) (n : Nat) :
    Accounted (moves ++ [.starts n]) answers c.begin := by
  have hended : ended (moves ++ [.starts n]) = ended moves := ended_snoc_of_none rfl moves
  have hstarted := started_snoc moves (.starts n)
  have htaken := collected_snoc moves (.starts n)
  refine
    { inFlight := ?inFlight, answers := ?answers, once := flatten_takings _,
      distinct := ?distinct, own := ?own, completed := ?completed, failures := ?failures }
  case inFlight =>
    rw [hended, hstarted, List.length_append]
    exact (Nat.add_right_comm _ _ _).trans (congrArg (· + 1) h.inFlight)
  case answers =>
    rw [takings, htaken]
    exact h.answers
  case distinct =>
    rw [hended]
    exact h.distinct
  case own =>
    rw [hended, hstarted]
    exact List.subset_append_of_subset_left _ h.own
  case completed =>
    rw [untaken, htaken]
    exact h.completed
  case failures =>
    rw [untaken, htaken]
    exact h.failures

/-- An end is kept for the next drain. -/
theorem ends (h : Accounted moves answers c) (hpos : c.inFlight ≠ 0) {n : Nat}
    (hstarted : n ∈ started moves) (hnew : n ∉ (ended moves).map Prod.fst)
    (result : Except TransferError Unit) :
    Accounted (moves ++ [.ends n result]) answers (c.finish result) := by
  have htaken := collected_snoc moves (.ends n result)
  have hsame : started (moves ++ [.ends n result]) = started moves :=
    (started_snoc _ _).trans (List.append_nil _)
  refine
    { inFlight := ?inFlight, answers := ?answers, once := flatten_takings _,
      distinct := ?distinct, own := ?own, completed := ?completed, failures := ?failures }
  case inFlight =>
    have := h.inFlight
    rw [ended_ends, hsame, List.length_append]
    show c.inFlight - 1 + ((ended moves).length + 1) = _
    omega
  case answers =>
    rw [takings, htaken]
    exact h.answers
  case distinct =>
    rw [ended_ends, List.map_append]
    have hconcat := h.distinct.concat hnew
    rwa [List.concat_eq_append] at hconcat
  case own =>
    rw [ended_ends, List.map_append, hsame]
    exact List.append_subset.mpr ⟨h.own, List.cons_subset.mpr ⟨hstarted, List.nil_subset _⟩⟩
  case completed =>
    rw [untaken, htaken]
    show c.completed + 1 = (untaken moves ++ [_]).length
    rw [List.length_append, h.completed]
    rfl
  case failures =>
    rw [untaken, htaken]
    show (c.finish result).failures = (untaken moves ++ [(n, result)]).filterMap fault?
    rw [List.filterMap_append, ← h.failures]
    cases result with
    | ok _ => exact (List.append_nil _).symm
    | error e => rfl

/-- A drain takes all that is kept. -/
theorem drains (h : Accounted moves answers c) :
    Accounted (moves ++ [.drains]) (answers ++ [c.drain.1]) c.drain.2 := by
  have hended : ended (moves ++ [.drains]) = ended moves := ended_snoc_of_none rfl moves
  have hsame : started (moves ++ [.drains]) = started moves :=
    (started_snoc _ _).trans (List.append_nil _)
  have htaken := collected_snoc moves .drains
  refine
    { inFlight := ?inFlight, answers := ?answers, once := flatten_takings _,
      distinct := ?distinct, own := ?own, completed := ?completed, failures := ?failures }
  case inFlight =>
    rw [hended, hsame]
    exact h.inFlight
  case answers =>
    rw [takings, htaken]
    exact List.rel_append h.answers (.cons (answers_drain h.completed h.failures) .nil)
  case distinct =>
    rw [hended]
    exact h.distinct
  case own =>
    rw [hended, hsame]
    exact h.own
  case completed =>
    rw [untaken, htaken]
    rfl
  case failures =>
    rw [untaken, htaken]
    rfl

/-- An operation that may end is in flight, because it is one more than those that have
ended. -/
theorem inFlight_pos (h : Accounted moves answers c) {n : Nat} (hstarted : n ∈ started moves)
    (hnew : n ∉ (ended moves).map Prod.fst) : c.inFlight ≠ 0 := by
  have hnodup : (n :: (ended moves).map Prod.fst).Nodup := List.nodup_cons.mpr ⟨hnew, h.distinct⟩
  have hsub : n :: (ended moves).map Prod.fst ⊆ started moves :=
    List.cons_subset.mpr ⟨hstarted, h.own⟩
  have hle := (hnodup.subperm hsub).length_le
  have hcount := h.inFlight
  rw [List.length_cons, List.length_map] at hle
  omega

end Accounted

/-- Orderly moves can all be made, and are accounted for. -/
theorem exists_run? (h : Orderly moves) :
    ∃ answers c, run? moves = some (answers, c) ∧ Accounted moves answers c := by
  induction moves using List.reverseRecOn with
  | nil => exact ⟨[], {}, rfl, .empty⟩
  | append_singleton moves m ih =>
    obtain ⟨answers, c, hrun, hacc⟩ := ih h.of_append
    rw [run?_snoc hrun]
    cases m with
    | starts n =>
      have hstep : attend? (answers, c) .begin = some (answers, c.begin) := by
        simp [attend?, step?]
      exact ⟨answers, c.begin, hstep, hacc.starts n⟩
    | ends n result =>
      obtain ⟨hstarted, hnew⟩ : n ∈ started moves ∧ n ∉ (ended moves).map Prod.fst := h.last
      have hpos := hacc.inFlight_pos hstarted hnew
      have hstep : attend? (answers, c) (.finish result) = some (answers, c.finish result) := by
        simp [attend?, step?, hpos]
      exact ⟨answers, c.finish result, hstep, hacc.ends hpos hstarted hnew result⟩
    | drains =>
      have hidle : c.inFlight = 0 := h.last (answers, c) hrun
      have hstep : attend? (answers, c) .drain = some (answers ++ [c.drain.1], c.drain.2) := by
        simp [attend?, step?, hidle]
      exact ⟨answers ++ [c.drain.1], c.drain.2, hstep, hacc.drains⟩

/-- All along orderly moves the drains answer for the ends since the drain before, and what
is in flight is what was started and has not ended. -/
theorem accounted_of_orderly (h : Orderly moves) (n : Nat) :
    ∃ answers c, run? (moves.take n) = some (answers, c) ∧ Accounted (moves.take n) answers c :=
  exists_run? (h.take n)

/-- The first of two drains answers with a failure, and takes the successes around it too. -/
theorem accounted_of_orderly_two_drains :
    let moves : List Move := [.starts 1, .starts 2, .ends 2 (.ok ()), .starts 3,
      .ends 1 (.error (.notFound "a")), .ends 3 (.error (.notFound "b")), .drains, .starts 4,
      .ends 4 (.ok ()), .drains]
    Orderly moves ∧ run? moves = some ([.error (.notFound "a"), .ok 1], {}) ∧
      Accounted moves [.error (.notFound "a"), .ok 1] {} := by
  intro moves
  have horderly : Orderly moves := by decide
  have hvalue : run? moves = some ([.error (.notFound "a"), .ok 1], {}) := by decide
  obtain ⟨answers, c, hrun, hacc⟩ := accounted_of_orderly horderly 10
  cases hvalue.symm.trans hrun
  exact ⟨horderly, hvalue, hacc⟩

end Completion
end BlockTransfer
