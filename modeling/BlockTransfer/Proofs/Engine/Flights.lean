import BlockTransfer.Engine
import BlockTransfer.Proofs.Lookup
import BlockTransfer.Proofs.Operation.Carrying
import Mathlib.Data.List.Nodup
import Mathlib.Data.List.Pairwise
/-!
# Operations under way

What the single moves of an engine do to the operations under way: which of
them are found by their number, how many of their jobs have not ended
(`Engine.owed`), and whether an operation has only its end to be reported
(`Engine.due`).

Key definitions: `Engine.owed`, `Engine.due`.
Key theorems: `Engine.flight?_launch`, `Engine.flight?_note`,
`Engine.flight?_retire`, `Engine.flight?_report`.
-/

namespace BlockTransfer
namespace Engine

/-- How many jobs of an operation have not ended. -/
def owed (e : Engine) (n : Nat) : Nat := ((e.flight? n).map Flight.remaining).getD 0

/-- One for an operation whose jobs have all ended, zero for any other. -/
def due (e : Engine) (n : Nat) : Nat :=
  ((e.flight? n).map fun f => if f.remaining = 0 then 1 else 0).getD 0

/-- The numbers of the operations under way. -/
def numbers (e : Engine) : List Nat := e.flights.map Prod.fst

/-- The operations under way. -/
def operations (e : Engine) : List Operation := e.flights.map fun x => x.2.operation

variable {e e' : Engine} {n m : Nat} {f : Flight}

theorem flight?_congr (h : e.flights = e'.flights) (n : Nat) : e.flight? n = e'.flight? n := by
  simp only [flight?, h]

theorem flight?_eq_none_iff : e.flight? n = none ↔ n ∉ e.numbers := by
  simp only [flight?, numbers, List.lookup_eq_none_iff, List.mem_map, not_exists, not_and,
    bne_iff_ne]
  exact ⟨fun h x hx hn => h x hx hn.symm, fun h x hx hn => h x hx hn.symm⟩

theorem mem_flights_of_flight? (h : e.flight? n = some f) : (n, f) ∈ e.flights := by
  obtain ⟨l₁, l₂, hl, -⟩ := List.lookup_eq_some_iff.mp h
  rw [hl]
  simp

theorem mem_numbers_of_flight? (h : e.flight? n = some f) : n ∈ e.numbers :=
  List.mem_map.mpr ⟨_, mem_flights_of_flight? h, rfl⟩

theorem mem_operations_of_flight? (h : e.flight? n = some f) : f.operation ∈ e.operations :=
  List.mem_map.mpr ⟨_, mem_flights_of_flight? h, rfl⟩

theorem exists_flight? (h : n ∈ e.numbers) : ∃ f, e.flight? n = some f :=
  Option.ne_none_iff_exists'.mp fun hnone => flight?_eq_none_iff.mp hnone h

theorem flight?_of_owed_pos (h : 0 < e.owed n) : ∃ f, e.flight? n = some f ∧ 0 < f.remaining := by
  unfold owed at h
  cases hf : e.flight? n with
  | none => simp [hf] at h
  | some f => exact ⟨f, rfl, by simpa [hf] using h⟩

theorem owed_eq (h : e.flight? n = some f) : e.owed n = f.remaining := by
  rw [owed, h]
  rfl

theorem due_eq (h : e.flight? n = some f) : e.due n = if f.remaining = 0 then 1 else 0 := by
  rw [due, h]
  rfl

theorem due_le_one (e : Engine) (n : Nat) : e.due n ≤ 1 := by
  unfold due
  cases e.flight? n with
  | none => exact Nat.zero_le 1
  | some f =>
    show (if f.remaining = 0 then 1 else 0) ≤ 1
    split <;> omega

/-- An operation that is due is under way and owes nothing. -/
theorem flight?_of_due_pos (h : 0 < e.due n) : ∃ f, e.flight? n = some f ∧ f.remaining = 0 := by
  unfold due at h
  cases hf : e.flight? n with
  | none => simp [hf] at h
  | some f =>
    refine ⟨f, rfl, ?_⟩
    by_contra hr
    simp [hf, hr] at h

/-- The operation of that number, while it is under way. -/
def operation? (e : Engine) (n : Nat) : Option Operation := (e.flight? n).map Flight.operation

theorem operation?_congr (h : e.flights = e'.flights) (n : Nat) :
    e.operation? n = e'.operation? n := by
  rw [operation?, operation?, flight?_congr h]

theorem operations_congr (h : e.flights = e'.flights) : e.operations = e'.operations := by
  rw [operations, operations, h]

theorem operation?_of_flight? {f : Flight} (h : e.flight? n = some f) :
    e.operation? n = some f.operation := by
  rw [operation?, h, Option.map_some]

theorem flight?_of_operation? {o : Operation} (h : e.operation? n = some o) :
    ∃ f, e.flight? n = some f ∧ f.operation = o :=
  Option.map_eq_some_iff.mp h

theorem mem_operations {o : Operation} (h : e.operation? n = some o) : o ∈ e.operations := by
  obtain ⟨f, hf, rfl⟩ := flight?_of_operation? h
  exact mem_operations_of_flight? hf

/-- An operation under way is found by its number. -/
theorem exists_operation? {o : Operation} (hn : e.numbers.Nodup) (h : o ∈ e.operations) :
    ∃ n, e.operation? n = some o := by
  obtain ⟨⟨n, f⟩, hmem, rfl⟩ := List.mem_map.mp h
  obtain ⟨g, hg⟩ := exists_flight? (List.mem_map.mpr ⟨_, hmem, rfl⟩)
  have heq := List.inj_on_of_nodup_map hn hmem (mem_flights_of_flight? hg) rfl
  exact ⟨n, (operation?_of_flight? hg).trans (congrArg (fun x => some x.2.operation) heq.symm)⟩

/-- Of operations that are apart in pairs, two of different numbers are apart. -/
theorem apart_of_ne {o o' : Operation} (h : e.operations.Pairwise Operation.Apart)
    (hn : e.operation? n = some o) (hm : e.operation? m = some o') (hne : n ≠ m) : o.Apart o' := by
  obtain ⟨f, hf, rfl⟩ := flight?_of_operation? hn
  obtain ⟨g, hg, rfl⟩ := flight?_of_operation? hm
  have hpair : e.flights.Pairwise fun x y => x.2.operation.Apart y.2.operation :=
    List.pairwise_map.mp h
  have hsymm : Std.Symm fun x y : Nat × Flight => x.2.operation.Apart y.2.operation :=
    ⟨fun _ _ => Operation.Apart.symm⟩
  exact hpair.forall (mem_flights_of_flight? hf) (mem_flights_of_flight? hg)
    fun heq => hne (congrArg Prod.fst heq)

/-! ### Starting -/

theorem flight?_launch (e : Engine) (o : Operation) (jobs m : Nat)
    (h : e.flight? e.nextFlight = none) :
    (e.launch o jobs).2.flight? m =
      if m = e.nextFlight then some ⟨o, jobs, none⟩ else e.flight? m := by
  simp only [flight?, launch] at h ⊢
  rw [List.lookup_append]
  by_cases hm : m = e.nextFlight
  · rw [hm, h]
    simp
  · simp [List.lookup_cons, hm, beq_eq_false_iff_ne.mpr hm]

theorem operation?_launch (e : Engine) (o : Operation) (jobs m : Nat)
    (h : e.flight? e.nextFlight = none) :
    (e.launch o jobs).2.operation? m = if m = e.nextFlight then some o else e.operation? m := by
  rw [operation?, flight?_launch e o jobs m h]
  split <;> rfl

theorem operations_launch (e : Engine) (o : Operation) (jobs : Nat) :
    (e.launch o jobs).2.operations = e.operations ++ [o] := by
  simp [operations, launch]

theorem owed_launch (e : Engine) (o : Operation) (jobs m : Nat)
    (h : e.flight? e.nextFlight = none) :
    (e.launch o jobs).2.owed m = if m = e.nextFlight then jobs else e.owed m := by
  rw [owed, flight?_launch e o jobs m h]
  split <;> rfl

theorem due_launch (e : Engine) (o : Operation) (jobs m : Nat)
    (h : e.flight? e.nextFlight = none) :
    (e.launch o jobs).2.due m =
      if m = e.nextFlight then (if jobs = 0 then 1 else 0) else e.due m := by
  rw [due, flight?_launch e o jobs m h]
  split <;> rfl

/-! ### Replacing an operation under way -/

theorem flight?_setFlight (h : e.flight? n = some f) (g : Flight) (m : Nat) :
    (e.setFlight n g).flight? m = if m = n then some g else e.flight? m := by
  simp only [flight?, setFlight] at h ⊢
  rw [lookup_map_replace, h]
  simp

theorem numbers_setFlight (e : Engine) (n : Nat) (g : Flight) :
    (e.setFlight n g).numbers = e.numbers := by
  simp only [numbers, setFlight, List.map_map]
  refine List.map_congr_left fun x _ => ?_
  simp only [Function.comp_apply]
  split
  · rename_i hx
    exact hx.symm
  · rfl

theorem operations_setFlight (h : e.flight? n = some f) {g : Flight} (hn : e.numbers.Nodup)
    (hg : g.operation = f.operation) : (e.setFlight n g).operations = e.operations := by
  simp only [operations, setFlight, List.map_map]
  refine List.map_congr_left fun x hx => ?_
  simp only [Function.comp_apply]
  split
  · rename_i hxn
    -- the number occurs once, so the replaced entry is the one found
    have hmem := mem_flights_of_flight? h
    have heq : x = (n, f) := List.inj_on_of_nodup_map hn hx hmem hxn
    rw [heq]
    exact hg
  · rfl

/-! ### Noting a failure -/

theorem flight?_note (e : Engine) (n m : Nat) (error : TransferError) :
    (e.note n error).flight? m = if m = n then
        (e.flight? n).map fun f => { f with failure := some (f.failure.getD error) }
      else e.flight? m := by
  cases hf : e.flight? n with
  | none =>
    simp only [note, hf]
    split
    · rename_i hm
      rw [hm, hf]
      rfl
    · rfl
  | some f =>
    simp only [note, hf]
    exact flight?_setFlight hf _ m

@[simp] theorem owed_note (e : Engine) (n m : Nat) (error : TransferError) :
    (e.note n error).owed m = e.owed m := by
  rw [owed, owed, flight?_note]
  split
  · rename_i hm
    rw [hm]
    cases e.flight? n <;> rfl
  · rfl

@[simp] theorem due_note (e : Engine) (n m : Nat) (error : TransferError) :
    (e.note n error).due m = e.due m := by
  rw [due, due, flight?_note]
  split
  · rename_i hm
    rw [hm]
    cases e.flight? n <;> rfl
  · rfl

@[simp] theorem numbers_note (e : Engine) (n : Nat) (error : TransferError) :
    (e.note n error).numbers = e.numbers := by
  unfold note
  split
  · rfl
  · exact numbers_setFlight _ _ _

theorem operations_note (e : Engine) (n : Nat) (error : TransferError) (hn : e.numbers.Nodup) :
    (e.note n error).operations = e.operations := by
  unfold note
  split
  · rfl
  · rename_i f hf
    exact operations_setFlight hf hn rfl

@[simp] theorem inboxes_note (e : Engine) (n : Nat) (error : TransferError) :
    (e.note n error).inboxes = e.inboxes := by
  unfold note
  split <;> rfl

@[simp] theorem operation?_note (e : Engine) (n m : Nat) (error : TransferError) :
    (e.note n error).operation? m = e.operation? m := by
  rw [operation?, operation?, flight?_note]
  split
  · rename_i hm
    rw [hm]
    cases e.flight? n <;> rfl
  · rfl

/-- The engine after a job of that operation ended: a failure is noted. -/
def noteResult (e : Engine) (n : Nat) : Except TransferError Unit → Engine
  | .ok () => e
  | .error error => e.note n error

/-- Nothing but the operation's failure is touched. -/
theorem noteResult_same (e : Engine) (n : Nat) (result : Except TransferError Unit) :
    (e.noteResult n result).numbers = e.numbers ∧
      (e.noteResult n result).nextFlight = e.nextFlight ∧
      (e.noteResult n result).completion = e.completion ∧
      (∀ m, (e.noteResult n result).owed m = e.owed m) ∧
      ∀ m, (e.noteResult n result).due m = e.due m := by
  cases result with
  | ok _ => exact ⟨rfl, rfl, rfl, fun _ => rfl, fun _ => rfl⟩
  | error error =>
    refine ⟨numbers_note _ _ _, ?_, ?_, fun m => owed_note _ _ m _, fun m => due_note _ _ m _⟩
    all_goals
      simp only [noteResult, note]
      split <;> rfl

/-! ### A job ends -/

theorem retire_eq (h : e.flight? n = some f) :
    e.retire n = (decide (f.remaining = 1),
      e.setFlight n { f with remaining := f.remaining - 1 }) := by
  simp only [retire, h]

theorem flight?_retire (h : e.flight? n = some f) (m : Nat) :
    (e.retire n).2.flight? m =
      if m = n then some { f with remaining := f.remaining - 1 } else e.flight? m := by
  rw [retire_eq h, flight?_setFlight h]

@[simp] theorem operation?_retire (e : Engine) (n m : Nat) :
    (e.retire n).2.operation? m = e.operation? m := by
  cases hf : e.flight? n with
  | none => simp only [retire, hf]
  | some f =>
    rw [operation?, operation?, flight?_retire hf]
    split
    · rename_i hm
      rw [hm, hf]
      rfl
    · rfl

theorem owed_retire (h : e.flight? n = some f) (m : Nat) :
    (e.retire n).2.owed m = if m = n then f.remaining - 1 else e.owed m := by
  rw [owed, flight?_retire h]
  split <;> rfl

theorem due_retire (h : e.flight? n = some f) (m : Nat) :
    (e.retire n).2.due m = if m = n then (if f.remaining - 1 = 0 then 1 else 0) else e.due m := by
  rw [due, flight?_retire h]
  split <;> rfl

@[simp] theorem numbers_retire (e : Engine) (n : Nat) : (e.retire n).2.numbers = e.numbers := by
  unfold retire
  split
  · rfl
  · exact numbers_setFlight _ _ _

theorem operations_retire (e : Engine) (n : Nat) (hn : e.numbers.Nodup) :
    (e.retire n).2.operations = e.operations := by
  unfold retire
  split
  · rfl
  · rename_i f hf
    exact operations_setFlight hf hn rfl

@[simp] theorem inboxes_retire (e : Engine) (n : Nat) : (e.retire n).2.inboxes = e.inboxes := by
  unfold retire
  split <;> rfl

theorem retire_same (e : Engine) (n : Nat) :
    (e.retire n).2.nextFlight = e.nextFlight ∧ (e.retire n).2.completion = e.completion := by
  unfold retire
  split <;> exact ⟨rfl, rfl⟩

/-! ### An end is reported -/

theorem flight?_report (e : Engine) (n m : Nat) (result : Except TransferError Unit) :
    (e.report n result).flight? m = if m = n then none else e.flight? m := by
  simp only [flight?, report]
  exact lookup_filter_ne _

theorem operation?_report (e : Engine) (n m : Nat) (result : Except TransferError Unit) :
    (e.report n result).operation? m = if m = n then none else e.operation? m := by
  rw [operation?, flight?_report]
  split <;> rfl

theorem owed_report (e : Engine) (n m : Nat) (result : Except TransferError Unit) :
    (e.report n result).owed m = if m = n then 0 else e.owed m := by
  rw [owed, flight?_report]
  split <;> rfl

theorem due_report (e : Engine) (n m : Nat) (result : Except TransferError Unit) :
    (e.report n result).due m = if m = n then 0 else e.due m := by
  rw [due, flight?_report]
  split <;> rfl

theorem numbers_report (e : Engine) (n : Nat) (result : Except TransferError Unit) :
    (e.report n result).numbers = e.numbers.filter (· ≠ n) := by
  simp only [numbers, report, List.filter_map]
  rfl

/-- The operation reported is taken out from between the others. -/
theorem operations_report (h : e.flight? n = some f) (hn : e.numbers.Nodup)
    (result : Except TransferError Unit) : ∃ ops₁ ops₂,
      e.operations = ops₁ ++ f.operation :: ops₂ ∧
        (e.report n result).operations = ops₁ ++ ops₂ := by
  obtain ⟨l₁, l₂, hl, -⟩ := List.lookup_eq_some_iff.mp h
  have hn' : (l₁.map Prod.fst ++ n :: l₂.map Prod.fst).Nodup := by
    simpa [numbers, hl] using hn
  obtain ⟨-, hcons, hdisj⟩ := List.nodup_append.mp hn'
  have hkeep : ∀ {l : List (Nat × Flight)}, n ∉ l.map Prod.fst →
      l.filter (fun x => x.1 ≠ n) = l := by
    intro l hnot
    refine List.filter_eq_self.mpr fun x hx => ?_
    have hne : x.1 ≠ n := fun hxn => hnot (List.mem_map.mpr ⟨x, hx, hxn⟩)
    simpa using hne
  have h₁ := hkeep fun hmem => hdisj n hmem n List.mem_cons_self rfl
  have h₂ := hkeep (List.nodup_cons.mp hcons).1
  refine ⟨l₁.map fun x => x.2.operation, l₂.map fun x => x.2.operation, ?_, ?_⟩
  · simp [operations, hl]
  · simp only [operations, report, hl, List.filter_append, h₁]
    rw [List.filter_cons_of_neg (by simp), h₂, List.map_append]

theorem operations_report_sublist (e : Engine) (n : Nat) (result : Except TransferError Unit) :
    (e.report n result).operations.Sublist e.operations :=
  List.filter_sublist.map _

end Engine
end BlockTransfer
