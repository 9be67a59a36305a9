import Mathlib.Algebra.GroupWithZero.Nat
import Mathlib.Data.List.Induction
/-!
# Parties that take turns

Whose turn it is makes a move and becomes another element of the list of the
parties; the rest stay. What all of them give together changes by what that one
gave and gives.

A journal grows at its end; what is read off it grows with it.

A schedule says whose turn it is, move by move; it runs if every move can be
made. What holds at the start and is kept by every move holds after every
schedule that runs.

Key theorems: `flatMap_set_perm`, `sum_map_set`, `filterMap_snoc`, `foldlM_induction`.
-/

namespace BlockTransfer

/-! ### One element of a list replaced -/

section

variable {α β : Type} {l : List α} {i : Nat} {a : α}

/-- What the old element gave goes, what the new one gives comes. -/
theorem flatMap_set_perm (f : α → List β) (h : l[i]? = some a) (b : α) :
    (f a ++ (l.set i b).flatMap f).Perm (f b ++ l.flatMap f) := by
  induction l generalizing i with
  | nil => simp at h
  | cons x l ih =>
    cases i with
    | zero =>
      cases h
      exact List.perm_append_comm_assoc _ _ _
    | succ i =>
      have hi : l[i]? = some a := by simpa using h
      rw [List.set_cons_succ, List.flatMap_cons, List.flatMap_cons]
      refine (List.perm_append_comm_assoc _ _ _).trans ?_
      exact ((ih hi).append_left _).trans (List.perm_append_comm_assoc _ _ _)

theorem count_flatMap_set [BEq β] (f : α → List β) (h : l[i]? = some a) (b : α) (x : β) :
    (f a).count x + ((l.set i b).flatMap f).count x = (f b).count x + (l.flatMap f).count x := by
  have := (flatMap_set_perm f h b).count_eq x
  rwa [List.count_append, List.count_append] at this

/-- One who gives what the old one gave changes nothing. -/
theorem count_flatMap_set_of_eq [BEq β] (f : α → List β) (h : l[i]? = some a) {b : α}
    (hf : f b = f a) (x : β) : ((l.set i b).flatMap f).count x = (l.flatMap f).count x := by
  have := count_flatMap_set f h b x
  rw [hf] at this
  exact Nat.add_left_cancel this

theorem count_flatMap_pos [BEq β] [LawfulBEq β] (f : α → List β) (h : l[i]? = some a) {x : β}
    (hx : x ∈ f a) : 0 < (l.flatMap f).count x :=
  List.count_pos_iff.mpr (List.mem_flatMap.mpr ⟨a, List.mem_of_getElem? h, hx⟩)

theorem count_flatMap_eq_zero [BEq β] (f : α → List β) (h : ∀ a ∈ l, f a = []) (x : β) :
    (l.flatMap f).count x = 0 := by
  rw [List.flatMap_eq_nil_iff.mpr h, List.count_nil]

theorem sum_map_set (f : α → Nat) (h : l[i]? = some a) (b : α) :
    ((l.set i b).map f).sum + f a = (l.map f).sum + f b := by
  induction l generalizing i with
  | nil => simp at h
  | cons x l ih =>
    cases i with
    | zero =>
      cases h
      simp only [List.set_cons_zero, List.map_cons, List.sum_cons]
      omega
    | succ i =>
      have := ih (i := i) (by simpa using h)
      simp only [List.set_cons_succ, List.map_cons, List.sum_cons]
      omega

end

/-! ### Journals -/

/-- What is read off a journal grows by what its last entry gives. -/
theorem filterMap_snoc {α β : Type} (f : α → Option β) (l : List α) (a : α) :
    (l ++ [a]).filterMap f = l.filterMap f ++ (f a).toList := by
  rw [List.filterMap_append]
  cases h : f a <;> simp [h]

/-! ### Schedules -/

section

variable {X E : Type} {step? : X → E → Option X} {x : X}

theorem foldlM_append (step? : X → E → Option X) (x : X) (before after : List E) :
    (before ++ after).foldlM step? x =
      (before.foldlM step? x).bind fun u => after.foldlM step? u := by
  rw [List.foldlM_append]
  rfl

/-- What holds at the start and after every step from where it holds, given the
schedule so far, holds after every schedule. -/
theorem foldlM_induction {P : List E → X → Prop} (h₀ : P [] x)
    (hstep : ∀ before u e u', before.foldlM step? x = some u → P before u →
      step? u e = some u' → P (before ++ [e]) u') :
    ∀ {schedule : List E} {x' : X}, schedule.foldlM step? x = some x' → P schedule x' := by
  intro schedule
  induction schedule using List.reverseRecOn with
  | nil =>
    intro x' h
    cases h
    exact h₀
  | append_singleton before e ih =>
    intro x' h
    rw [foldlM_append] at h
    obtain ⟨u, hu, h⟩ := Option.bind_eq_some_iff.mp h
    obtain ⟨u', hu', h⟩ := Option.bind_eq_some_iff.mp h
    cases h
    exact hstep before u e _ hu (ih hu) hu'

end

end BlockTransfer
