import Mathlib.Data.List.Basic
/-!
# Association lists with an entry replaced or removed

Files and operations under way are both kept in a list of pairs. What a lookup
finds after an entry is replaced in place or taken out is the same for both.

Key theorems: `lookup_map_replace`, `lookup_filter_ne`.
-/

namespace BlockTransfer

variable {α β : Type} [BEq α] [LawfulBEq α] [DecidableEq α] {k k' : α}

theorem lookup_map_replace (b : β) : ∀ l : List (α × β),
    (l.map fun x => if x.1 = k then (k, b) else x).lookup k' =
      if k' = k ∧ (l.lookup k).isSome then some b else l.lookup k'
  | [] => by simp
  | (a, x) :: l => by
    have ih := lookup_map_replace b l
    by_cases ha : a = k
    · subst ha
      by_cases hk : k' = a
      · simp [hk]
      · simp [List.lookup_cons, beq_eq_false_iff_ne.mpr hk, hk, ih]
    · by_cases hk : k' = a
      · subst hk
        simp [ha]
      · have hne : (k == a) = false := beq_eq_false_iff_ne.mpr fun h => ha h.symm
        rw [List.map_cons, if_neg ha, List.lookup_cons, beq_eq_false_iff_ne.mpr hk, ih,
          List.lookup_cons, hne, List.lookup_cons, beq_eq_false_iff_ne.mpr hk]

theorem lookup_filter_ne : ∀ l : List (α × β),
    (l.filter fun x => x.1 ≠ k).lookup k' = if k' = k then none else l.lookup k'
  | [] => by simp
  | (a, x) :: l => by
    have ih := lookup_filter_ne l
    by_cases ha : a = k
    · subst ha
      rw [List.filter_cons_of_neg (by simp), ih, List.lookup_cons]
      by_cases hk : k' = a
      · rw [if_pos hk, if_pos hk]
      · rw [if_neg hk, if_neg hk, beq_eq_false_iff_ne.mpr hk]
    · rw [List.filter_cons_of_pos (by simpa using ha), List.lookup_cons, List.lookup_cons, ih]
      by_cases hk : k' = a
      · subst hk
        simp [ha]
      · rw [beq_eq_false_iff_ne.mpr hk]

end BlockTransfer
