import BlockTransfer.Value
import Mathlib.Data.List.Basic
import Mathlib.Data.String.Basic
/-!
# Entries of tables

An entry that is set in a list of entries is found there, and the others are found as
before (`Value.lookup_setEntry`). Entries that are set one after the other make the same
list in every order, if their keys differ (`Value.setEntry_comm`): a new entry comes before
the first that has a greater key, whatever came before it.

Key theorems: `Value.lookup_setEntry`, `Value.setEntry_setEntry`, `Value.setEntry_comm`,
`Value.perm_setEntry`.
-/

namespace BlockTransfer
namespace Value

variable {k l : String} {v w r : Value} {e : String × Value} {es : List (String × Value)}

/-! ### Replacing an entry -/

/-- The entries with those of a key replaced. -/
def replaceEntry (k : String) (v : Value) (es : List (String × Value)) : List (String × Value) :=
  es.map fun e => if e.1 = k then (k, v) else e

theorem setEntry_of_mem (h : k ∈ es.map Prod.fst) (v : Value) :
    setEntry k v es = replaceEntry k v es := if_pos h

theorem setEntry_of_notMem (h : k ∉ es.map Prod.fst) (v : Value) :
    setEntry k v es = insertEntry k v es := if_neg h

theorem replaceEntry_cons (k : String) (v : Value) (e : String × Value)
    (es : List (String × Value)) : replaceEntry k v (e :: es) =
      (if e.1 = k then (k, v) else e) :: replaceEntry k v es := rfl

theorem replaceEntry_of_notMem (h : k ∉ es.map Prod.fst) (v : Value) : replaceEntry k v es = es :=
  calc replaceEntry k v es = es.map id := List.map_congr_left fun e he =>
        if_neg fun hk : e.1 = k => h (hk ▸ List.mem_map_of_mem he)
    _ = es := List.map_id es

theorem keys_replaceEntry (k : String) (v : Value) (es : List (String × Value)) :
    (replaceEntry k v es).map Prod.fst = es.map Prod.fst := by
  rw [replaceEntry, List.map_map]
  refine List.map_congr_left fun e _ => ?_
  show (if e.1 = k then (k, v) else e).1 = e.1
  split
  · rename_i hk
    exact hk.symm
  · rfl

theorem replaceEntry_replaceEntry (k : String) (v w : Value) (es : List (String × Value)) :
    replaceEntry k v (replaceEntry k w es) = replaceEntry k v es := by
  rw [replaceEntry, replaceEntry, List.map_map]
  refine List.map_congr_left fun e _ => ?_
  show (if (if e.1 = k then (k, w) else e).1 = k then (k, v) else _) = _
  split <;> simp_all

theorem replaceEntry_comm (h : k ≠ l) (v w : Value) (es : List (String × Value)) :
    replaceEntry k v (replaceEntry l w es) = replaceEntry l w (replaceEntry k v es) := by
  simp only [replaceEntry, List.map_map]
  refine List.map_congr_left fun e _ => ?_
  simp only [Function.comp_apply]
  by_cases hk : e.1 = k
  · rw [if_neg (show e.1 ≠ l from hk ▸ h), if_pos hk, if_neg (show (k, v).1 ≠ l from h)]
  · by_cases hl : e.1 = l
    · rw [if_pos hl, if_neg hk, if_neg (show (l, w).1 ≠ k from h.symm), if_pos hl]
    · rw [if_neg hl, if_neg hk, if_neg hl]

/-! ### A new entry -/

theorem insertEntry_cons_of_lt (h : k < e.1) (v : Value) (es : List (String × Value)) :
    insertEntry k v (e :: es) = (k, v) :: e :: es := if_pos h

theorem insertEntry_cons_of_not_lt (h : ¬k < e.1) (v : Value) (es : List (String × Value)) :
    insertEntry k v (e :: es) = e :: insertEntry k v es := if_neg h

theorem perm_insertEntry (k : String) (v : Value) (es : List (String × Value)) :
    (insertEntry k v es).Perm ((k, v) :: es) := by
  induction es with
  | nil => exact .refl _
  | cons e es ih =>
    rw [insertEntry]
    split
    · exact .refl _
    · exact (ih.cons e).trans (.swap ..)

/-- Which key stands where does not depend on the values. -/
theorem replaceEntry_insertEntry (h : k ≠ l) (v w : Value) (es : List (String × Value)) :
    replaceEntry k v (insertEntry l w es) = insertEntry l w (replaceEntry k v es) := by
  have hnew : (if (l, w).1 = k then (k, v) else (l, w)) = (l, w) := if_neg h.symm
  induction es with
  | nil => rw [insertEntry, replaceEntry_cons, hnew]; rfl
  | cons e es ih =>
    have hkey : (if e.1 = k then (k, v) else e).1 = e.1 := by
      split
      · rename_i hk
        exact hk.symm
      · rfl
    by_cases hlt : l < e.1
    · rw [insertEntry_cons_of_lt hlt, replaceEntry_cons, replaceEntry_cons, hnew,
        insertEntry_cons_of_lt (hkey.symm ▸ hlt)]
    · rw [insertEntry_cons_of_not_lt hlt, replaceEntry_cons, replaceEntry_cons, ih,
        insertEntry_cons_of_not_lt (hkey.symm ▸ hlt)]

/-- A new entry that is replaced is as good as one with the later value. -/
theorem replaceEntry_insertEntry_self (h : k ∉ es.map Prod.fst) (v w : Value) :
    replaceEntry k v (insertEntry k w es) = insertEntry k v es := by
  induction es with
  | nil => exact congrArg (· :: []) (if_pos rfl)
  | cons e es ih =>
    obtain ⟨hne, hrest⟩ := not_or.mp fun hmem => h (List.mem_cons.mpr hmem)
    by_cases hlt : k < e.1
    · rw [insertEntry_cons_of_lt hlt, insertEntry_cons_of_lt hlt, replaceEntry_cons, if_pos rfl,
        replaceEntry_of_notMem h]
    · rw [insertEntry_cons_of_not_lt hlt, insertEntry_cons_of_not_lt hlt, replaceEntry_cons,
        if_neg (Ne.symm hne), ih hrest]

theorem insertEntry_comm_of_lt (h : k < l) (v w : Value) (es : List (String × Value)) :
    insertEntry k v (insertEntry l w es) = insertEntry l w (insertEntry k v es) := by
  have hback (more : List (String × Value)) :
      insertEntry l w ((k, v) :: more) = (k, v) :: insertEntry l w more :=
    insertEntry_cons_of_not_lt (lt_asymm h) w more
  induction es with
  | nil => exact (insertEntry_cons_of_lt h v []).trans (hback []).symm
  | cons e es ih =>
    by_cases hl : l < e.1
    · rw [insertEntry_cons_of_lt hl, insertEntry_cons_of_lt h, insertEntry_cons_of_lt (h.trans hl),
        hback, insertEntry_cons_of_lt hl]
    · by_cases hk : k < e.1
      · rw [insertEntry_cons_of_not_lt hl, insertEntry_cons_of_lt hk, insertEntry_cons_of_lt hk,
          hback, insertEntry_cons_of_not_lt hl]
      · rw [insertEntry_cons_of_not_lt hl, insertEntry_cons_of_not_lt hk,
          insertEntry_cons_of_not_lt hk, insertEntry_cons_of_not_lt hl, ih]

theorem insertEntry_comm (h : k ≠ l) (v w : Value) (es : List (String × Value)) :
    insertEntry k v (insertEntry l w es) = insertEntry l w (insertEntry k v es) := by
  rcases lt_or_gt_of_ne h with hlt | hgt
  · exact insertEntry_comm_of_lt hlt v w es
  · exact (insertEntry_comm_of_lt hgt w v es).symm

/-! ### Setting an entry -/

/-- A new entry makes a list one longer, in some order. -/
theorem perm_setEntry (h : k ∉ es.map Prod.fst) (v : Value) :
    (setEntry k v es).Perm ((k, v) :: es) :=
  setEntry_of_notMem h v ▸ perm_insertEntry k v es

theorem mem_keys_setEntry_iff :
    l ∈ (setEntry k w es).map Prod.fst ↔ l = k ∨ l ∈ es.map Prod.fst := by
  by_cases h : k ∈ es.map Prod.fst
  · rw [setEntry_of_mem h, keys_replaceEntry]
    exact ⟨.inr, fun hl => hl.elim (fun heq => heq ▸ h) id⟩
  · rw [((perm_setEntry h w).map Prod.fst).mem_iff, List.map_cons, List.mem_cons]

theorem nodup_keys_setEntry (h : (es.map Prod.fst).Nodup) :
    ((setEntry k w es).map Prod.fst).Nodup := by
  by_cases hk : k ∈ es.map Prod.fst
  · rwa [setEntry_of_mem hk, keys_replaceEntry]
  · exact ((perm_setEntry hk w).map Prod.fst).nodup_iff.mpr (List.nodup_cons.mpr ⟨hk, h⟩)

theorem setEntry_ne_nil : setEntry k w es ≠ [] := by
  intro h
  have hk : k ∈ (setEntry k w es).map Prod.fst := mem_keys_setEntry_iff.mpr (.inl rfl)
  rw [h] at hk
  cases hk

theorem mem_setEntry (h : e ∈ setEntry k r es) : e = (k, r) ∨ e ∈ es := by
  by_cases hk : k ∈ es.map Prod.fst
  · rw [setEntry_of_mem hk] at h
    obtain ⟨e', he', rfl⟩ := List.mem_map.mp h
    split
    · exact .inl rfl
    · exact .inr he'
  · exact List.mem_cons.mp ((perm_setEntry hk r).mem_iff.mp h)

/-- An entry is found as it was set, and the others as they were. -/
theorem lookup_setEntry : (setEntry k r es).lookup l = if l = k then some r else es.lookup l := by
  have hcons (e : String × Value) (es : List (String × Value)) :
      (e :: es).lookup l = if l = e.1 then some e.2 else es.lookup l := by
    rw [List.lookup_cons]
    split <;> simp_all
  by_cases hk : k ∈ es.map Prod.fst
  · rw [setEntry_of_mem hk]
    induction es with
    | nil => cases hk
    | cons e es ih =>
      rw [replaceEntry_cons, hcons, hcons]
      by_cases he : e.1 = k
      · rw [if_pos he]
        by_cases hl : l = k
        · rw [if_pos hl, if_pos hl]
        · rw [if_neg hl, if_neg hl, if_neg (he ▸ hl)]
          by_cases hrest : k ∈ es.map Prod.fst
          · rw [ih hrest, if_neg hl]
          · rw [replaceEntry_of_notMem hrest]
      · rw [if_neg he, ih ((List.mem_cons.mp hk).resolve_left (Ne.symm he))]
        by_cases hl : l = k
        · rw [if_pos hl, if_pos hl, if_neg (hl ▸ Ne.symm he)]
        · rw [if_neg hl, if_neg hl]
  · rw [setEntry_of_notMem hk]
    induction es with
    | nil => exact hcons _ _
    | cons e es ih =>
      obtain ⟨hne, hrest⟩ := not_or.mp fun hmem => hk (List.mem_cons.mpr hmem)
      rw [insertEntry]
      split
      · exact hcons _ _
      · rw [hcons, hcons, ih hrest]
        by_cases hl : l = k
        · rw [if_pos hl, if_pos hl, if_neg (hl ▸ hne)]
        · rw [if_neg hl, if_neg hl]

/-- The later value counts. -/
theorem setEntry_setEntry (k : String) (v w : Value) (es : List (String × Value)) :
    setEntry k v (setEntry k w es) = setEntry k v es := by
  rw [setEntry_of_mem (mem_keys_setEntry_iff.mpr (.inl rfl))]
  by_cases h : k ∈ es.map Prod.fst
  · rw [setEntry_of_mem h, setEntry_of_mem h, replaceEntry_replaceEntry]
  · rw [setEntry_of_notMem h, setEntry_of_notMem h, replaceEntry_insertEntry_self h]

/-- Entries with different keys are set in any order. -/
theorem setEntry_comm (h : k ≠ l) (v w : Value) (es : List (String × Value)) :
    setEntry k v (setEntry l w es) = setEntry l w (setEntry k v es) := by
  have hmem {k l : String} (h : k ≠ l) (w : Value) :
      k ∈ (setEntry l w es).map Prod.fst ↔ k ∈ es.map Prod.fst :=
    mem_keys_setEntry_iff.trans (or_iff_right h)
  by_cases hk : k ∈ es.map Prod.fst
  · rw [setEntry_of_mem ((hmem h w).mpr hk), setEntry_of_mem hk]
    by_cases hl : l ∈ es.map Prod.fst
    · rw [setEntry_of_mem hl, setEntry_of_mem (by rwa [keys_replaceEntry]), replaceEntry_comm h]
    · rw [setEntry_of_notMem hl, setEntry_of_notMem (by rwa [keys_replaceEntry]),
        replaceEntry_insertEntry h]
  · rw [setEntry_of_notMem (mt (hmem h w).mp hk), setEntry_of_notMem hk]
    by_cases hl : l ∈ es.map Prod.fst
    · rw [setEntry_of_mem hl, ← setEntry_of_notMem hk,
        setEntry_of_mem ((hmem h.symm v).mpr hl), setEntry_of_notMem hk,
        replaceEntry_insertEntry h.symm]
    · rw [setEntry_of_notMem hl, ← setEntry_of_notMem hk,
        setEntry_of_notMem (mt (hmem h.symm v).mp hl), setEntry_of_notMem hk,
        insertEntry_comm h]

end Value
end BlockTransfer
