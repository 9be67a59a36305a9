import BlockTransfer.Config.Layers
import BlockTransfer.Proofs.Config.Entries
import Mathlib.Data.List.Pairwise
/-!
# The order of a layer's entries

The entries of a layer come in any order. What they make of a value does not depend on
it, unless two of their keys overlap: one leads to what the other leads to, or to something
above or below it (`Layer.apply_perm`). Two keys that part at a name set different entries
of one table, and two that part at an index count different items from the front of one
list; both are set in any order (`Layer.update_comm`). An index that counts from the end
depends on the items there are, so it is taken to overlap with every other one.

Key definitions: `Layer.Apart`, `Layer.KeysApart`.
Key theorems: `Layer.update_comm`, `Layer.apply_perm`.
-/

namespace BlockTransfer

theorem Value.entryAt?_eq (k : String) (u : Value) :
    u.entryAt? k = (Layer.entriesOf u).lookup k := by
  cases u <;> rfl

namespace Layer

theorem entriesOf_table (es : List (String × Value)) : entriesOf (.table es) = es := rfl

variable {s t : List Step} {k l : String} {v w : Value} {xs : List Value} {n m : Nat}

/-! ### Steps -/

/-- Neither of two lists of steps leads to what the other leads to, above it or below. -/
def Apart : List Step → List Step → Prop
  | .name k :: s, .name l :: t => k ≠ l ∨ Apart s t
  | .index i :: s, .index j :: t => 0 ≤ i ∧ 0 ≤ j ∧ (i ≠ j ∨ Apart s t)
  | _, _ => False

instance decidableApart : (s t : List Step) → Decidable (Apart s t)
  | .name k :: s, .name l :: t =>
    have := decidableApart s t
    inferInstanceAs (Decidable (k ≠ l ∨ Apart s t))
  | .index i :: s, .index j :: t =>
    have := decidableApart s t
    inferInstanceAs (Decidable (0 ≤ i ∧ 0 ≤ j ∧ (i ≠ j ∨ Apart s t)))
  | [], _ | .name _ :: _, [] | .index _ :: _, [] | .name _ :: _, .index _ :: _
  | .index _ :: _, .name _ :: _ => isFalse id

theorem Apart.symm (h : Apart s t) : Apart t s := by
  induction s generalizing t with
  | nil => cases t <;> exact h.elim
  | cons a s ih =>
    cases t with
    | nil => cases a <;> exact h.elim
    | cons b t =>
      cases a <;> cases b
      · exact h.imp Ne.symm ih
      · exact h.elim
      · exact h.elim
      · exact ⟨h.2.1, h.1, h.2.2.imp Ne.symm ih⟩

/-- Setting what a name leads to sets an entry. -/
theorem update_name (f : Value → Value) (k : String) (rest : List Step) (u : Value) :
    update f (.name k :: rest) u =
      .table (Value.setEntry k (update f rest ((u.entryAt? k).getD .nil)) (entriesOf u)) := by
  rw [update, Value.entryAt?_eq]

/-! ### Items -/

/-- The items with one of them set, and those made that are missing before it. -/
def place (n : Nat) (v : Value) (xs : List Value) : List Value :=
  (xs ++ List.replicate (n + 1 - xs.length) Value.nil).set n v

theorem getElem?_pad (n m : Nat) (xs : List Value) :
    (xs ++ List.replicate (n + 1 - xs.length) Value.nil)[m]?.getD .nil = xs[m]?.getD .nil := by
  rw [List.getElem?_append]
  split
  · rfl
  · rename_i hm
    rw [List.getElem?_eq_none (Nat.le_of_not_lt hm), List.getElem?_replicate]
    split <;> rfl

theorem length_place (n : Nat) (v : Value) (xs : List Value) :
    (place n v xs).length = max xs.length (n + 1) := by
  simp only [place, List.length_set, List.length_append, List.length_replicate]
  omega

theorem getElem?_place (n m : Nat) (v : Value) (xs : List Value) :
    (place n v xs)[m]?.getD .nil = if n = m then v else xs[m]?.getD .nil := by
  rw [place, List.getElem?_set]
  split
  · rename_i hm
    subst hm
    rw [if_pos]
    · rfl
    · simp only [List.length_append, List.length_replicate]
      omega
  · exact getElem?_pad n m xs

theorem ext_of_getD {xs ys : List Value} (hlen : xs.length = ys.length)
    (h : ∀ m : Nat, xs[m]?.getD Value.nil = ys[m]?.getD .nil) : xs = ys := by
  refine List.ext_getElem hlen fun m hm hm' => ?_
  simpa [hm, hm'] using h m

theorem place_place (n : Nat) (v w : Value) (xs : List Value) :
    place n v (place n w xs) = place n v xs := by
  refine ext_of_getD (by simp only [length_place]; omega) fun m => ?_
  simp only [getElem?_place]
  split <;> rfl

theorem place_comm (h : n ≠ m) (v w : Value) (xs : List Value) :
    place n v (place m w xs) = place m w (place n v xs) := by
  refine ext_of_getD (by simp only [length_place]; omega) fun i => ?_
  simp only [getElem?_place]
  split
  · rename_i hn
    rw [if_neg fun hm => h (hn.trans hm.symm)]
  · rfl

/-- Setting what an index from the front leads to sets an item. -/
theorem update_index {i : Int} (hi : 0 ≤ i) (f : Value → Value) (rest : List Step) (u : Value) :
    update f (.index i :: rest) u = .list (place i.toNat
      (update f rest (((itemsOf u)[i.toNat]?).getD .nil)) (itemsOf u)) := by
  rw [update, position, if_pos hi]
  simp only [List.replicate_zero, List.nil_append, getElem?_pad]
  rfl

/-! ### Setting and laying in any order -/

/-- What is set at steps that are apart is set in any order. -/
theorem update_comm (h : Apart s t) (f g : Value → Value) (u : Value) :
    update f s (update g t u) = update g t (update f s u) := by
  induction s generalizing t u with
  | nil => cases t <;> exact h.elim
  | cons a s ih =>
    cases t with
    | nil => cases a <;> exact h.elim
    | cons b t =>
      cases a with
      | name k =>
        cases b with
        | name l =>
          simp only [update_name, Value.entryAt?_eq, entriesOf_table, Value.lookup_setEntry]
          by_cases hk : k = l
          · subst hk
            simp only [if_true, Option.getD_some, Value.setEntry_setEntry]
            rw [ih (h.resolve_left (not_not.mpr rfl))]
          · rw [if_neg hk, if_neg (Ne.symm hk), Value.setEntry_comm hk]
        | index j => exact h.elim
      | index i =>
        cases b with
        | name l => exact h.elim
        | index j =>
          obtain ⟨hi, hj, h⟩ := h
          simp only [update_index hi, update_index hj, itemsOf, getElem?_place]
          by_cases hij : i = j
          · subst hij
            simp only [if_true, place_place]
            rw [ih (h.resolve_left (not_not.mpr rfl))]
          · have hne : i.toNat ≠ j.toNat := by omega
            rw [if_neg hne, if_neg hne.symm, place_comm hne]

/-- The steps of a key with the first name. -/
def allSteps (key : String) : List Step := .name (steps key).1 :: (steps key).2

/-- The keys of two entries do not overlap. -/
def EntriesApart (a b : String × Value) : Prop := Apart (allSteps a.1) (allSteps b.1)

instance : Std.Symm EntriesApart := ⟨fun _ _ => Apart.symm⟩

instance : DecidableRel EntriesApart := fun a b =>
  inferInstanceAs (Decidable (Apart (allSteps a.1) (allSteps b.1)))

/-- No two keys of a layer overlap. -/
def KeysApart (layer : List (String × Value)) : Prop := layer.Pairwise EntriesApart

instance (layer : List (String × Value)) : Decidable (KeysApart layer) :=
  inferInstanceAs (Decidable (layer.Pairwise EntriesApart))

/-- A layer whose keys do not overlap makes the same in every order. -/
theorem apply_perm {layer layer' : List (String × Value)} (hapart : KeysApart layer)
    (h : layer'.Perm layer) (root : Value) : apply root layer' = apply root layer := by
  refine List.Perm.foldl_eq' h (fun a ha b hb u => ?_) root
  by_cases hab : a = b
  · rw [hab]
  · exact update_comm (hapart.forall (h.mem_iff.mp hb) (h.mem_iff.mp ha) (Ne.symm hab)) _ _ u

/-! ### The environment -/

section

variable {envPrefix name key text : String} {env : Variables} {layer : List (String × Value)}

theorem setVariable_some (h : variableKey? envPrefix name = some key)
    (layer : List (String × Value)) (text : String) : setVariable envPrefix layer (name, text) =
      Value.setEntry key (variableValue text) layer := by
  simp only [setVariable, h]

theorem setVariable_none (h : variableKey? envPrefix name = none)
    (layer : List (String × Value)) (text : String) :
    setVariable envPrefix layer (name, text) = layer := by
  simp only [setVariable, h]

theorem mem_keys_foldl_iff : key ∈ (env.foldl (setVariable envPrefix) layer).map Prod.fst ↔
    key ∈ layer.map Prod.fst ∨ ∃ x ∈ env, variableKey? envPrefix x.1 = some key := by
  induction env generalizing layer with
  | nil => simp
  | cons x env ih =>
    obtain ⟨name, text⟩ := x
    rw [List.foldl_cons, ih, List.exists_mem_cons_iff]
    cases hkey : variableKey? envPrefix name with
    | none => simp [setVariable_none hkey]
    | some k =>
      rw [setVariable_some hkey, Value.mem_keys_setEntry_iff, or_comm (a := key = k), or_assoc,
        Option.some.injEq, eq_comm]

/-- A variable whose key no later one sets is as good as the last one. -/
theorem foldl_setEntry {v : Value} (h : ∀ x ∈ env, variableKey? envPrefix x.1 ≠ some key) :
    env.foldl (setVariable envPrefix) (Value.setEntry key v layer) =
      Value.setEntry key v (env.foldl (setVariable envPrefix) layer) := by
  induction env generalizing layer with
  | nil => rfl
  | cons x env ih =>
    obtain ⟨hfirst, hrest⟩ := List.forall_mem_cons.mp h
    obtain ⟨name, text⟩ := x
    rw [List.foldl_cons, List.foldl_cons]
    cases hkey : variableKey? envPrefix name with
    | none => rw [setVariable_none hkey, setVariable_none hkey, ih hrest]
    | some k =>
      have hne : k ≠ key := fun heq => hfirst (heq ▸ hkey)
      rw [setVariable_some hkey, setVariable_some hkey, Value.setEntry_comm hne, ih hrest]

/-- A variable adds an entry to the layer of the others, if none of them sets its key. -/
theorem perm_ofEnvironment {before after : Variables} (h : variableKey? envPrefix name = some key)
    (hnew : key ∉ (ofEnvironment envPrefix (before ++ after)).map Prod.fst) (text : String) :
    (ofEnvironment envPrefix (before ++ (name, text) :: after)).Perm
      ((key, variableValue text) :: ofEnvironment envPrefix (before ++ after)) := by
  have hafter : ∀ x ∈ after, variableKey? envPrefix x.1 ≠ some key := fun x hx hkey =>
    hnew (mem_keys_foldl_iff.mpr (.inr ⟨x, List.mem_append_right _ hx, hkey⟩))
  rw [ofEnvironment, List.foldl_append, List.foldl_cons, setVariable_some h,
    foldl_setEntry hafter, ← List.foldl_append]
  exact Value.perm_setEntry hnew _

/-- Every entry of the environment's layer has what the text of a variable is guessed to be. -/
theorem exists_text_of_mem (envPrefix : String) (env : Variables) :
    ∀ e ∈ ofEnvironment envPrefix env, ∃ text, e.2 = variableValue text := by
  refine List.foldlRecOn (motive := fun layer => ∀ e ∈ layer, ∃ text, e.2 = variableValue text) env
    (setVariable envPrefix) (List.forall_mem_nil _) fun layer h x _ e he => ?_
  obtain ⟨name, text⟩ := x
  cases hkey : variableKey? envPrefix name with
  | none => exact h e (setVariable_none hkey layer text ▸ he)
  | some key =>
    rw [setVariable_some hkey] at he
    rcases Value.mem_setEntry he with rfl | he
    · exact ⟨text, rfl⟩
    · exact h e he

end

end Layer
end BlockTransfer
