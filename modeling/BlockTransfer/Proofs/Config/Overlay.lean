import BlockTransfer.Proofs.Config.Laying
/-!
# One layer laid over two values

A layer of plain values is laid over two values that differ. What stands in a section
of both afterwards hangs together with what stood there before (`Layer.Hang`): either
nothing was set at it, or what was set makes it the same in both, or it is a section in
both with entries that hang together in turn, or in both it is nothing that could be
read as a setting.

The one exception is a key that sets an item of a list. Where one value has a list with
items and the other has a table, what comes out differs (`Layer.Field.Below`).

Key definitions: `Layer.Tie`, `Layer.Hang`, `Layer.Field`, `Layer.Tied`.
Key theorems: `Layer.lasts_setting`, `Layer.lasts_section`, `Layer.sections_apply`.
-/

namespace BlockTransfer

open Layer (entriesOf itemsOf Step update)

namespace Layer

open Value

variable {u w : Value} {k : String} {rest : List Step}

/-- Setting an item depends on the items that are there alone. -/
theorem update_index_congr (h : itemsOf u = itemsOf w) (f : Value → Value) (i : Int)
    (rest : List Step) : update f (.index i :: rest) u = update f (.index i :: rest) w := by
  simp only [update, h]

/-- An entry with a value set below it. -/
def put (v : Value) (steps : List Step) (o : Option Value) : Option Value :=
  some (update (fun _ => v) steps (o.getD .nil))

theorem entryAt?_update_name (v : Value) (k l : String) (rest : List Step) (u : Value) :
    (update (fun _ => v) (.name k :: rest) u).entryAt? l =
      if l = k then put v rest (u.entryAt? k) else u.entryAt? l := by
  rw [update_name, entryAt?, lookup_setEntry, ← entryAt?_eq]
  rfl

/-! ### Ties -/

/-- How an entry in one value and the same entry in another hang together. -/
abbrev Tie := Option Value → Option Value → Prop

/-- A tie lasts while values are set below both entries at steps of some kind. -/
def Tie.Lasts (t : Tie) (Allowed : List Step → Prop) : Prop :=
  ∀ v steps o o', Allowed steps → t o o' → t (put v steps o) (put v steps o')

/-- Both entries are as they were at first; or both were set, and are equal or else
hang together as `Opened` says. -/
inductive Hang (old new : Option Value) (Opened : Value → Value → Prop) : Tie where
  | untouched : Hang old new Opened old new
  | same (u : Value) : Hang old new Opened (some u) (some u)
  | opened {u w : Value} (h : Opened u w) : Hang old new Opened (some u) (some w)

theorem Hang.lasts {old new : Option Value} {Opened : Value → Value → Prop}
    {Allowed : List Step → Prop}
    (hfirst : ∀ v steps, Allowed steps →
      Hang old new Opened (put v steps old) (put v steps new))
    (hnext : ∀ v steps u w, Allowed steps → Opened u w →
      Hang old new Opened (put v steps (some u)) (put v steps (some w))) :
    Tie.Lasts (Hang old new Opened) Allowed := by
  intro v steps o o' hsteps h
  cases h with
  | untouched => exact hfirst v steps hsteps
  | same u => exact .same _
  | opened h => exact hnext v steps _ _ hsteps h

/-! #### Settings -/

/-- Two values that are no settings: lists, or tables of which the second has no more
keys than the first, and some. -/
inductive Overgrown : Value → Value → Prop where
  | lists (items items' : List Value) : Overgrown (.list items) (.list items')
  | tables {es es' : List (String × Value)} (ne : es' ≠ []) (nodup : (es'.map Prod.fst).Nodup)
    (sub : es'.map Prod.fst ⊆ es.map Prod.fst) : Overgrown (.table es) (.table es')

/-- Setting something below two values makes them equal or no settings. -/
theorem overgrown_update {old new : Option Value} (hnodup : ((entriesOf w).map Prod.fst).Nodup)
    (hsub : (entriesOf w).map Prod.fst ⊆ (entriesOf u).map Prod.fst) (v : Value)
    (steps : List Step) :
    Hang old new Overgrown (put v steps (some u)) (put v steps (some w)) := by
  cases steps with
  | nil => exact .same v
  | cons step rest =>
    cases step with
    | index i => exact .opened (.lists _ _)
    | name k =>
      refine .opened ?_
      rw [Option.getD_some, Option.getD_some, update_name, update_name]
      exact .tables setEntry_ne_nil (nodup_keys_setEntry hnodup) fun l hl =>
        mem_keys_setEntry_iff.mpr ((mem_keys_setEntry_iff.mp hl).imp_right fun h => hsub h)

/-- The entries of a setting hang together, if the second is plain at first. -/
theorem lasts_setting {old : Option Value} {x : Value} (hx : entriesOf x = [])
    (Allowed : List Step → Prop) : Tie.Lasts (Hang old (some x) Overgrown) Allowed := by
  refine Hang.lasts (fun v steps _ => ?_) fun v steps u w _ h => ?_
  · refine overgrown_update (u := old.getD .nil) (w := x) ?_ ?_ v steps
    · simp [hx]
    · simp [hx]
  · cases h with
    | lists => exact overgrown_update (by simp [entriesOf]) (by simp [entriesOf]) v steps
    | @tables es es' _ hnodup hsub =>
      exact overgrown_update (u := .table es) (w := .table es') hnodup hsub v steps

/-! #### Sections -/

/-- A key whose entries hang together, as long as what is set below them is allowed. -/
structure Field where
  key : String
  tie : Tie
  Allowed : List Step → Prop

/-- The entries of two values hang together field by field. -/
def Tied (fields : List Field) (u w : Value) : Prop :=
  ∀ x ∈ fields, x.tie (u.entryAt? x.key) (w.entryAt? x.key)

/-- Two sections whose entries hang together. -/
inductive Sections (fields : List Field) : Value → Value → Prop where
  | tables {es es' : List (String × Value)} (tied : Tied fields (.table es) (.table es')) :
    Sections fields (.table es) (.table es')

/-- What may be set below a section: no item, if it has items. -/
def Field.Below (fields : List Field) (hasItems : Prop) : List Step → Prop
  | [] => True
  | .index _ :: _ => ¬hasItems
  | .name k :: rest => ∀ x ∈ fields, x.key = k → x.Allowed rest

theorem tied_update {fields : List Field} (hlasts : ∀ x ∈ fields, x.tie.Lasts x.Allowed)
    (h : Tied fields u w) (hrest : ∀ x ∈ fields, x.key = k → x.Allowed rest) (v : Value) :
    Tied fields (update (fun _ => v) (.name k :: rest) u)
      (update (fun _ => v) (.name k :: rest) w) := by
  intro x hx
  rw [entryAt?_update_name, entryAt?_update_name]
  by_cases hk : x.key = k
  · rw [if_pos hk, if_pos hk, ← hk]
    exact hlasts x hx v rest _ _ (hrest x hx hk) (h x hx)
  · rw [if_neg hk, if_neg hk]
    exact h x hx

theorem sections_update {fields : List Field} (hlasts : ∀ x ∈ fields, x.tie.Lasts x.Allowed)
    (h : Tied fields u w) (hrest : ∀ x ∈ fields, x.key = k → x.Allowed rest) (v : Value) :
    Sections fields (update (fun _ => v) (.name k :: rest) u)
      (update (fun _ => v) (.name k :: rest) w) := by
  have htied := tied_update hlasts h hrest v
  rw [update_name, update_name] at htied ⊢
  exact .tables htied

/-- The entries of a section hang together, if its fields do and no items are set. -/
theorem lasts_section {fields : List Field} {old new : Option Value}
    (hlasts : ∀ x ∈ fields, x.tie.Lasts x.Allowed)
    (hfirst : Tied fields (old.getD .nil) (new.getD .nil)) (hnew : itemsOf (new.getD .nil) = []) :
    Tie.Lasts (Hang old new (Sections fields))
      (Field.Below fields (itemsOf (old.getD .nil) ≠ [])) := by
  refine Hang.lasts (fun v steps hsteps => ?_) fun v steps u w hsteps h => ?_
  · match steps with
    | [] => exact .same v
    | .index i :: rest =>
      have hold := not_not.mp hsteps
      rw [put, put, update_index_congr (hold.trans hnew.symm)]
      exact .same _
    | .name k :: rest => exact .opened (sections_update hlasts hfirst hsteps v)
  · cases h with
    | tables tied =>
      match steps with
      | [] => exact .same v
      | .index i :: rest =>
        rw [put, put, update_index_congr (show itemsOf _ = itemsOf _ from rfl)]
        exact .same _
      | .name k :: rest => exact .opened (sections_update hlasts tied hsteps v)

/-! ### Layers of plain values -/

/-- A plain value replaces what its key leads to. -/
theorem set_of_plain {v : Value} (h : v.isTable = false) (root : Value) (key : String) :
    set root key v = update (fun _ => v) (allSteps key) root := by
  have hmerge : (fun target => mergeInto target v) = fun _ => v := by
    funext target
    cases v with
    | table => cases h
    | _ => rfl
  rw [set, hmerge]
  rfl

/-- A layer of plain values. -/
theorem sections_apply {fields : List Field} (hlasts : ∀ x ∈ fields, x.tie.Lasts x.Allowed)
    {layer : List (String × Value)} (hplain : ∀ e ∈ layer, e.2.isTable = false)
    (hallowed : ∀ e ∈ layer, Field.Below fields True (allSteps e.1))
    (h : Sections fields u w) : Sections fields (apply u layer) (apply w layer) := by
  induction layer generalizing u w with
  | nil => exact h
  | cons e layer ih =>
    obtain ⟨hfirst, hplain⟩ := List.forall_mem_cons.mp hplain
    obtain ⟨hsteps, hallowed⟩ := List.forall_mem_cons.mp hallowed
    have hnext : Sections fields (set u e.1 e.2) (set w e.1 e.2) := by
      rw [set_of_plain hfirst, set_of_plain hfirst]
      cases h with
      | tables tied => exact sections_update hlasts tied hsteps e.2
    exact ih hplain hallowed hnext

theorem isTable_variableValue (text : String) : (variableValue text).isTable = false := by
  unfold variableValue
  dsimp only
  split
  · rfl
  split
  · rfl
  split
  · rfl
  split <;> rfl

/-- The layer of the environment. -/
theorem ofEnvironment_plain (envPrefix : String) (env : Variables) :
    ∀ e ∈ ofEnvironment envPrefix env, e.2.isTable = false := by
  intro e he
  obtain ⟨text, htext⟩ := exists_text_of_mem envPrefix env e he
  exact htext ▸ isTable_variableValue text

end Layer
end BlockTransfer
