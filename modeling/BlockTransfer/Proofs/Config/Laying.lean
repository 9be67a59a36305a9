import BlockTransfer.Proofs.Config.Orders
/-!
# What is found in layers laid over one another

A path leads through tables to a value. A document gives a value at a path if one
of its entries does, the last one if several do (`Value.last?`); a layer is read as
the document that its keys abbreviate (`Layer.document`). Where the path leads
through tables only and never ends at one (`Value.Fits`), laying a document over a
value changes what is found there exactly if the document gives something
(`Layer.lays_apply`): what lies deeper is neither lost nor seen through.

A list is changed item by item if the key has an index in it. Which items it has
makes no difference to whoever reads a number, a switch, a text or a choice, so
they are left out of account (`Value.flat`).

A document whose entries come in another order gives the same at a path, if no more than
one of them gives something there (`Layer.last?_document_perm`).

Key definitions: `Value.find?`, `Value.last?`, `Value.Fits`, `Value.Lays`,
`Layer.document`, `Layer.SetsOnce`.
Key theorems: `Value.lays_mergeInto`, `Layer.lays_update`, `Layer.lays_apply`,
`Layer.last?_document_perm`.
-/

namespace BlockTransfer

open Layer (entriesOf)

namespace Value

/-! ### Paths -/

def isTable : Value → Bool
  | table _ => true
  | _ => false

/-- What a path leads to. -/
def find? : List String → Value → Option Value
  | [], v => some v
  | k :: path, v => (v.entryAt? k).bind (find? path)

/-- What a document gives at a path: what the last of its entries gives that gives
something there. -/
def last? : List String → Value → Option Value
  | [], v => some v
  | k :: path, v =>
    (entriesOf v).reverse.findSome? fun e => if e.1 = k then last? path e.2 else none

/-- Wherever the path leads, it leads through tables, and there is no table at its
end. -/
def Fits : List String → Value → Prop
  | [], v => v.isTable = false
  | k :: path, v => v.isTable = true ∧ ∀ e ∈ entriesOf v, e.1 = k → Fits path e.2

instance decidableFits : (path : List String) → (v : Value) → Decidable (v.Fits path)
  | [], v => inferInstanceAs (Decidable (v.isTable = false))
  | _ :: path, v =>
    have := decidableFits path
    inferInstanceAs (Decidable (v.isTable = true ∧ ∀ e ∈ entriesOf v, _ → e.2.Fits path))

/-- A value with the items of a list left out. -/
def flat : Value → Value
  | list _ => list []
  | v => v

variable {k k' : String} {path : List String} {v w r old doc mid new : Value}
  {es entries a b : List (String × Value)}

theorem fits_table_iff : (table es).Fits (k :: path) ↔ ∀ e ∈ es, e.1 = k → e.2.Fits path :=
  and_iff_right rfl

theorem find?_table : (table es).find? (k :: path) = (es.lookup k).bind (find? path) := rfl

theorem find?_entriesOf (k : String) (path : List String) (v : Value) :
    (table (entriesOf v)).find? (k :: path) = v.find? (k :: path) := by
  cases v <;> rfl

theorem last?_append (k : String) (path : List String) (a b : List (String × Value)) :
    (table (a ++ b)).last? (k :: path) =
      ((table b).last? (k :: path)).or ((table a).last? (k :: path)) := by
  simp only [last?, entriesOf, List.reverse_append, List.findSome?_append]

theorem last?_singleton (k k' : String) (path : List String) (v : Value) :
    (table [(k', v)]).last? (k :: path) = if k' = k then v.last? path else none := by
  simp only [last?, entriesOf, List.reverse_singleton, List.findSome?_singleton]

/-! ### Laying a document over a value -/

/-- As far as the path goes, `new` is `old` with the document `doc` laid over it. -/
structure Lays (path : List String) (old doc new : Value) : Prop where
  find : (new.find? path).map flat = ((doc.last? path).or (old.find? path)).map flat
  fits : new.Fits path

theorem Lays.append (h : Lays (k :: path) old (table a) mid)
    (h' : Lays (k :: path) mid (table b) new) : Lays (k :: path) old (table (a ++ b)) new where
  find := by rw [h'.find, last?_append, Option.or_assoc, Option.map_or, h.find, ← Option.map_or]
  fits := h'.fits

theorem lays_empty (h : old.Fits (k :: path)) : Lays (k :: path) old (table []) old where
  find := rfl
  fits := h

/-- What stands under a key, or nothing. -/
theorem fits_lookup (h : (table es).Fits (k :: path)) :
    (es.lookup k).getD nil = nil ∨ ((es.lookup k).getD nil).Fits path := by
  cases hl : es.lookup k with
  | none => exact .inl rfl
  | some w =>
    obtain ⟨front, back, rfl, -⟩ := List.lookup_eq_some_iff.mp hl
    exact .inr (fits_table_iff.mp h (k, w) (List.mem_append_right _ List.mem_cons_self) rfl)

/-- Setting an entry lays it over the table, if its value is laid over the one that
was there. -/
theorem lays_setEntry (hes : (table es).Fits (k :: path))
    (hr : k' = k → Lays path ((es.lookup k').getD nil) v r) :
    Lays (k :: path) (table es) (table [(k', v)]) (table (setEntry k' r es)) := by
  by_cases hk : k' = k
  · subst hk
    obtain ⟨hfind, hfits⟩ := hr rfl
    constructor
    · rw [find?_table, lookup_setEntry, if_pos rfl, Option.bind_some, hfind, last?_singleton,
        if_pos rfl, find?_table]
      -- nothing is found below a missing value, except at the empty path, which the entry covers
      cases es.lookup k' with
      | some w => rfl
      | none => cases path <;> rfl
    · refine fits_table_iff.mpr fun e he hek => ?_
      rcases mem_setEntry he with rfl | he
      · exact hfits
      · exact fits_table_iff.mp hes e he hek
  · constructor
    · rw [find?_table, lookup_setEntry, if_neg (Ne.symm hk), last?_singleton, if_neg hk]
      rfl
    · refine fits_table_iff.mpr fun e he hek => ?_
      rcases mem_setEntry he with rfl | he
      · exact absurd hek hk
      · exact fits_table_iff.mp hes e he hek

/-- A table can be laid over what is there, or over nothing. -/
theorem fits_entriesOf (h : old = nil ∨ old.Fits (k :: path)) :
    (table (entriesOf old)).Fits (k :: path) := by
  rcases h with rfl | h
  · exact fits_table_iff.mpr nofun
  · cases old with
    | table es => exact h
    | _ => cases h.1

/-- Merging lays a document over a value. -/
theorem lays_mergeInto (hold : old = nil ∨ old.Fits path) (hdoc : doc.Fits path) :
    Lays path old doc (Layer.mergeInto old doc) := by
  induction path generalizing old doc with
  | nil =>
    have hmerge : Layer.mergeInto old doc = doc := by
      cases doc with
      | table entries => cases hdoc
      | _ => rfl
    rw [hmerge]
    exact ⟨rfl, hdoc⟩
  | cons k path ih =>
    have hentries (entries es : List (String × Value)) (hes : (table es).Fits (k :: path))
        (h : (table entries).Fits (k :: path)) :
        Lays (k :: path) (table es) (table entries)
          (Layer.mergeEntries (table es) entries) := by
      induction entries generalizing es with
      | nil =>
        rw [Layer.mergeEntries]
        exact lays_empty hes
      | cons e entries ihe =>
        obtain ⟨k', v⟩ := e
        obtain ⟨hv, hrest⟩ := List.forall_mem_cons.mp (fits_table_iff.mp h)
        have hfirst : Lays (k :: path) (table es) (table [(k', v)])
            (table (setEntry k' (Layer.mergeInto ((es.lookup k').getD nil) v) es)) :=
          lays_setEntry hes fun hk => by
            subst hk
            exact ih (fits_lookup hes) (hv rfl)
        rw [Layer.mergeEntries]
        exact hfirst.append (ihe _ hfirst.fits (fits_table_iff.mpr hrest))
    cases doc with
    | table entries =>
      obtain ⟨hfind, hfits⟩ := hentries entries (entriesOf old) (fits_entriesOf hold) hdoc
      rw [Layer.mergeInto]
      exact ⟨by rw [hfind, find?_entriesOf], hfits⟩
    | _ => cases hdoc.1

end Value

/-! ### Layers -/

namespace Layer

open Value (find? last? Fits Lays flat)

/-- The value that a value stands for under the steps of a key. -/
def nest : List Step → Value → Value
  | [], v => v
  | .name k :: rest, v => .table [(k, nest rest v)]
  | .index _ :: rest, v => .list [nest rest v]

/-- The document that the entries of a layer stand for. -/
def document (layer : List (String × Value)) : Value :=
  .table (layer.map fun e => ((steps e.1).1, nest (steps e.1).2 e.2))

variable {path : List String} {k : String} {v old : Value} {layer : List (String × Value)}

/-- Changing what the steps of a key lead to lays what they stand for over it. -/
theorem lays_update {rest : List Step} (hold : old = .nil ∨ old.Fits path)
    (hdoc : (nest rest v).Fits path) :
    Lays path old (nest rest v) (update (fun target => mergeInto target v) rest old) := by
  induction rest generalizing path old with
  | nil => exact Value.lays_mergeInto hold hdoc
  | cons s rest ih =>
    cases s with
    | name k' =>
      cases path with
      | nil => cases hdoc
      | cons k path =>
        have hes := Value.fits_entriesOf hold
        obtain ⟨hfind, hfits⟩ := Value.lays_setEntry hes fun hk : k' = k => by
          subst hk
          exact ih (Value.fits_lookup hes)
            (Value.fits_table_iff.mp hdoc _ (List.mem_singleton_self _) rfl)
        exact ⟨by rw [update, hfind, Value.find?_entriesOf, nest], hfits⟩
    | index i =>
      cases path with
      | nil => exact ⟨rfl, rfl⟩
      | cons k path => cases hdoc.1

/-- A layer lays its document over a value. -/
theorem lays_apply (hold : old.Fits (k :: path)) (hdoc : (document layer).Fits (k :: path)) :
    Lays (k :: path) old (document layer) (apply old layer) := by
  induction layer generalizing old with
  | nil => exact Value.lays_empty hold
  | cons e layer ih =>
    obtain ⟨hfirst, hrest⟩ := List.forall_mem_cons.mp (Value.fits_table_iff.mp hdoc)
    have hentry : (nest (.name (steps e.1).1 :: (steps e.1).2) e.2).Fits (k :: path) :=
      Value.fits_table_iff.mpr fun e' he' => by rwa [List.mem_singleton.mp he']
    have hset : Lays (k :: path) old (document [e]) (set old e.1 e.2) :=
      lays_update (.inr hold) hentry
    exact hset.append (ih hset.fits (Value.fits_table_iff.mpr hrest))

/-! ### Another order -/

variable {layer' : List (String × Value)}

/-- What an entry gives at a path. -/
def gives? (path : List String) (e : String × Value) : Option Value := (document [e]).last? path

/-- No more than one entry of a layer gives something at the path. -/
def SetsOnce (layer : List (String × Value)) (path : List String) : Prop :=
  (layer.filterMap (gives? path)).length ≤ 1

instance (layer : List (String × Value)) (path : List String) : Decidable (SetsOnce layer path) :=
  inferInstanceAs (Decidable (_ ≤ 1))

theorem last?_document (k : String) (path : List String) (layer : List (String × Value)) :
    (document layer).last? (k :: path) = (layer.filterMap (gives? (k :: path))).getLast? := by
  rw [List.getLast?_filterMap, document, last?, entriesOf, ← List.map_reverse, List.findSome?_map]
  refine congrArg (fun f => layer.reverse.findSome? f) (funext fun e => ?_)
  exact (Value.last?_singleton k _ path _).symm

theorem last?_document_perm (h : layer'.Perm layer) (honce : SetsOnce layer (k :: path)) :
    (document layer').last? (k :: path) = (document layer).last? (k :: path) := by
  have hgiven := h.filterMap (gives? (k :: path))
  rw [last?_document, last?_document]
  unfold SetsOnce at honce
  match layer.filterMap (gives? (k :: path)), honce, hgiven with
  | [], _, hgiven => rw [hgiven.eq_nil]
  | [v], _, hgiven => rw [hgiven.eq_singleton]

theorem fits_document_perm (h : layer'.Perm layer) (hfits : (document layer).Fits (k :: path)) :
    (document layer').Fits (k :: path) :=
  Value.fits_table_iff.mpr fun e he => Value.fits_table_iff.mp hfits e ((h.map _).mem_iff.mp he)

end Layer
end BlockTransfer
