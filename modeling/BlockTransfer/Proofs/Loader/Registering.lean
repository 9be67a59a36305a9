import BlockTransfer.Registry
import Mathlib.Data.List.Sort
import Mathlib.Data.String.Basic
/-!
# What a registry holds

A registry is built by offering factories to it, one after the other; an offer
under a name that is no device type, or under a type that is registered already,
is refused. So what a registry holds for a type is the first factory that was
offered for it (`Registry.get?_registerAll`), and the types are in increasing
order throughout.

Key definitions: `Registry.registerAll`, `Registry.Accepts`, `Registry.Ordered`.
Key theorems: `Registry.get?_registerAll`, `Registry.accepts_iff`,
`Registry.isValidType_iff`, `Registry.ordered_registerAll`.
-/

namespace BlockTransfer

/-- Inserting by a key that is new keeps the keys strictly increasing. -/
theorem pairwise_orderedInsert {α : Type} {key : α → String} {a : α} {l : List α}
    (h : l.Pairwise fun x y => key x < key y) (hnew : ∀ b ∈ l, key b ≠ key a) :
    (l.orderedInsert (fun x y => key x < key y) a).Pairwise fun x y => key x < key y := by
  induction l with
  | nil => exact List.pairwise_singleton _ _
  | cons b l ih =>
    obtain ⟨hb, hl⟩ := List.pairwise_cons.mp h
    obtain ⟨hne, hnew⟩ := List.forall_mem_cons.mp hnew
    rw [List.orderedInsert_cons]
    split
    · rename_i hlt
      exact List.pairwise_cons.mpr
        ⟨List.forall_mem_cons.mpr ⟨hlt, fun c hc => lt_trans hlt (hb c hc)⟩, h⟩
    · rename_i hle
      refine List.pairwise_cons.mpr ⟨fun c hc => ?_, ih hl hnew⟩
      rcases (List.mem_orderedInsert _).mp hc with rfl | hc
      · exact lt_of_le_of_ne (not_lt.mp hle) hne
      · exact hb c hc

namespace Registry

variable {W D : Type} {r r' : Registry W D} {t u : String} {f : Factory W D}
  {offers : List (String × Factory W D)}

/-! ### Device types -/

/-- What can be a device type. -/
theorem isValidType_iff : isValidType t = true ↔ t ≠ "" ∧
    ∀ c ∈ t.toList, ('a' ≤ c ∧ c ≤ 'z') ∨ ('0' ≤ c ∧ c ≤ '9') ∨ c = '_' := by
  have hchar (c : Char) : isTypeChar c = true ↔
      ('a' ≤ c ∧ c ≤ 'z') ∨ ('0' ≤ c ∧ c ≤ '9') ∨ c = '_' := by
    have hlower : c.isLower = (decide ('a'.val ≤ c.val) && decide (c.val ≤ 'z'.val)) := rfl
    simp only [isTypeChar, hlower, Char.isDigit, Bool.or_eq_true, Bool.and_eq_true,
      decide_eq_true_eq, beq_iff_eq, Char.le_def, or_assoc]
  simp only [isValidType, Bool.and_eq_true, Bool.not_eq_true', String.isEmpty_eq_false_iff,
    List.all_eq_true, hchar]

/-! ### One offer -/

theorem insertSorted_eq (t : String) (f : Factory W D) (l : List (String × Factory W D)) :
    insertSorted t f l = l.orderedInsert (fun x y => x.1 < y.1) (t, f) := by
  induction l with
  | nil => rfl
  | cons x l ih => rw [insertSorted, ih, List.orderedInsert_cons]

theorem lookup_insertSorted {l : List (String × Factory W D)} (h : l.lookup t = none) :
    (insertSorted t f l).lookup u = if u = t then some f else l.lookup u := by
  induction l with
  | nil =>
    rw [insertSorted, List.lookup_cons]
    by_cases hu : u = t
    · rw [if_pos hu, beq_iff_eq.mpr hu]
    · rw [if_neg hu, beq_eq_false_iff_ne.mpr hu]
  | cons x l ih =>
    obtain ⟨k, g⟩ := x
    have hk : t ≠ k := by
      rintro rfl
      simp at h
    have hl : l.lookup t = none := by
      rwa [List.lookup_cons, beq_eq_false_iff_ne.mpr hk] at h
    rw [insertSorted]
    split
    · by_cases hu : u = t
      · simp [hu]
      · rw [List.lookup_cons, beq_eq_false_iff_ne.mpr hu, if_neg hu]
    · rw [List.lookup_cons, ih hl, List.lookup_cons]
      by_cases hu : u = t
      · subst hu
        rw [beq_eq_false_iff_ne.mpr hk, if_pos rfl]
      · rw [if_neg hu, if_neg hu]

/-- A registration that is not refused adds the factory, and takes none away. -/
theorem register_eq_ok_iff : r.register t f = .ok r' ↔
    isValidType t = true ∧ r.get? t = none ∧ r' = ⟨insertSorted t f r.factories⟩ := by
  unfold register contains
  cases hvalid : isValidType t with
  | false => simp
  | true =>
    cases hget : r.get? t with
    | none => simp [eq_comm]
    | some g => simp

theorem get?_of_register (h : r.register t f = .ok r') :
    r'.get? u = if u = t then some f else r.get? u := by
  obtain ⟨-, hget, rfl⟩ := register_eq_ok_iff.mp h
  exact lookup_insertSorted hget

/-- The types are in strictly increasing order. -/
def Ordered (r : Registry W D) : Prop := r.types.Pairwise (· < ·)

theorem mem_types_iff : t ∈ r.types ↔ (r.get? t).isSome = true := by
  simp only [types, get?, List.mem_map, List.lookup_isSome_iff, beq_iff_eq]
  exact exists_congr fun x => and_congr_right fun _ => eq_comm

theorem Ordered.register (hr : r.Ordered) (h : r.register t f = .ok r') : r'.Ordered := by
  obtain ⟨-, hget, rfl⟩ := register_eq_ok_iff.mp h
  rw [Ordered, types, List.pairwise_map] at hr ⊢
  rw [insertSorted_eq]
  refine pairwise_orderedInsert hr fun x hx heq => ?_
  have hmem : x.1 ∈ r.types := List.mem_map_of_mem hx
  rw [mem_types_iff, heq, hget] at hmem
  cases hmem

/-! ### All offers -/

/-- The registry after an offer, which may have been refused. -/
def offer (r : Registry W D) (x : String × Factory W D) : Registry W D :=
  (r.register x.1 x.2).toOption.getD r

/-- The registry that offers are made to in order, starting with none. -/
def registerAll (offers : List (String × Factory W D)) : Registry W D := offers.foldl offer {}

/-- One of the offers was under that type and was not refused. -/
def Accepts (offers : List (String × Factory W D)) (t : String) : Prop :=
  ∃ earlier f later r, offers = earlier ++ (t, f) :: later ∧
    (registerAll earlier).register t f = .ok r

theorem offer_cases (r : Registry W D) (x : String × Factory W D) :
    r.register x.1 x.2 = .ok (r.offer x) ∨
      (isValidType x.1 = false ∨ (r.get? x.1).isSome = true) ∧ r.offer x = r := by
  unfold offer register contains
  cases isValidType x.1 with
  | false => exact .inr ⟨.inl rfl, rfl⟩
  | true =>
    cases r.get? x.1 with
    | none => exact .inl rfl
    | some f => exact .inr ⟨.inr rfl, rfl⟩

theorem get?_offer (x : String × Factory W D) : (r.offer x).get? t =
    (r.get? t).or (if t = x.1 ∧ isValidType t = true then some x.2 else none) := by
  obtain hok | ⟨hrefused, hsame⟩ := r.offer_cases x
  · obtain ⟨hvalid, hget, -⟩ := register_eq_ok_iff.mp hok
    rw [get?_of_register hok]
    by_cases ht : t = x.1
    · subst ht
      rw [if_pos rfl, hget, if_pos ⟨rfl, hvalid⟩, Option.none_or]
    · rw [if_neg ht, if_neg fun h => ht h.1, Option.or_none]
  · rw [hsame]
    by_cases ht : t = x.1 ∧ isValidType t = true
    · obtain ⟨rfl, hvalid⟩ := ht
      rcases hrefused with hinvalid | hsome
      · rw [hvalid] at hinvalid
        cases hinvalid
      · rw [Option.or_of_isSome hsome]
    · rw [if_neg ht, Option.or_none]

theorem get?_foldl_offer (r : Registry W D) (offers : List (String × Factory W D)) :
    (offers.foldl offer r).get? t =
      (r.get? t).or (if isValidType t = true then offers.lookup t else none) := by
  induction offers generalizing r with
  | nil => rw [List.foldl_nil, List.lookup_nil, ite_self, Option.or_none]
  | cons x offers ih =>
    rw [List.foldl_cons, ih, get?_offer, Option.or_assoc]
    congr 1
    obtain ⟨k, f⟩ := x
    by_cases ht : t = k
    · subst ht
      cases isValidType t <;> simp
    · rw [if_neg fun h => ht h.1, Option.none_or, List.lookup_cons, beq_eq_false_iff_ne.mpr ht]

/-- A registry holds the first factory that was offered for a device type. -/
theorem get?_registerAll (offers : List (String × Factory W D)) (t : String) :
    (registerAll offers).get? t = if isValidType t = true then offers.lookup t else none := by
  rw [registerAll, get?_foldl_offer]
  rfl

theorem ordered_registerAll (offers : List (String × Factory W D)) :
    (registerAll offers).Ordered := by
  refine List.foldlRecOn offers offer (motive := Ordered) List.Pairwise.nil fun r hr x _ => ?_
  obtain hok | ⟨-, hsame⟩ := r.offer_cases x
  · exact hr.register hok
  · rwa [hsame]

/-- A type is accepted once if it is a device type and offered at all. -/
theorem accepts_iff : Accepts offers t ↔ isValidType t = true ∧ ∃ f, (t, f) ∈ offers := by
  constructor
  · rintro ⟨earlier, f, later, r, rfl, hok⟩
    exact ⟨(register_eq_ok_iff.mp hok).1, f, List.mem_append_right _ List.mem_cons_self⟩
  · rintro ⟨hvalid, f, hmem⟩
    have hsome : (offers.lookup t).isSome = true :=
      List.lookup_isSome_iff.mpr ⟨(t, f), hmem, beq_self_eq_true t⟩
    obtain ⟨g, hg⟩ := Option.isSome_iff_exists.mp hsome
    obtain ⟨earlier, later, rfl, hearlier⟩ := List.lookup_eq_some_iff.mp hg
    refine ⟨earlier, g, later, _, rfl, register_eq_ok_iff.mpr ⟨hvalid, ?_, rfl⟩⟩
    rw [get?_registerAll, if_pos hvalid]
    exact List.lookup_eq_none_iff.mpr hearlier

theorem isSome_get?_registerAll :
    ((registerAll offers).get? t).isSome = true ↔ Accepts offers t := by
  rw [accepts_iff, get?_registerAll]
  cases isValidType t with
  | false => simp
  | true => simp [List.lookup_isSome_iff]

end Registry
end BlockTransfer
