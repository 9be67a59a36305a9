import BlockTransfer.Dispatcher.Switching
import BlockTransfer.Proofs.Turns
import Mathlib.Data.List.Nodup
/-!
# What may happen when

The journal of callers that switch devices says what is active, who is inside of
it, and who holds what: an activation is held by the slot from when it is made
active until it is replaced, then by the one that replaced it, and by every
caller that steps in until it steps out.

A journal is `Lawful` if devices are built one at a time, each becomes active
under the next number before another is built, callers step into what is active
and are answered by what they stepped into, and an activation is released once,
when it is active no more, nobody is inside of it, and every hold on it was
given up.

Key definitions: `Switching.current?`, `Switching.inside?`, `Switching.taken`,
`Switching.dropped`, `Switching.Lawful`.
Key theorem: `Switching.Lawful.activations_eq`.
-/

namespace BlockTransfer
namespace Switching

/-! ### Reading a journal -/

/-- How many devices were built. -/
def builds (journal : List Occurrence) : Nat := journal.count .built

/-- The generation that became active, if one did. -/
@[simp] def Occurrence.activation? : Occurrence → Option Nat
  | activated generation => some generation
  | _ => none

/-- The generations that became active, in order. -/
def activations (journal : List Occurrence) : List Nat := journal.filterMap Occurrence.activation?

/-- How often a device was swapped in. -/
def swaps (journal : List Occurrence) : Nat := (activations journal).length

/-- The active generation. -/
def current? (journal : List Occurrence) : Option Nat := (activations journal).getLast?

/-- The generation that was released, if one was. -/
@[simp] def Occurrence.release? : Occurrence → Option Nat
  | released generation => some generation
  | _ => none

/-- The generations that were released, in order. -/
def releases (journal : List Occurrence) : List Nat := journal.filterMap Occurrence.release?

/-- The generation that the slot or a caller took hold of. -/
@[simp] def Occurrence.taken? : Occurrence → Option Nat
  | entered _ generation | activated generation => some generation
  | _ => none

/-- The generations that the slot and the callers took hold of. -/
def taken (journal : List Occurrence) : List Nat := journal.filterMap Occurrence.taken?

/-- The generation that a caller let go of. -/
@[simp] def Occurrence.dropped? : Occurrence → Option Nat
  | left _ generation => some generation
  | _ => none

/-- The generations that callers let go of. -/
def dropped (journal : List Occurrence) : List Nat := journal.filterMap Occurrence.dropped?

/-- Where a caller is after an occurrence, given where it was. -/
@[simp] def Occurrence.goes (caller : Nat) (inside : Option Nat) : Occurrence → Option Nat
  | entered c generation => if c = caller then some generation else inside
  | left c _ => if c = caller then none else inside
  | _ => inside

/-- The activation that a caller is inside of. -/
def inside? (journal : List Occurrence) (caller : Nat) : Option Nat :=
  journal.foldl (Occurrence.goes caller) none

section

variable (journal : List Occurrence) (o : Occurrence)

@[simp] theorem builds_snoc :
    builds (journal ++ [o]) = builds journal + if o = .built then 1 else 0 := by
  rw [builds, builds, List.count_append, List.count_singleton]
  simp only [beq_iff_eq]

@[simp] theorem activations_snoc :
    activations (journal ++ [o]) = activations journal ++ o.activation?.toList :=
  filterMap_snoc ..

@[simp] theorem releases_snoc :
    releases (journal ++ [o]) = releases journal ++ o.release?.toList :=
  filterMap_snoc ..

@[simp] theorem taken_snoc : taken (journal ++ [o]) = taken journal ++ o.taken?.toList :=
  filterMap_snoc ..

@[simp] theorem dropped_snoc : dropped (journal ++ [o]) = dropped journal ++ o.dropped?.toList :=
  filterMap_snoc ..

@[simp] theorem swaps_snoc :
    swaps (journal ++ [o]) = swaps journal + o.activation?.toList.length := by
  rw [swaps, activations_snoc, List.length_append, swaps]

@[simp] theorem inside?_snoc (caller : Nat) :
    inside? (journal ++ [o]) caller = o.goes caller (inside? journal caller) := by
  rw [inside?, List.foldl_append, List.foldl_cons, List.foldl_nil, inside?]

end

/-! ### The rules -/

/-- A journal that keeps the rules. -/
inductive Lawful : List Occurrence → Prop where
  | nil : Lawful []
  /-- A device is built when each one before was made active. -/
  | built {journal} (h : Lawful journal) (alone : builds journal = swaps journal) :
    Lawful (journal ++ [.built])
  /-- The one device that is not yet active becomes active under the next number. -/
  | activated {journal generation} (h : Lawful journal) (next : generation = swaps journal + 1)
      (fresh : builds journal = swaps journal + 1) : Lawful (journal ++ [.activated generation])
  /-- A caller that is inside no activation steps into the active one. -/
  | entered {journal caller generation} (h : Lawful journal)
      (outside : inside? journal caller = none) (current : current? journal = some generation) :
      Lawful (journal ++ [.entered caller generation])
  /-- A caller is answered by the device that it is inside of. -/
  | served {journal caller generation} (h : Lawful journal)
      (inside : inside? journal caller = some generation) :
      Lawful (journal ++ [.served caller generation])
  /-- A caller lets go of an activation that is held: of the one that it is
  inside of, or else of one that is active no more. -/
  | left {journal caller generation} (h : Lawful journal)
      (held : (dropped journal).count generation < (taken journal).count generation)
      (own : inside? journal caller = some generation ∨
        inside? journal caller = none ∧ current? journal ≠ some generation) :
      Lawful (journal ++ [.left caller generation])
  /-- An activation is released that is active no more, has nobody inside, and is
  not held. -/
  | released {journal generation} (h : Lawful journal)
      (activated : generation ∈ activations journal) (new : generation ∉ releases journal)
      (replaced : current? journal ≠ some generation)
      (empty : ∀ caller, inside? journal caller ≠ some generation)
      (unheld : (dropped journal).count generation = (taken journal).count generation) :
      Lawful (journal ++ [.released generation])

variable {journal : List Occurrence}

/-- The generations that became active are the numbers from one on. -/
theorem Lawful.activations_eq (h : Lawful journal) :
    activations journal = List.range' 1 (swaps journal) := by
  induction h with
  | nil => rfl
  | activated _ next _ ih =>
    rw [activations_snoc, swaps_snoc, ih, next, Nat.add_comm]
    exact (List.range'_1_concat).symm
  | _ =>
    rename_i ih
    rw [activations_snoc, swaps_snoc, ih]
    exact List.append_nil _

/-- The active generation is the number of swaps. -/
theorem Lawful.current?_getD (h : Lawful journal) : (current? journal).getD 0 = swaps journal := by
  rw [current?, h.activations_eq]
  cases swaps journal with
  | zero => rfl
  | succ n => rw [List.range'_1_concat, List.getLast?_concat, Option.getD_some, Nat.add_comm]

end Switching
end BlockTransfer
