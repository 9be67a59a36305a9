import BlockTransfer.Proofs.Operation.Opening
/-!
# Several operations under way

What the storage will be once all operations under way have carried their whole
ranges (`Operation.carryAll`). While the operations are apart, that does not
depend on what has been carried so far: a range carried by one of them is
swallowed, one that has carried all of its range can be taken out, and files set
elsewhere can be set before or after.

Key definitions: `Operation.whole`, `Operation.carryAll`.
Key theorems: `Operation.carryAll_carry`, `Operation.carryAll_erase`,
`Operation.carryAll_putFile`.
-/

namespace BlockTransfer
namespace Operation

/-- The whole range of an operation. -/
def whole (o : Operation) : ByteRange := ⟨0, o.buffer.len⟩

/-- The storage after each of the operations has carried its whole range. -/
def carryAll (ops : List Operation) (s : Storage) : Storage :=
  ops.foldl (fun s o => o.carry o.whole s) s

variable {o : Operation} {ops ops₁ ops₂ : List Operation} {s : Storage} {r : ByteRange}

@[simp] theorem carryAll_nil (s : Storage) : carryAll [] s = s := rfl

@[simp] theorem carryAll_cons (o : Operation) (ops : List Operation) (s : Storage) :
    carryAll (o :: ops) s = carryAll ops (o.carry o.whole s) := rfl

theorem carryAll_append (ops₁ ops₂ : List Operation) (s : Storage) :
    carryAll (ops₁ ++ ops₂) s = carryAll ops₂ (carryAll ops₁ s) := by
  simp [carryAll]

/-- What one of the operations has carried is swallowed. -/
theorem carryAll_carry (ha : ops.Pairwise Apart) (hg : ∀ o ∈ ops, o.Grounded s) (ho : o ∈ ops)
    (hr : r.start ≤ r.stop) (hn : r.stop ≤ o.buffer.len) :
    carryAll ops (o.carry r s) = carryAll ops s := by
  induction ops generalizing s with
  | nil => cases ho
  | cons p ops ih =>
    obtain ⟨hp, ha⟩ := List.pairwise_cons.mp ha
    rw [carryAll_cons, carryAll_cons]
    rcases List.mem_cons.mp ho with rfl | ho
    · rw [whole, carry_absorbs (hg o List.mem_cons_self) hr hn]
    · rw [carry_comm_of_apart (hp o ho) (hg p List.mem_cons_self)]
      exact ih ha (fun q hq => (hg q (List.mem_cons_of_mem _ hq)).carry p _) ho

/-- An operation whose whole range is in place can be taken out. -/
theorem carryAll_erase (ha : (ops₁ ++ o :: ops₂).Pairwise Apart)
    (hg : ∀ p ∈ ops₁ ++ o :: ops₂, p.Grounded s) (hi : o.InPlace o.whole s) :
    carryAll (ops₁ ++ ops₂) s = carryAll (ops₁ ++ o :: ops₂) s := by
  induction ops₁ generalizing s with
  | nil =>
    show carryAll ops₂ s = carryAll ops₂ (o.carry o.whole s)
    rw [show o.carry o.whole s = s from hi]
  | cons p ops₁ ih =>
    obtain ⟨hp, ha⟩ := List.pairwise_cons.mp ha
    have hmem : o ∈ ops₁ ++ o :: ops₂ := List.mem_append_right _ List.mem_cons_self
    have ho : o.Grounded s := hg o (List.mem_cons_of_mem _ hmem)
    refine ih ha (fun q hq => (hg q (List.mem_cons_of_mem _ hq)).carry p _) ?_
    exact hi.carry_of_apart (hp o hmem).symm ho _

/-- A file that no operation uses can be set before or after. -/
theorem carryAll_putFile {p : CanonicalPath} (hg : ∀ o ∈ ops, o.Grounded s)
    (hp : ∀ o ∈ ops, o.handle.at_ ≠ p) (data : Bytes) :
    carryAll ops (s.putFile p data) = (carryAll ops s).putFile p data := by
  induction ops generalizing s with
  | nil => rfl
  | cons q ops ih =>
    rw [carryAll_cons, carryAll_cons,
      carry_putFile_of_ne (hg q List.mem_cons_self) (hp q List.mem_cons_self)]
    exact ih (fun o ho => (hg o (List.mem_cons_of_mem _ ho)).carry q _)
      fun o ho => hp o (List.mem_cons_of_mem _ ho)

/-- Operations that are ready keep the layout of the storage. -/
theorem carryAll_sameLayout (hr : ∀ o ∈ ops, o.Ready s) : (carryAll ops s).SameLayout s := by
  induction ops generalizing s with
  | nil => exact .refl s
  | cons p ops ih =>
    have hp := hr p List.mem_cons_self
    refine (ih fun o ho => ?_).trans (carry_sameLayout hp (Nat.le_refl _))
    exact (hr o (List.mem_cons_of_mem _ ho)).carry hp (Nat.le_refl _)

/-! ### Writing a whole file -/

/-- A write of the whole buffer sets the file to its bytes, if the file is no
longer than that. -/
theorem carry_whole_write (hd : o.direction = .write) (hb : s.memory.Holds o.buffer)
    (hlen : (s.files.content o.handle).length ≤ o.buffer.len) :
    o.carry o.whole s = s.putFile o.handle.at_ (s.memory.bytes o.buffer) := by
  rw [carry_write hd, whole, Bytes.copyRange_whole (Nat.le_of_eq hb.length.symm) hlen,
    List.take_of_length_le (Nat.le_of_eq hb.length)]

end Operation
end BlockTransfer
