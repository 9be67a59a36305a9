import BlockTransfer.Error
/-!
# Device settings

The five numbers and switches that every device is made with, their defaults,
and the rules that a usable set obeys. The rules are checked in a fixed order,
so of several broken ones the first is reported (`DeviceSettings.check`).

Key definitions: `DeviceSettings`, `DeviceSettings.check`, `DeviceSettings.Valid`.
Key theorem: `DeviceSettings.check_eq_ok_iff`.
-/

namespace BlockTransfer

/-- What a device is made with. -/
structure DeviceSettings where
  /-- The unit of a transfer, in bytes. -/
  blockSize : Nat := 1048576
  /-- How many jobs wait at one worker at most. -/
  queueDepth : Nat := 128
  /-- Whether every block is a job of its own. -/
  singleSubmit : Bool := false
  /-- Whether an operation may start while earlier ones are under way. -/
  overlapEvents : Bool := true
  /-- How many workers carry out asynchronous transfers. -/
  threadCount : Nat := 1
  deriving DecidableEq, Repr

namespace DeviceSettings

/-- A power of two: 1, 2, 4, … -/
def IsPowerOfTwo (n : Nat) : Prop := ∃ k, n = 1 <<< k

/-- Tells the powers of two: the numbers other than zero that equal their own
highest bit. -/
def isPowerOfTwo (n : Nat) : Bool := n != 0 && 1 <<< n.log2 == n

theorem isPowerOfTwo_iff (n : Nat) : isPowerOfTwo n = true ↔ IsPowerOfTwo n := by
  simp only [isPowerOfTwo, IsPowerOfTwo, Bool.and_eq_true, bne_iff_ne, beq_iff_eq,
    Nat.one_shiftLeft]
  constructor
  · exact fun h => ⟨n.log2, h.2.symm⟩
  · rintro ⟨k, rfl⟩
    exact ⟨Nat.ne_of_gt (Nat.two_pow_pos k), by rw [Nat.log2_two_pow]⟩

/-- The first rule that the settings break. -/
def check (s : DeviceSettings) : Except SettingsFault Unit :=
  if !isPowerOfTwo s.blockSize then .error (.blockSize s.blockSize)
  else if s.queueDepth = 0 then .error .queueDepth
  else if s.threadCount = 0 then .error .threadCount
  else .ok ()

/-- Settings that break no rule. -/
structure Valid (s : DeviceSettings) : Prop where
  blockSize : IsPowerOfTwo s.blockSize
  queueDepth : 0 < s.queueDepth
  threadCount : 0 < s.threadCount

theorem check_eq_ok_iff (s : DeviceSettings) : s.check = .ok () ↔ s.Valid := by
  constructor
  · intro h
    unfold check at h
    split at h
    · cases h
    · split at h
      · cases h
      · split at h
        · cases h
        · rename_i hb hq ht
          exact ⟨(isPowerOfTwo_iff _).mp (by simpa using hb), Nat.pos_of_ne_zero hq,
            Nat.pos_of_ne_zero ht⟩
  · intro h
    have hb : isPowerOfTwo s.blockSize = true := (isPowerOfTwo_iff _).mpr h.blockSize
    have hq : s.queueDepth ≠ 0 := Nat.ne_of_gt h.queueDepth
    have ht : s.threadCount ≠ 0 := Nat.ne_of_gt h.threadCount
    simp [check, hb, hq, ht]

end DeviceSettings
end BlockTransfer
