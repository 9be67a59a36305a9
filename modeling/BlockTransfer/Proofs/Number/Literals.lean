import BlockTransfer.Number.Literal
import Mathlib.Data.Nat.Digits.Defs
/-!
# What decimal literals are read as

A decimal number is read exactly if it is one or more digits, and its value is the usual one
(`Literal.digits?_eq_some_iff`); a plus may stand before it (`Literal.natural?_eq_some_iff`).

A number with a limit can be read with nothing but numbers up to that limit: a step that
would go beyond it shows that the number does (`Literal.scan?_eq`).

Key definitions: `Literal.checked?`, `Literal.scan?`.
Key theorems: `Literal.digits?_eq_some_iff`, `Literal.natural?_eq_some_iff`,
`Literal.scan?_eq`.
-/

namespace BlockTransfer
namespace Literal

variable {cs ds : List Char} {c : Char} {n limit acc : Nat}

/-! ### Digits -/

theorem toNat_sub_lt_of_isDigit (h : c.isDigit = true) : c.toNat - '0'.toNat < 10 := by
  rw [Char.isDigit, Bool.and_eq_true, decide_eq_true_eq, decide_eq_true_eq] at h
  have hle : c.toNat ≤ '9'.toNat := UInt32.le_iff_toNat_le.mp h.2
  exact Nat.lt_succ_of_le (Nat.sub_le_sub_right hle _)

theorem digit?_of_isDigit (h : c.isDigit = true) : digit? 10 c = some (c.toNat - '0'.toNat) := by
  rw [digit?, if_pos h]
  exact Option.filter_eq_some_iff.mpr ⟨rfl, decide_eq_true (toNat_sub_lt_of_isDigit h)⟩

/-- A letter is a digit of a greater base only. -/
theorem digit?_of_not_isDigit (h : c.isDigit = false) : digit? 10 c = none := by
  have hge (n : Nat) : ¬ n + 10 < 10 := by omega
  rw [digit?, h]
  simp only [Bool.false_eq_true, if_false]
  split
  · exact Option.filter_eq_none_iff.mpr fun _ hv => by cases hv; simp
  · split
    · exact Option.filter_eq_none_iff.mpr fun _ hv => by cases hv; simp
    · rfl

theorem digitsFrom?_of_isDigit (h : ∀ c ∈ cs, c.isDigit = true) (acc : Nat) :
    digitsFrom? 10 acc cs = some (Nat.ofDigitChars 10 cs acc) := by
  induction cs generalizing acc with
  | nil => rfl
  | cons c cs ih =>
    obtain ⟨hc, hcs⟩ := List.forall_mem_cons.mp h
    rw [digitsFrom?, digit?_of_isDigit hc, Nat.ofDigitChars_cons, Nat.mul_comm 10]
    exact ih hcs _

theorem digitsFrom?_of_not_isDigit (hc : c ∈ cs) (h : c.isDigit = false) (acc : Nat) :
    digitsFrom? 10 acc cs = none := by
  induction cs generalizing acc with
  | nil => cases hc
  | cons d cs ih =>
    rw [digitsFrom?]
    rcases List.mem_cons.mp hc with rfl | hc
    · rw [digit?_of_not_isDigit h]
    · cases digit? 10 d with
      | none => rfl
      | some v => exact ih hc _

/-- Digits are read as the number that they stand for, and nothing else is. -/
theorem digits?_eq_some_iff : digits? 10 cs = some n ↔
    cs ≠ [] ∧ (∀ c ∈ cs, c.isDigit = true) ∧ Nat.ofDigitChars 10 cs 0 = n := by
  rw [digits?]
  by_cases hne : cs = []
  · simp [hne]
  rw [if_neg (by rwa [List.isEmpty_iff]), ne_eq, and_iff_right hne]
  by_cases hall : ∀ c ∈ cs, c.isDigit = true
  · rw [digitsFrom?_of_isDigit hall, Option.some_inj, and_iff_right hall]
  · obtain ⟨c, hc, hdigit⟩ : ∃ c ∈ cs, c.isDigit = false := by simpa using hall
    rw [digitsFrom?_of_not_isDigit hc hdigit]
    exact iff_of_false nofun fun h => hall h.1

/-! ### Natural numbers -/

/-- The characters after an optional plus. -/
def afterPlus (cs : List Char) : List Char :=
  match cs with
  | '+' :: rest => rest
  | _ => cs

theorem natural?_eq (limit : Nat) (cs : List Char) :
    natural? limit cs = (digits? 10 (afterPlus cs)).filter (· ≤ limit) := rfl

theorem natural?_eq_some_iff : natural? limit cs = some n ↔ ∃ plus ds,
    cs = plus ++ ds ∧ (plus = [] ∨ plus = ['+']) ∧ digits? 10 ds = some n ∧ n ≤ limit := by
  have hplus (ds : List Char) : digits? 10 ('+' :: ds) ≠ some n := fun h => by
    have hdigit : '+'.isDigit = true := (digits?_eq_some_iff.mp h).2.1 _ List.mem_cons_self
    cases hdigit
  rw [natural?_eq, Option.filter_eq_some_iff, decide_eq_true_eq]
  unfold afterPlus
  constructor
  · rintro ⟨hdigits, hlimit⟩
    split at hdigits
    · exact ⟨['+'], _, rfl, .inr rfl, hdigits, hlimit⟩
    · exact ⟨[], cs, rfl, .inl rfl, hdigits, hlimit⟩
  · rintro ⟨_, ds, rfl, rfl | rfl, hdigits, hlimit⟩
    · refine ⟨?_, hlimit⟩
      split
      · rename_i rest heq
        rw [List.nil_append] at heq
        exact absurd (heq ▸ hdigits) (hplus rest)
      · exact hdigits
    · exact ⟨hdigits, hlimit⟩

/-! ### Within a limit -/

/-- A number that is within the limit. -/
def checked? (limit n : Nat) : Option Nat := if n ≤ limit then some n else none

/-- The value of digits after the value read so far; every product and every sum is kept
within the limit. -/
def scanFrom? (limit : Nat) : Nat → List Char → Option Nat
  | acc, [] => some acc
  | acc, c :: cs => do
    let d ← digit? 10 c
    let shifted ← checked? limit (acc * 10)
    let next ← checked? limit (shifted + d)
    scanFrom? limit next cs

/-- A decimal number with an optional plus, read within the limit. -/
def scan? (limit : Nat) (cs : List Char) : Option Nat :=
  if (afterPlus cs).isEmpty then none else scanFrom? limit 0 (afterPlus cs)

/-- More digits make a number no smaller. -/
theorem le_of_digitsFrom? (h : digitsFrom? 10 acc cs = some n) : acc ≤ n := by
  induction cs generalizing acc with
  | nil => exact Nat.le_of_eq (Option.some.inj h)
  | cons c cs ih =>
    rw [digitsFrom?] at h
    cases hd : digit? 10 c with
    | none => rw [hd] at h; cases h
    | some d =>
      rw [hd] at h
      have := ih h
      omega

theorem filter_digitsFrom?_of_lt (h : limit < acc) :
    (digitsFrom? 10 acc cs).filter (· ≤ limit) = none := by
  refine Option.filter_eq_none_iff.mpr fun n hn => ?_
  have := le_of_digitsFrom? hn
  simp only [decide_eq_true_eq]
  omega

theorem scanFrom?_eq (h : acc ≤ limit) :
    scanFrom? limit acc cs = (digitsFrom? 10 acc cs).filter (· ≤ limit) := by
  induction cs generalizing acc with
  | nil =>
    rw [scanFrom?, digitsFrom?]
    exact (Option.filter_eq_some_iff.mpr ⟨rfl, by simpa using h⟩).symm
  | cons c cs ih =>
    rw [scanFrom?, digitsFrom?]
    cases digit? 10 c with
    | none => rfl
    | some d =>
      simp only [Option.bind_eq_bind, Option.bind_some, checked?]
      by_cases hshift : acc * 10 ≤ limit
      · rw [if_pos hshift, Option.bind_some]
        by_cases hsum : acc * 10 + d ≤ limit
        · rw [if_pos hsum, Option.bind_some, ih hsum]
        · rw [if_neg hsum, Option.bind_none, filter_digitsFrom?_of_lt (Nat.not_le.mp hsum)]
      · have hsum : limit < acc * 10 + d := Nat.lt_add_right d (Nat.not_le.mp hshift)
        rw [if_neg hshift, Option.bind_none, filter_digitsFrom?_of_lt hsum]

/-- Reading within a limit is reading, and then looking whether the number is within it. -/
theorem scan?_eq (limit : Nat) (cs : List Char) : scan? limit cs = natural? limit cs := by
  rw [natural?_eq, scan?, digits?]
  split
  · rfl
  · exact scanFrom?_eq (Nat.zero_le _)

end Literal
end BlockTransfer
