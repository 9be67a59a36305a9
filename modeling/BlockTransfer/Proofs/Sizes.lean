import BlockTransfer.Size
import BlockTransfer.Proofs.Number.Literals
import Mathlib.Data.List.DropRight
/-!
# Which texts are sizes

A text is a size exactly if it is written as one: an optional plus, digits, and at most one
suffix, with white space around it that does not count. The number and what it comes to with
its suffix both have to be words. Where only the second is not, the size is too large; every
other text is no size at all (`Size.parse_decides`).

The reader looks at the last character first, and takes what stands before it for the number
if it is a suffix. It cuts between two characters, and it needs no number beyond a word: the
same comes out if each step is kept within them (`Size.parseWithin_eq`).

Key definitions: `Size.Trimmed`, `Size.parseWithin`, `Size.Decides`.
Key theorems: `Size.trimmed_iff`, `Size.written_iff`, `Size.parse_decides`.
-/

namespace BlockTransfer
namespace Size

variable {cs core : List Char} {v bits n : Nat}

/-! ### White space at the ends -/

/-- `core` is what is left of a text without the white space at both ends. -/
structure Trimmed (cs core : List Char) : Prop where
  ends : ∃ front back, cs = front ++ core ++ back ∧
    (∀ c ∈ front, isWhiteSpace c = true) ∧ ∀ c ∈ back, isWhiteSpace c = true
  first : ∀ c ∈ core.head?, isWhiteSpace c = false
  last : ∀ c ∈ core.getLast?, isWhiteSpace c = false

theorem trim_eq (cs : List Char) :
    trim cs = (cs.dropWhile isWhiteSpace).rdropWhile isWhiteSpace := rfl

theorem dropWhile_append_of_white {front : List Char}
    (h : ∀ c ∈ front, isWhiteSpace c = true) (rest : List Char) :
    (front ++ rest).dropWhile isWhiteSpace = rest.dropWhile isWhiteSpace := by
  rw [List.dropWhile_append, List.dropWhile_eq_nil_iff.mpr h]
  rfl

theorem dropWhile_eq_self (h : ∀ c ∈ cs.head?, isWhiteSpace c = false) :
    cs.dropWhile isWhiteSpace = cs := by
  cases cs with
  | nil => rfl
  | cons c cs => exact List.dropWhile_cons_of_neg (by simp [h c rfl])

theorem Trimmed.eq_trim (h : Trimmed cs core) : core = trim cs := by
  obtain ⟨⟨front, back, rfl, hfront, hback⟩, hfirst, hlast⟩ := h
  have hback' : ∀ c ∈ back.reverse, isWhiteSpace c = true := fun c hc =>
    hback c (List.mem_reverse.mp hc)
  rw [trim, List.append_assoc, dropWhile_append_of_white hfront]
  rcases core.eq_nil_or_concat with rfl | ⟨core', c, rfl⟩
  · rw [List.nil_append, List.dropWhile_eq_nil_iff.mpr hback]
    rfl
  · have hne : core'.concat c ++ back ≠ [] := by simp
    have hkeep : (core'.concat c ++ back).dropWhile isWhiteSpace = core'.concat c ++ back := by
      refine dropWhile_eq_self fun d hd => hfirst d ?_
      cases core' <;> exact hd
    rw [hkeep, List.reverse_append, dropWhile_append_of_white hback', dropWhile_eq_self,
      List.reverse_reverse]
    rwa [List.head?_reverse]

/-- What is left does not begin with white space, whatever is then taken off its end. -/
theorem head?_trim {c : Char} (h : (trim cs).head? = some c) : isWhiteSpace c = false := by
  obtain ⟨back, hback⟩ := List.rdropWhile_prefix isWhiteSpace (cs.dropWhile isWhiteSpace)
  have hhead : (cs.dropWhile isWhiteSpace).head? = some c := by
    rw [← hback, List.head?_append]
    exact Option.or_eq_some_iff.mpr (.inl h)
  have hnot := List.head?_dropWhile_not isWhiteSpace cs
  rwa [hhead] at hnot

theorem getLast?_trim {c : Char} (h : (trim cs).getLast? = some c) : isWhiteSpace c = false := by
  have hnot := List.head?_dropWhile_not isWhiteSpace (cs.dropWhile isWhiteSpace).reverse
  rw [trim, List.getLast?_reverse] at h
  rwa [h] at hnot

theorem trimmed_trim (cs : List Char) : Trimmed cs (trim cs) where
  ends := by
    refine ⟨cs.takeWhile isWhiteSpace, (cs.dropWhile isWhiteSpace).rtakeWhile isWhiteSpace, ?_,
      fun c hc => List.mem_takeWhile_imp hc, fun c hc => List.mem_rtakeWhile_imp hc⟩
    rw [trim_eq, List.append_assoc, List.rdropWhile_append_rtakeWhile,
      List.takeWhile_append_dropWhile]
  first _ hc := head?_trim hc
  last _ hc := getLast?_trim hc

/-- There is one way to take the white space off. -/
theorem trimmed_iff : Trimmed cs core ↔ core = trim cs :=
  ⟨Trimmed.eq_trim, fun h => h ▸ trimmed_trim cs⟩

/-! ### Suffixes -/

theorem suffix_of_shift? {c : Char} (h : shift? c = some bits) : Suffix [c] bits := by
  unfold shift? at h
  split at h
  · cases h
    exact .kilo c ‹_›
  · split at h
    · cases h
      exact .mega c ‹_›
    · split at h <;> cases h
      exact .giga c ‹_›

theorem shift?_of_suffix {c : Char} (h : Suffix [c] bits) : shift? c = some bits := by
  cases h with
  | kilo _ hc | mega _ hc | giga _ hc => rcases hc with rfl | rfl <;> rfl

theorem shift?_of_isDigit {c : Char} (h : c.isDigit = true) : shift? c = none := by
  cases hshift : shift? c with
  | none => rfl
  | some bits =>
    cases suffix_of_shift? hshift with
    | kilo _ hc | mega _ hc | giga _ hc => rcases hc with rfl | rfl <;> cases h

/-- What is taken for the number and the suffix after it make up the text. -/
theorem splitSuffix_spec (cs : List Char) : ∃ suffix, cs = (splitSuffix cs).1 ++ suffix ∧
    Suffix suffix (splitSuffix cs).2 := by
  unfold splitSuffix
  split
  · rename_i bits h
    obtain ⟨c, hlast, hshift⟩ := Option.bind_eq_some_iff.mp h
    exact ⟨[c], (List.dropLast_append_getLast? c hlast).symm, suffix_of_shift? hshift⟩
  · exact ⟨[], (List.append_nil cs).symm, .none⟩

/-- Digits are followed by a suffix or by nothing. -/
theorem splitSuffix_append {front suffix : List Char} {c : Char} (hc : c.isDigit = true)
    (h : Suffix suffix bits) : splitSuffix (front ++ [c] ++ suffix) = (front ++ [c], bits) := by
  have hone {d : Char} (hd : Suffix [d] bits) :
      splitSuffix (front ++ [c] ++ [d]) = (front ++ [c], bits) := by
    rw [splitSuffix, List.getLast?_concat, Option.bind_some, shift?_of_suffix hd,
      List.dropLast_concat]
  cases h with
  | none =>
    rw [List.append_nil, splitSuffix, List.getLast?_concat, Option.bind_some, shift?_of_isDigit hc]
  | kilo d hd => exact hone (.kilo d hd)
  | mega d hd => exact hone (.mega d hd)
  | giga d hd => exact hone (.giga d hd)

/-- What a suffix multiplies by is a word. -/
theorem Suffix.factor_le {suffix : List Char} (h : Suffix suffix bits) : 1 <<< bits ≤ max := by
  cases h <;> decide

/-! ### Numbers -/

/-- What is written as a size is read by taking the suffix off and reading the number. -/
theorem written_iff : Written cs v bits ∧ v ≤ max ↔
    Literal.natural? max (splitSuffix cs).1 = some v ∧ (splitSuffix cs).2 = bits := by
  rw [Literal.natural?_eq_some_iff]
  constructor
  · rintro ⟨⟨plus, ds, suffix, rfl, hplus, hne, hdigits, hvalue, hsuffix⟩, hlimit⟩
    obtain ⟨front, c, hlast⟩ := (List.eq_nil_or_concat ds).resolve_left hne
    have hc : c.isDigit = true := hdigits c (by simp [hlast])
    have hsplit : splitSuffix (plus ++ ds ++ suffix) = (plus ++ ds, bits) := by
      rw [hlast, List.concat_eq_append, ← List.append_assoc]
      exact splitSuffix_append hc hsuffix
    rw [hsplit]
    exact ⟨⟨plus, ds, rfl, hplus, Literal.digits?_eq_some_iff.mpr ⟨hne, hdigits, hvalue⟩, hlimit⟩,
      rfl⟩
  · rintro ⟨⟨plus, ds, hcut, hplus, hread, hlimit⟩, rfl⟩
    obtain ⟨suffix, hcs, hsuffix⟩ := splitSuffix_spec cs
    obtain ⟨hne, hdigits, hvalue⟩ := Literal.digits?_eq_some_iff.mp hread
    rw [hcut] at hcs
    exact ⟨⟨plus, ds, suffix, hcs, hplus, hne, hdigits, hvalue, hsuffix⟩, hlimit⟩

/-- A text is written as one size at most. -/
theorem written_unique {v' bits' : Nat} (h : Written cs v bits) (hv : v ≤ max)
    (h' : Written cs v' bits') (hv' : v' ≤ max) : v = v' ∧ bits = bits' := by
  obtain ⟨hread, hbits⟩ := written_iff.mp ⟨h, hv⟩
  obtain ⟨hread', hbits'⟩ := written_iff.mp ⟨h', hv'⟩
  exact ⟨Option.some.inj (hread.symm.trans hread'), hbits.symm.trans hbits'⟩

/-! ### Reading -/

theorem parse_of_written {s : String} (h : Written (trim s.toList) v bits) (hv : v ≤ max) :
    parse s = if v * Nat.pow 2 bits ≤ max then .ok (v * Nat.pow 2 bits)
      else .error (.tooLarge (String.ofList (trim s.toList))) := by
  obtain ⟨hread, hbits⟩ := written_iff.mp ⟨h, hv⟩
  have hshift : v <<< bits = v * Nat.pow 2 bits := Nat.shiftLeft_eq v bits
  simp only [parse, hread, hbits, hshift]

theorem parse_of_not_written {s : String}
    (h : ¬∃ v bits, Written (trim s.toList) v bits ∧ v ≤ max) :
    parse s = .error (.invalid (String.ofList (trim s.toList))) := by
  cases hread : Literal.natural? max (splitSuffix (trim s.toList)).1 with
  | none => simp only [parse, hread]
  | some n => exact absurd ⟨n, _, written_iff.mpr ⟨hread, rfl⟩⟩ h

/-- Reads a size with nothing but numbers of at most `limit`: each product and each sum is
refused if it is none. -/
def parseWithin (limit : Nat) (s : String) : Except SizeError Nat :=
  let cs := trim s.toList
  let (digits, bits) := splitSuffix cs
  match Literal.scan? limit digits with
  | none => .error (.invalid (String.ofList cs))
  | some n =>
    match (Literal.checked? limit (1 <<< bits)).bind fun m => Literal.checked? limit (n * m) with
    | none => .error (.tooLarge (String.ofList cs))
    | some size => .ok size

theorem parseWithin_eq (s : String) : parseWithin max s = parse s := by
  obtain ⟨suffix, -, hsuffix⟩ := splitSuffix_spec (trim s.toList)
  simp only [parseWithin, parse, Literal.scan?_eq, Literal.checked?, if_pos hsuffix.factor_le,
    Option.bind_some]
  cases Literal.natural? max (splitSuffix (trim s.toList)).1 with
  | none => rfl
  | some n =>
    have hproduct (bits : Nat) : n * 1 <<< bits = n <<< bits := by
      rw [Nat.shiftLeft_eq, Nat.shiftLeft_eq, Nat.one_mul]
    dsimp only
    rw [hproduct]
    by_cases hle : n <<< (splitSuffix (trim s.toList)).2 ≤ max
    · simp only [if_pos hle]
    · simp only [if_neg hle]

/-- A text is cut between two of its characters. -/
theorem splitSuffix_cut (cs : List Char) : ∃ suffix, Suffix suffix (splitSuffix cs).2 ∧
    String.ofList cs = String.ofList (splitSuffix cs).1 ++ String.ofList suffix ∧
    (String.ofList (splitSuffix cs).1).rawEndPos.IsValid (String.ofList cs) := by
  obtain ⟨suffix, hcs, hsuffix⟩ := splitSuffix_spec cs
  have htext : String.ofList cs = String.ofList (splitSuffix cs).1 ++ String.ofList suffix := by
    rw [← String.ofList_append, ← hcs]
  exact ⟨suffix, hsuffix, htext, String.Pos.Raw.isValid_iff_exists_append.mpr ⟨_, _, htext, rfl⟩⟩

/-- What reading a text as a size comes to. -/
structure Decides (s : String) (result : Except SizeError Nat) : Prop where
  /-- White space at both ends does not count. -/
  trimmed : ∀ core, Trimmed s.toList core ↔ core = trim s.toList
  ok_iff : ∀ n, result = .ok n ↔ ∃ v bits, Written (trim s.toList) v bits ∧ v ≤ Word.max ∧
    n = v * Nat.pow 2 bits ∧ n ≤ Word.max
  tooLarge_iff : ∀ t, result = .error (.tooLarge t) ↔ t = String.ofList (trim s.toList) ∧
    ∃ v bits, Written (trim s.toList) v bits ∧ v ≤ Word.max ∧ Word.max < v * Nat.pow 2 bits
  invalid_iff : ∀ t, result = .error (.invalid t) ↔ t = String.ofList (trim s.toList) ∧
    ¬∃ v bits, Written (trim s.toList) v bits ∧ v ≤ Word.max
  /-- The text is cut at the boundary of a character, and no more than a suffix is cut off. -/
  cut : ∃ suffix, Suffix suffix (splitSuffix (trim s.toList)).2 ∧
    String.ofList (trim s.toList) =
      String.ofList (splitSuffix (trim s.toList)).1 ++ String.ofList suffix ∧
    (String.ofList (splitSuffix (trim s.toList)).1).rawEndPos.IsValid
      (String.ofList (trim s.toList))
  /-- Nothing but words is needed. -/
  inWords : result = parseWithin Word.max s

/-- Which texts are sizes, and of how many bytes. -/
theorem parse_decides (s : String) : Decides s (parse s) := by
  have hcut := splitSuffix_cut (trim s.toList)
  have hwithin : parse s = parseWithin Word.max s := (parseWithin_eq s).symm
  by_cases h : ∃ v bits, Written (trim s.toList) v bits ∧ v ≤ Word.max
  · obtain ⟨v, bits, hwritten, hv⟩ := h
    have hparse := parse_of_written hwritten hv
    have hone (P : Nat → Nat → Prop) :
        (∃ v' bits', Written (trim s.toList) v' bits' ∧ v' ≤ Word.max ∧ P v' bits') ↔ P v bits := by
      refine ⟨?_, fun hP => ⟨v, bits, hwritten, hv, hP⟩⟩
      rintro ⟨v', bits', hwritten', hv', hP⟩
      obtain ⟨rfl, rfl⟩ := written_unique hwritten hv hwritten' hv'
      exact hP
    refine ⟨fun _ => trimmed_iff, fun n => ?_, fun t => ?_, fun t => ?_, hcut, hwithin⟩
    · rw [hone fun v bits => n = v * Nat.pow 2 bits ∧ n ≤ Word.max, hparse]
      split
      case isTrue hle => exact ⟨fun h => by cases h; exact ⟨rfl, hle⟩, fun h => by rw [h.1]⟩
      case isFalse hlt => exact ⟨nofun, fun h => absurd (h.1 ▸ h.2) hlt⟩
    · rw [hone fun v bits => Word.max < v * Nat.pow 2 bits, hparse]
      split
      case isTrue hle => exact ⟨nofun, fun h => absurd h.2 (Nat.not_lt.mpr hle)⟩
      case isFalse hlt =>
        exact ⟨fun h => by cases h; exact ⟨rfl, Nat.not_le.mp hlt⟩, fun h => by rw [h.1]⟩
    · rw [hparse]
      refine ⟨fun h => ?_, fun h => absurd ⟨v, bits, hwritten, hv⟩ h.2⟩
      split at h <;> cases h
  · have hparse := parse_of_not_written h
    have hnone (P : Nat → Nat → Prop) :
        ¬∃ v bits, Written (trim s.toList) v bits ∧ v ≤ Word.max ∧ P v bits :=
      fun ⟨v, bits, hwritten, hv, _⟩ => h ⟨v, bits, hwritten, hv⟩
    refine ⟨fun _ => trimmed_iff, fun n => ?_, fun t => ?_, fun t => ?_, hcut, hwithin⟩
    · rw [hparse]
      exact iff_of_false nofun (hnone _)
    · rw [hparse]
      exact iff_of_false nofun fun h => hnone _ h.2
    · rw [hparse]
      exact ⟨fun heq => by cases heq; exact ⟨rfl, h⟩, fun h => by rw [h.1]⟩

/-- The greatest product, a product that is too great, and a number that is. -/
example : parse " +017179869183g\u2003" = .ok 18446744072635809792 ∧
    parse "17179869184G" = .error (.tooLarge "17179869184G") ∧
    parse "18446744073709551616" = .error (.invalid "18446744073709551616") := by
  decide +kernel

end Size
end BlockTransfer
