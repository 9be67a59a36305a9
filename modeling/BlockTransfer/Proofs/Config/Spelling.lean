import BlockTransfer.Config.Layers
import BlockTransfer.Proofs.Number.Literals
import BlockTransfer.Proofs.Text.Lowercase
/-!
# The texts of variables

The text of a variable is guessed to be a truth value or a number if it can be read as
one. Where a text is asked for, what was guessed is written again, in the one way that such
a value is written (`Layer.spelled`). So a text stays as it is unless it spells a truth
value or a number in another way (`Layer.spelled_eq_self_iff`).

A text that starts with a slash spells no such value, and none is written with a slash. So
an absolute path stays as it is, and what is written for a text that does not stay is no
absolute path either.

Key definition: `Layer.spelled`.
Key theorems: `Layer.textOf_variableValue`, `Layer.spelled_eq_self_iff`,
`Layer.isAbsolute_of_spelled_ne`.
-/

namespace BlockTransfer

/-! ### How values are written -/

theorem Nat.slash_notMem_toDigits (n : Nat) : '/' ∉ Nat.toDigits 10 n := fun h =>
  absurd (Nat.isDigit_of_mem_toDigits (by decide) (by decide) h) (by decide)

theorem Int.slash_notMem_toString (i : Int) : '/' ∉ (toString i).toList := by
  have hnat (n : Nat) : '/' ∉ (Nat.repr n).toList := by
    rw [Nat.repr, String.toList_ofList]
    exact Nat.slash_notMem_toDigits n
  cases i with
  | ofNat n => exact hnat n
  | negSucc n =>
    have htext : (toString (Int.negSucc n)).toList = '-' :: (Nat.repr (n + 1)).toList := by
      show ("-" ++ Nat.repr (n + 1)).toList = _
      rw [String.toList_append]
      rfl
    rw [htext, List.mem_cons, not_or]
    exact ⟨by decide, hnat _⟩

namespace Binary64

theorem slash_notMem_positional (digits : Nat) (power : Int) :
    '/' ∉ (positional digits power).toList := by
  have hzeros (n : Nat) : '/' ∉ List.replicate n '0' := fun h =>
    absurd (List.eq_of_mem_replicate h) (by decide)
  unfold positional
  dsimp only
  split
  · rw [String.toList_ofList, List.mem_append, not_or]
    exact ⟨Nat.slash_notMem_toDigits _, hzeros _⟩
  · generalize hpadded : List.replicate _ '0' ++ Nat.toDigits 10 digits = padded
    have hslash : '/' ∉ padded := by
      rw [← hpadded, List.mem_append, not_or]
      exact ⟨hzeros _, Nat.slash_notMem_toDigits _⟩
    rw [String.toList_ofList, List.mem_append, not_or]
    refine ⟨fun h => hslash (List.mem_of_mem_take h), fun h => ?_⟩
    split at h
    · cases h
    · rcases List.mem_cons.mp h with h | h
      · cases h
      · have hmem := (List.dropWhile_sublist _).subset (List.mem_reverse.mp h)
        exact hslash (List.mem_of_mem_drop (List.mem_reverse.mp hmem))

theorem slash_notMem_render (x : Binary64) : '/' ∉ x.render.toList := by
  cases x with
  | nan => decide
  | infinity negative => cases negative <;> decide
  | finite negative m e =>
    have hbody : '/' ∉ (if m = 0 then "0" else
        positional (shortest m e).1 (shortest m e).2).toList := by
      split
      · decide
      · exact slash_notMem_positional _ _
    cases negative with
    | false => exact hbody
    | true =>
      show '/' ∉ ("-" ++ _).toList
      rw [String.toList_append, List.mem_append, not_or]
      exact ⟨by decide, hbody⟩

end Binary64

namespace Layer

open ReadingRules (textOf)

/-- What is read of a variable's text where a text is asked for. -/
def spelled (text : String) : String :=
  match variableValue text with
  | .bool b => if b then "true" else "false"
  | .int i => toString i
  | .float x => x.render
  | _ => text

variable {text : String}

/-- A text is guessed to be a truth value, a whole number, a number, or itself. -/
theorem variableValue_cases (text : String) :
    (∃ b, variableValue text = .bool b) ∨ (∃ i, variableValue text = .int i) ∨
      (∃ x, variableValue text = .float x) ∨ variableValue text = .text text := by
  unfold variableValue
  dsimp only
  split
  · exact .inl ⟨_, rfl⟩
  split
  · exact .inl ⟨_, rfl⟩
  split
  · exact .inr (.inl ⟨_, rfl⟩)
  split
  · exact .inr (.inr (.inl ⟨_, rfl⟩))
  · exact .inr (.inr (.inr rfl))

theorem textOf_variableValue (text : String) :
    textOf (variableValue text) = some (spelled text) := by
  unfold spelled
  obtain ⟨b, h⟩ | ⟨i, h⟩ | ⟨x, h⟩ | h := variableValue_cases text <;> rw [h] <;> rfl

/-- A text stays as it is if and only if it is written as what it is guessed to be. -/
theorem spelled_eq_self_iff : spelled text = text ↔
    (∀ b, variableValue text = .bool b → text = if b then "true" else "false") ∧
    (∀ i, variableValue text = .int i → text = toString i) ∧
    ∀ x, variableValue text = .float x → text = x.render := by
  unfold spelled
  obtain ⟨b, h⟩ | ⟨i, h⟩ | ⟨x, h⟩ | h := variableValue_cases text <;> rw [h] <;> simp [eq_comm]

/-! ### Absolute paths -/

theorem digits?_slash (cs : List Char) : Literal.digits? 10 ('/' :: cs) = none := by
  show Literal.digitsFrom? 10 0 ('/' :: cs) = none
  exact Literal.digitsFrom?_of_not_isDigit (c := '/') List.mem_cons_self (by decide) 0

/-- A text that starts with a slash is no truth value and no number. -/
theorem variableValue_of_isAbsolute (h : Path.isAbsolute text = true) :
    variableValue text = .text text := by
  obtain ⟨cs, hcs⟩ : ∃ cs, text.toList = '/' :: cs :=
    List.head?_eq_some_iff.mp (beq_iff_eq.mp h)
  have hword {lower : List Char} (word : String) (hword : word.toList.head? ≠ some '/') :
      (String.ofList ('/' :: lower) == word) = false := by
    refine beq_eq_false_iff_ne.mpr fun heq => hword ?_
    rw [← heq, String.toList_ofList]
    rfl
  have hlower : Lowercase.ofString text = String.ofList ('/' :: Lowercase.ofChars ['/'] cs) := by
    rw [Lowercase.ofString, hcs, Lowercase.ofChars_cons_ascii (by decide)]
    rfl
  have hinteger : Literal.integer? Word.signedLimit text.toList = none := by
    rw [hcs]
    show ((Literal.digits? 10 ('/' :: cs)).filter (· ≤ Word.signedLimit - 1)).map Int.ofNat = none
    rw [digits?_slash]
    rfl
  have hunsigned : Literal.unsigned? false ('/' :: cs) = none := by
    simp only [Literal.unsigned?, Literal.splitAtFirst]
    split <;> simp [digits?_slash]
  have hfloat : Binary64.parse? text = none := by
    have hsign : Literal.sign text.toList = (false, '/' :: cs) := by rw [hcs]; rfl
    rw [Binary64.parse?, hsign]
    dsimp only
    rw [List.map_cons, show '/'.toLower = '/' from rfl, hword _ (by decide), hword _ (by decide),
      hword _ (by decide), hunsigned]
    rfl
  unfold variableValue
  simp only [hlower, hword "true" (by decide), hword "false" (by decide), hinteger, hfloat,
    Bool.false_eq_true, if_false]

/-- A text that does not stay as it is is no absolute path, before and after. -/
theorem isAbsolute_of_spelled_ne (h : spelled text ≠ text) :
    Path.isAbsolute text = false ∧ Path.isAbsolute (spelled text) = false := by
  have hrelative {t : String} (ht : '/' ∉ t.toList) : Path.isAbsolute t = false := by
    refine Bool.eq_false_iff.mpr fun habs => ht ?_
    exact List.mem_of_mem_head? (beq_iff_eq.mp habs)
  constructor
  · refine Bool.eq_false_iff.mpr fun habs => h ?_
    rw [spelled, variableValue_of_isAbsolute habs]
  · refine hrelative ?_
    unfold spelled at h ⊢
    obtain ⟨b, hv⟩ | ⟨i, hv⟩ | ⟨x, hv⟩ | hv := variableValue_cases text <;> rw [hv] at h ⊢
    · show '/' ∉ (if b then "true" else "false").toList
      cases b <;> decide
    · exact Int.slash_notMem_toString i
    · exact Binary64.slash_notMem_render x
    · exact absurd rfl h

end Layer
end BlockTransfer
