import BlockTransfer.Text.Lowercase
/-!
# Lower case, character by character

Text of ASCII is put into lower case character by character. The only character that looks
around itself is the capital sigma, and it does not look past an underscore, which is neither
cased nor ignored. So what stands before an underscore and what stands after it are put into
lower case one apart from the other (`Lowercase.ofChars_underscore`).

Key theorems: `Lowercase.ofChars_ascii`, `Lowercase.ofChars_underscore`.
-/

namespace BlockTransfer
namespace Lowercase

variable {c : Char} {cs before : List Char}

theorem toList_ofString (s : String) : (ofString s).toList = ofChars [] s.toList := by
  rw [ofString, String.toList_ofList]

theorem ofChar_ascii (h : c.toNat < 0x80) : ofChar c = [c.toLower] := if_pos h

theorem ofChars_cons_ascii (h : c.toNat < 0x80) (before cs : List Char) :
    ofChars before (c :: cs) = c.toLower :: ofChars (c :: before) cs := by
  have hsigma : c ≠ 'Σ' := by
    rintro rfl
    exact absurd h (by decide)
  rw [ofChars, if_neg hsigma, ofChar_ascii h]
  rfl

theorem ofChars_ascii (h : ∀ c ∈ cs, c.toNat < 0x80) (before : List Char) :
    ofChars before cs = cs.map Char.toLower := by
  induction cs generalizing before with
  | nil => rfl
  | cons c cs ih =>
    obtain ⟨hfirst, hrest⟩ := List.forall_mem_cons.mp h
    rw [ofChars_cons_ascii hfirst, ih hrest, List.map_cons]

/-- No word goes past an underscore. -/
theorem goesOn_underscore (a b : List Char) : goesOn (a ++ '_' :: b) = goesOn (a ++ ['_']) := by
  have hstop (more : List Char) : ('_' :: more).dropWhile (isIn ignorableRanges) = '_' :: more :=
    List.dropWhile_cons_of_neg (by decide +kernel)
  unfold goesOn
  induction a with
  | nil => rw [List.nil_append, List.nil_append, hstop, hstop]; rfl
  | cons c a ih =>
    rw [List.cons_append, List.cons_append, List.dropWhile_cons, List.dropWhile_cons]
    split
    · exact ih
    · rfl

/-- The texts on both sides of an underscore are put into lower case apart. -/
theorem ofChars_underscore (before a b : List Char) : ofChars before (a ++ '_' :: b) =
    ofChars before (a ++ ['_']) ++ ofChars ('_' :: (a.reverse ++ before)) b := by
  induction a generalizing before with
  | nil =>
    have hascii : ('_' : Char).toNat < 0x80 := by decide
    rw [List.nil_append, List.nil_append, ofChars_cons_ascii hascii, ofChars_cons_ascii hascii]
    rfl
  | cons c a ih =>
    rw [List.cons_append, List.cons_append, ofChars, ofChars, ih, isFinal, isFinal,
      goesOn_underscore a b, List.reverse_cons, List.append_assoc, List.append_assoc]
    rfl

end Lowercase
end BlockTransfer
