import BlockTransfer.Toml.Document
import BlockTransfer.Proofs.Number.Literals
import BlockTransfer.Proofs.Toml.Strings
import Mathlib.Tactic.IntervalCases
/-!
# Reading back a document line by line

The printer writes headers and entries of one line each, and empty lines between the
sections (`Toml.Line`). Such a document is read as what its lines say, one after the
other (`Toml.read?_lines`), provided that its keys are bare and the text of every entry
is read as its value where a line break follows (`Toml.Reads`). The texts of the
printer are: those of natural numbers, of truth values, and quoted ones.

Key definitions: `Toml.Reads`, `Toml.Line`, `Toml.document?`.
Key theorems: `Toml.reads_natural`, `Toml.reads_quote`, `Toml.read?_lines`.
-/

namespace BlockTransfer
namespace Toml

variable {n : Nat} {cs rest : List Char}

/-! ### Decimal digits -/

theorem isDigit_of_mem {c : Char} (h : c ∈ Nat.toDigits 10 n) : c.isDigit = true :=
  Nat.isDigit_of_mem_toDigits (by decide) (by decide) h

/-- A positive number has no leading zero. -/
theorem toDigits_starts (h : 0 < n) : ∃ d more, Nat.toDigits 10 n = d :: more ∧ d ≠ '0' := by
  induction n using Nat.strongRecOn with
  | ind n ih =>
    rcases Nat.lt_or_ge n 10 with hlt | hge
    · refine ⟨n.digitChar, [], Nat.toDigits_of_lt_base hlt, ?_⟩
      interval_cases n <;> decide
    · obtain ⟨d, more, hdigits, hd⟩ := ih (n / 10) (by omega) (by omega)
      rw [Nat.toDigits_of_base_le (by decide) hge, hdigits]
      exact ⟨d, _, rfl, hd⟩

theorem ungroup?_of_notMem (hne : cs ≠ []) (h : '_' ∉ cs) : ungroup? cs = some cs := by
  induction cs with
  | nil => exact absurd rfl hne
  | cons c cs ih =>
    obtain ⟨hc, hcs⟩ := not_or.mp (fun h' => h (List.mem_cons.mpr h'))
    cases cs with
    | nil => rw [ungroup?, if_neg (Ne.symm hc)]
    | cons d cs =>
      have hd : d ≠ '_' := fun h' => hcs (h' ▸ List.mem_cons_self)
      rw [ungroup?, if_neg (Ne.symm hc), ih nofun hcs]
      · rfl
      · exact nofun
      · exact fun _ h' => hd (List.cons.inj h').1

theorem decimalDigits?_toDigits (n : Nat) :
    decimalDigits? (Nat.toDigits 10 n) = some (Nat.toDigits 10 n) := by
  have hall : (Nat.toDigits 10 n).all Char.isDigit = true :=
    List.all_eq_true.mpr fun c hc => isDigit_of_mem hc
  rw [decimalDigits?, ungroup?_of_notMem Nat.toDigits_ne_nil Nat.underscore_not_in_toDigits]
  rcases Nat.eq_zero_or_pos n with rfl | hpos
  · rfl
  · obtain ⟨d, more, hdigits, hd⟩ := toDigits_starts hpos
    rw [hdigits] at hall ⊢
    simp only [Option.bind_eq_bind, Option.bind_some, hall, if_true]
    split
    · rename_i heq
      exact absurd (List.cons.inj heq).1 hd
    · rfl

/-- The digits of a number are read as that number. -/
theorem integer?_toDigits (n : Nat) : integer? (Nat.toDigits 10 n) = some (n : Int) := by
  have hvalue : Literal.digits? 10 (Nat.toDigits 10 n) = some n := by
    rw [Literal.digits?, if_neg (by simp [Nat.toDigits_ne_nil]),
      Literal.digitsFrom?_of_isDigit (fun c hc => isDigit_of_mem hc), Nat.ofDigitChars_ten_toDigits]
  have hmem (front : List Char) {c : Char} {back : List Char}
      (h : Nat.toDigits 10 n = front ++ c :: back) : c.isDigit = true := by
    refine isDigit_of_mem (n := n) ?_
    rw [h]
    exact List.mem_append_right _ List.mem_cons_self
  have hsign : Literal.sign (Nat.toDigits 10 n) = (false, Nat.toDigits 10 n) := by
    unfold Literal.sign
    split
    · rename_i h
      cases hmem [] h
    · rename_i h
      cases hmem [] h
    · rfl
  unfold integer?
  dsimp only
  split
  · rename_i h
    cases hmem ['0'] h
  · rename_i h
    cases hmem ['0'] h
  · rename_i h
    cases hmem ['0'] h
  · simp only [hsign, decimalDigits?_toDigits, hvalue, Option.bind_eq_bind, Option.bind_some]
    rfl

/-! ### Values on a line -/

theorem isScalarChar_of_isDigit {c : Char} (h : c.isDigit = true) : isScalarChar c = true := by
  simp [isScalarChar, Char.isAlphanum, h]

/-- A run that a line break ends. -/
theorem scalar_of_run {v : Value} (hrun : ∀ c ∈ cs, isScalarChar c = true)
    (hv : scalarValue? cs = some v) (rest : List Char) :
    scalar (cs ++ '\n' :: rest) = some (v, '\n' :: rest) := by
  have htake : (cs ++ '\n' :: rest).takeWhile isScalarChar = cs := by
    rw [List.takeWhile_append_of_pos hrun]
    simp [isScalarChar]
  have hrun : scalarRun (cs ++ '\n' :: rest) = cs := by
    unfold scalarRun
    rw [htake]
    dsimp only
    rw [List.drop_left]
    split
    · rename_i heq
      cases heq
    · rfl
  rw [scalar, hrun]
  simp only [hv, Option.map_some, List.drop_left]

/-! ### Values on a line -/

/-- The text is read as the value, if a line break follows. -/
def Reads (text : String) (v : Value) : Prop :=
  ∀ rest, value? (skipBlanks (text.toList ++ '\n' :: rest)) = some (v, '\n' :: rest)

theorem skipBlanks_cons {c : Char} (h : isBlank c = false) : skipBlanks (c :: cs) = c :: cs := by
  rw [skipBlanks, List.dropWhile_cons, h]
  rfl

theorem isBlank_of_isDigit {c : Char} (h : c.isDigit = true) : isBlank c = false := by
  cases hb : isBlank c with
  | false => rfl
  | true =>
    rw [isBlank, Bool.or_eq_true, beq_iff_eq, beq_iff_eq] at hb
    rcases hb with rfl | rfl <;> cases h

theorem reads_bool (b : Bool) : Reads (if b then "true" else "false") (.bool b) := by
  intro rest
  cases b with
  | true => exact scalar_of_run (show ∀ c ∈ "true".toList, _ by simp [isScalarChar]) rfl rest
  | false => exact scalar_of_run (show ∀ c ∈ "false".toList, _ by simp [isScalarChar]) rfl rest

/-- What starts with a digit is a scalar. -/
theorem value?_of_isDigit {d : Char} (h : d.isDigit = true) :
    value? (d :: cs) = scalar (d :: cs) := by
  unfold value? valueFuel?
  split
  case h_5 => rfl
  all_goals
    rename_i heq
    obtain ⟨rfl, -⟩ := List.cons.inj heq
    cases h

theorem reads_natural (n : Nat) : Reads (toString (n : Int)) (.int n) := by
  intro rest
  have htext : (toString (n : Int)).toList = Nat.toDigits 10 n := by
    show (Nat.repr n).toList = _
    rw [Nat.repr_eq_ofList_toDigits, String.toList_ofList]
  have hall : ∀ c ∈ Nat.toDigits 10 n, c.isDigit = true := fun c hc => isDigit_of_mem hc
  obtain ⟨d, more, hdigits⟩ := List.exists_cons_of_ne_nil (Nat.toDigits_ne_nil (n := n) (b := 10))
  have hd : d.isDigit = true := hall d (hdigits ▸ List.mem_cons_self)
  have hvalue : scalarValue? (Nat.toDigits 10 n) = some (.int n) := by
    have htrue : Nat.toDigits 10 n ≠ "true".toList := by
      rintro h
      cases hall 't' (h ▸ List.mem_cons_self)
    have hfalse : Nat.toDigits 10 n ≠ "false".toList := by
      rintro h
      cases hall 'f' (h ▸ List.mem_cons_self)
    rw [scalarValue?, if_neg htrue, if_neg hfalse, integer?_toDigits]
  rw [htext, hdigits, List.cons_append, skipBlanks_cons (isBlank_of_isDigit hd),
    value?_of_isDigit hd, ← List.cons_append, ← hdigits]
  exact scalar_of_run (fun c hc => isScalarChar_of_isDigit (hall c hc)) hvalue rest

theorem quoteChars_starts (cs : List Char) :
    ∃ q more, quoteChars cs = q :: more ∧ (q = '"' ∨ q = '\'') := by
  unfold quoteChars
  dsimp only
  split <;> simp

theorem reads_quote (s : String) : Reads (quote s) (.text s) := by
  intro rest
  obtain ⟨q, more, hq, hquote⟩ := quoteChars_starts s.toList
  have hread := string?_quoteChars s.toList rest
  have hstring : value? (skipBlanks (quoteChars s.toList ++ '\n' :: rest)) =
      (string? (quoteChars s.toList ++ '\n' :: rest)).map fun p =>
        (.text (String.ofList p.1), p.2) := by
    rw [hq]
    rcases hquote with rfl | rfl <;> rfl
  simp only [quote, String.toList_ofList, hstring, hread, Option.map_some, String.ofList_toList]

/-! ### Lines -/

/-- The name can stand as a key without quotes. -/
def Bare (k : String) : Prop := k ≠ "" ∧ ∀ c ∈ k.toList, isBareKeyChar c = true

instance (k : String) : Decidable (Bare k) := inferInstanceAs (Decidable (_ ∧ _))

/-- A line of a document as the printer writes it. -/
inductive Line where
  | blank
  | header (path : List String)
  | entry (k text : String) (v : Value)

namespace Line

/-- The line without its line break. -/
def text : Line → String
  | blank => ""
  | header path => "[" ++ ".".intercalate path ++ "]"
  | entry k text _ => k ++ " = " ++ text

/-- What the line says. -/
def statement? : Line → Option Statement
  | blank => none
  | header path => some (.header path)
  | entry k _ v => some (.entry [k] v)

/-- Keys are bare, and the text of an entry is read as its value. -/
def Readable : Line → Prop
  | blank => True
  | header path => path ≠ [] ∧ ∀ k ∈ path, Bare k
  | entry k text v => Bare k ∧ Reads text v

end Line

variable {k : String} {path : List String} {fuel : Nat}

/-- A character that can be part of a bare key starts neither blanks nor a comment, a
line break or a header. -/
theorem plain_of_isBareKeyChar {c : Char} (h : isBareKeyChar c = true) :
    isBlank c = false ∧ c ≠ '#' ∧ c ≠ '\n' ∧ c ≠ '\r' ∧ c ≠ '[' ∧ c ≠ Char.ofNat 0xfeff := by
  have hne {d : Char} (hd : isBareKeyChar d = false) : c ≠ d := by
    rintro rfl
    cases h.symm.trans hd
  refine ⟨?_, hne rfl, hne rfl, hne rfl, hne rfl, hne rfl⟩
  rw [isBlank, Bool.or_eq_false_iff, beq_eq_false_iff_ne, beq_eq_false_iff_ne]
  exact ⟨hne rfl, hne rfl⟩

theorem Bare.starts (h : Bare k) : ∃ c cs, k.toList = c :: cs ∧ isBareKeyChar c = true := by
  obtain ⟨c, cs, hk⟩ := List.exists_cons_of_ne_nil fun h' => h.1 (String.toList_eq_nil_iff.mp h')
  exact ⟨c, cs, hk, h.2 c (hk ▸ List.mem_cons_self)⟩

/-- A bare key is read up to the first character that cannot be part of it. -/
theorem simpleKey?_of_bare (h : Bare k) {c : Char} (hc : isBareKeyChar c = false)
    (rest : List Char) :
    simpleKey? (skipBlanks (k.toList ++ c :: rest)) = some (k, c :: rest) := by
  obtain ⟨d, cs, hk, hd⟩ := h.starts
  have htake : (k.toList ++ c :: rest).takeWhile isBareKeyChar = k.toList := by
    rw [List.takeWhile_append_of_pos h.2]
    simp [hc]
  have hblanks : skipBlanks (k.toList ++ c :: rest) = k.toList ++ c :: rest := by
    rw [hk, List.cons_append, skipBlanks_cons (plain_of_isBareKeyChar hd).1]
  have hne : k.toList.isEmpty = false := by rw [hk]; rfl
  rw [hblanks, simpleKey?, htake]
  simp only [hne, Bool.false_eq_true, if_false, List.drop_left, String.ofList_toList]

/-- A path of bare keys is read up to what ends it. -/
theorem keyFuel?_of_bare (hne : path ≠ []) (h : ∀ k ∈ path, Bare k) (hf : path.length ≤ fuel)
    {c : Char} (hc : isBareKeyChar c = false) {rest : List Char}
    (hrest : ∀ more, skipBlanks (c :: rest) ≠ '.' :: more) :
    keyFuel? fuel ((".".intercalate path).toList ++ c :: rest) =
      some (path, skipBlanks (c :: rest)) := by
  induction path generalizing fuel with
  | nil => exact absurd rfl hne
  | cons k path ih =>
    obtain ⟨hk, hpath⟩ := List.forall_mem_cons.mp h
    obtain ⟨fuel, rfl⟩ := Nat.exists_eq_add_one_of_ne_zero (Nat.ne_of_gt (Nat.zero_lt_of_lt hf))
    cases path with
    | nil =>
      rw [String.intercalate_singleton, keyFuel?, simpleKey?_of_bare hk hc]
      simp only [Option.bind_eq_bind, Option.bind_some]
    | cons l path =>
      have hread := ih nofun hpath (Nat.le_of_succ_le_succ hf)
      have htext : (".".intercalate (k :: l :: path)).toList ++ c :: rest =
          k.toList ++ '.' :: ((".".intercalate (l :: path)).toList ++ c :: rest) := by
        simp [String.intercalate_cons_cons]
      rw [htext, keyFuel?, simpleKey?_of_bare hk rfl]
      simp only [Option.bind_eq_bind, Option.bind_some]
      show (keyFuel? fuel _).map _ = _
      rw [hread, Option.map_some]

theorem length_le_intercalate (h : ∀ k ∈ path, Bare k) :
    path.length ≤ (".".intercalate path).toList.length := by
  induction path with
  | nil => exact Nat.zero_le _
  | cons k path ih =>
    obtain ⟨hk, hpath⟩ := List.forall_mem_cons.mp h
    obtain ⟨c, cs, hcs, -⟩ := hk.starts
    cases path with
    | nil => simp [hcs]
    | cons l path =>
      have hread := ih hpath
      simp only [String.intercalate_cons_cons, String.toList_append, List.length_append, hcs,
        List.length_cons] at hread ⊢
      omega

theorem key?_of_bare (hne : path ≠ []) (h : ∀ k ∈ path, Bare k) {c : Char}
    (hc : isBareKeyChar c = false) (rest : List Char)
    (hrest : ∀ more, skipBlanks (c :: rest) ≠ '.' :: more) :
    key? ((".".intercalate path).toList ++ c :: rest) = some (path, skipBlanks (c :: rest)) := by
  refine keyFuel?_of_bare hne h ?_ hc hrest
  have hlen := length_le_intercalate h
  rw [List.length_append]
  omega

/-- The names of a header start with a character of a name. -/
theorem intercalate_starts (hne : path ≠ []) (h : ∀ k ∈ path, Bare k) :
    ∃ c cs, (".".intercalate path).toList = c :: cs ∧ isBareKeyChar c = true := by
  obtain ⟨k, more, rfl⟩ := List.exists_cons_of_ne_nil hne
  obtain ⟨c, cs, hk, hc⟩ := (h k List.mem_cons_self).starts
  cases more with
  | nil => exact ⟨c, cs, by rw [String.intercalate_singleton, hk], hc⟩
  | cons l more =>
    refine ⟨c, cs ++ (".".toList ++ (".".intercalate (l :: more)).toList), ?_, hc⟩
    rw [String.intercalate_cons_cons, String.toList_append, String.toList_append, hk,
      List.append_assoc, List.cons_append]

theorem statement?_header (hne : path ≠ []) (h : ∀ k ∈ path, Bare k) (rest : List Char) :
    statement? ((Line.header path).text.toList ++ '\n' :: rest) = some (.header path, rest) := by
  have hkey := key?_of_bare hne h (c := ']') rfl ('\n' :: rest) nofun
  obtain ⟨c, cs, hstarts, hc⟩ := intercalate_starts hne h
  have htext : (Line.header path).text.toList ++ '\n' :: rest =
      '[' :: ((".".intercalate path).toList ++ ']' :: '\n' :: rest) := by
    simp [Line.text]
  rw [htext]
  unfold statement?
  split
  · -- a name does not start with a bracket
    rename_i heq
    rw [hstarts] at heq
    cases (List.cons.inj (List.cons.inj heq).2).1
    cases hc
  · rename_i heq
    cases heq
    rw [hkey]
    rfl
  · rename_i heq
    exact absurd rfl (heq _)

theorem statement?_entry {text : String} {v : Value} (hk : Bare k) (hreads : Reads text v)
    (rest : List Char) : statement? ((Line.entry k text v).text.toList ++ '\n' :: rest) =
      some (.entry [k] v, rest) := by
  have hkey := key?_of_bare (List.cons_ne_nil k []) (by simpa using hk) (c := ' ') rfl
    ('=' :: ' ' :: (text.toList ++ '\n' :: rest)) nofun
  rw [String.intercalate_singleton] at hkey
  obtain ⟨c, cs, hstarts, hc⟩ := hk.starts
  have hbracket : c ≠ '[' := (plain_of_isBareKeyChar hc).2.2.2.2.1
  have htext : (Line.entry k text v).text.toList ++ '\n' :: rest =
      k.toList ++ ' ' :: '=' :: ' ' :: (text.toList ++ '\n' :: rest) := by
    simp [Line.text]
  have hvalue : value? (skipBlanks (' ' :: (text.toList ++ '\n' :: rest))) =
    some (v, '\n' :: rest) := hreads rest
  rw [htext]
  unfold statement?
  split
  · rename_i heq
    rw [hstarts] at heq
    exact absurd (List.cons.inj heq).1 hbracket
  · rename_i heq
    rw [hstarts] at heq
    exact absurd (List.cons.inj heq).1 hbracket
  · rw [hkey]
    simp only [Option.bind_eq_bind, Option.bind_some]
    show (value? (skipBlanks (' ' :: (text.toList ++ '\n' :: rest)))).bind _ = _
    rw [hvalue]
    rfl

/-- A line is read as what it says. -/
theorem statement?_text {l : Line} (hl : l.Readable) {st : Statement} (hst : l.statement? = some st)
    (rest : List Char) : statement? (l.text.toList ++ '\n' :: rest) = some (st, rest) := by
  cases l with
  | blank => cases hst
  | header path =>
    cases hst
    exact statement?_header hl.1 hl.2 rest
  | entry k text v =>
    cases hst
    exact statement?_entry hl.1 hl.2 rest

/-! ### Documents -/

/-- Where a statement starts there is nothing to skip. -/
theorem skipTrivia?_eq {c : Char} (hb : isBlank c = false) (hh : c ≠ '#') (hn : c ≠ '\n')
    (hr : c ≠ '\r') : skipTrivia? (c :: cs) = some (c :: cs) := by
  have hcomment : skipComment? (c :: cs) = some (c :: cs) := by
    unfold skipComment?
    split
    · rename_i heq
      exact absurd (List.cons.inj heq).1 hh
    · rfl
  rw [skipTrivia?, skipTriviaFuel?, skipBlanks_cons hb, hcomment]
  simp only [Option.bind_eq_bind, Option.bind_some, newline?_eq_none hn hr]

/-- A line that says something starts with it. -/
theorem Line.starts {l : Line} (hl : l.Readable) {st : Statement} (hst : l.statement? = some st) :
    ∃ c cs, l.text.toList = c :: cs ∧
      isBlank c = false ∧ c ≠ '#' ∧ c ≠ '\n' ∧ c ≠ '\r' ∧ c ≠ Char.ofNat 0xfeff := by
  cases l with
  | blank => cases hst
  | header path => exact ⟨'[', _, by simp [text]; rfl, by decide⟩
  | entry k text v =>
    obtain ⟨c, cs, hk, hc⟩ := hl.1.starts
    obtain ⟨hb, hh, hn, hr, -, hm⟩ := plain_of_isBareKeyChar hc
    exact ⟨c, _, by simp [Line.text, hk]; rfl, hb, hh, hn, hr, hm⟩

/-- The lines of a document are read as what they say, one after the other. -/
theorem statementsFuel?_lines {lines : List Line} (h : ∀ l ∈ lines, l.Readable)
    (hf : lines.length < fuel) :
    statementsFuel? fuel (lines.flatMap fun l => l.text.toList ++ ['\n']) =
      some (lines.filterMap Line.statement?) := by
  induction lines generalizing fuel with
  | nil =>
    obtain ⟨fuel, rfl⟩ := Nat.exists_eq_add_one_of_ne_zero (Nat.ne_of_gt hf)
    rfl
  | cons l lines ih =>
    obtain ⟨hl, hlines⟩ := List.forall_mem_cons.mp h
    obtain ⟨fuel, rfl⟩ := Nat.exists_eq_add_one_of_ne_zero (Nat.ne_of_gt (Nat.zero_lt_of_lt hf))
    rw [List.flatMap_cons, List.append_assoc, List.singleton_append]
    cases hst : l.statement? with
    | none =>
      cases l with
      | blank =>
        have hrest := ih hlines (Nat.lt_of_succ_lt hf)
        rw [List.filterMap_cons_none hst, ← hrest]
        rfl
      | _ => cases hst
    | some st =>
      have hrest := ih hlines (Nat.lt_of_succ_lt_succ hf)
      obtain ⟨c, cs, htext, hb, hh, hn, hr, -⟩ := Line.starts hl hst
      have hread := statement?_text hl hst
        (lines.flatMap fun l => l.text.toList ++ ['\n'])
      rw [htext, List.cons_append] at hread ⊢
      rw [List.filterMap_cons_some hst, statementsFuel?, skipTrivia?_eq hb hh hn hr]
      simp only [Option.bind_eq_bind, Option.bind_some, List.isEmpty_cons, Bool.false_eq_true,
        if_false, hread, hrest, Option.map_some]

/-- The table that the lines of a document describe. -/
def document? (lines : List Line) : Option Value :=
  ((lines.filterMap Line.statement?).foldlM Draft.add? {}).map fun draft =>
    .table (entriesToValue draft.entries)

/-- No byte order mark starts a document. -/
theorem dropMark_lines {lines : List Line} (h : ∀ l ∈ lines, l.Readable) :
    dropMark (lines.flatMap fun l => l.text.toList ++ ['\n']) =
      lines.flatMap fun l => l.text.toList ++ ['\n'] := by
  have hdrop {c : Char} (hc : c ≠ Char.ofNat 0xfeff) (cs : List Char) :
      dropMark (c :: cs) = c :: cs := by
    have hne : c.toNat ≠ 0xfeff := fun h' => hc (h' ▸ (Char.ofNat_toNat c).symm)
    exact if_neg hne
  cases lines with
  | nil => rfl
  | cons l lines =>
    rw [List.flatMap_cons, List.append_assoc]
    cases hst : l.statement? with
    | none =>
      cases l with
      | blank => rfl
      | _ => cases hst
    | some st =>
      obtain ⟨c, cs, htext, -, -, -, -, hm⟩ := Line.starts (List.forall_mem_cons.mp h).1 hst
      rw [htext, List.cons_append, hdrop hm]

/-- A document is read line by line. -/
theorem read?_lines {lines : List Line} (h : ∀ l ∈ lines, l.Readable) :
    read? (String.join (lines.map fun l => l.text ++ "\n")) = document? lines := by
  have hchars : (String.join (lines.map fun l => l.text ++ "\n")).toList =
      lines.flatMap fun l => l.text.toList ++ ['\n'] := by
    rw [String.toList_join, List.flatMap_map]
    exact List.flatMap_congr fun l _ => String.toList_append
  have hlen : lines.length ≤ (lines.flatMap fun l => l.text.toList ++ ['\n']).length := by
    clear h hchars
    induction lines with
    | nil => exact Nat.le_refl 0
    | cons l lines ih =>
      rw [List.flatMap_cons, List.length_append, List.length_append, List.length_singleton,
        List.length_cons]
      omega
  rw [read?, hchars, dropMark_lines h, statementsFuel?_lines h (Nat.lt_succ_of_le hlen), document?]
  simp only [Option.bind_eq_bind, Option.bind_some]
  cases List.foldlM Draft.add? {} (lines.filterMap Line.statement?) <;> rfl

end Toml
end BlockTransfer
