import BlockTransfer.Toml.Printer
import BlockTransfer.Toml.Text
import Mathlib.Data.List.Basic
import Mathlib.Tactic.IntervalCases
/-!
# Reading back a quoted text

A text is written in the first of several styles that needs no escape for it, and it
is read back from each of them: a line break ends what is written
(`Toml.string?_quoteChars`). The body of a string is read character by character. In a
basic string a character stands for itself or behind a backslash (`Toml.Escaped`), and
between tripled quotes it is the closing ones that have to be told from those of the
text: at most two of these stand next to one another, so three in a row close the
string, with up to two more in front of them (`Toml.multilineBody_close`).

Key definition: `Toml.Escaped`.
Key theorem: `Toml.string?_quoteChars`.
-/

namespace BlockTransfer
namespace Toml

variable {c quote : Char} {cs rest : List Char} {fuel : Nat}

/-! ### Characters -/

/-- The four digits of a control character are read as its number. -/
theorem digits?_hex4 : ∀ n < 128, (hex4 n).length = 4 ∧ Literal.digits? 16 (hex4 n) = some n := by
  decide

theorem toNat_lt_of_isEscapedControl (h : isEscapedControl c = true) : c.toNat < 128 := by
  simp only [isEscapedControl, Bool.or_eq_true, Bool.and_eq_true, decide_eq_true_eq,
    beq_iff_eq] at h
  omega

theorem hexScalar?_hex4 {n : Nat} (h : n < 128) (rest : List Char) :
    hexScalar? 4 (hex4 n ++ rest) = some (Char.ofNat n, rest) := by
  obtain ⟨hlen, hdigits⟩ := digits?_hex4 n h
  have hscalar : scalar? n = some (Char.ofNat n) := if_pos (.inl (by omega))
  simp only [hexScalar?, ← hlen, List.take_left, List.drop_left, Nat.lt_irrefl, if_false, hdigits,
    hscalar, Option.bind_eq_bind, Option.bind_some]

theorem isControl_eq_false (hc : isEscapedControl c = false) (hn : c ≠ '\n') :
    isControl c = false := by
  simp only [isEscapedControl, isControl, Bool.or_eq_false_iff, Bool.and_eq_false_iff,
    decide_eq_false_iff_not, bne_eq_false_iff_eq, beq_eq_false_iff_ne] at hc ⊢
  refine ⟨?_, hc.2⟩
  rcases hc.1 with (h | h) | h
  · exact .inl (by omega)
  · exact .inr h
  · exact absurd h hn

/-- How a character other than a double quote is written in a basic string. -/
inductive Escaped (multiline : Bool) (c : Char) : Prop where
  | plain (text : escapeChar multiline c = [c]) (escape : c ≠ '\\') (newline : c ≠ '\n')
    (feed : c ≠ '\r') (control : isControl c = false)
  | newline (text : escapeChar multiline c = ['\n']) (multi : multiline = true) (eq : c = '\n')
  | escape (mark : Char) (more : List Char) (text : escapeChar multiline c = '\\' :: mark :: more)
    (visible : isBlank mark = false) (newline : mark ≠ '\n') (feed : mark ≠ '\r')
    (reads : ∀ rest, escape? (mark :: (more ++ rest)) = some (c, rest))

theorem escaped (multiline : Bool) (hc : c ≠ '"') : Escaped multiline c := by
  have hmark (mark : Char) (htext : escapeChar multiline c = ['\\', mark])
      (hreads : ∀ rest, escape? (mark :: rest) = some (c, rest))
      (hmark : isBlank mark = false ∧ mark ≠ '\n' ∧ mark ≠ '\r') : Escaped multiline c :=
    .escape mark [] htext hmark.1 hmark.2.1 hmark.2.2 hreads
  unfold escapeChar at hmark
  by_cases h1 : c = '\x08'
  · subst h1; exact hmark 'b' rfl (fun _ => rfl) (by decide)
  by_cases h2 : c = '\t'
  · subst h2; exact hmark 't' rfl (fun _ => rfl) (by decide)
  by_cases h3 : c = '\n'
  · subst h3
    cases multiline with
    | true => exact .newline rfl rfl rfl
    | false => exact hmark 'n' rfl (fun _ => rfl) (by decide)
  by_cases h4 : c = '\x0c'
  · subst h4; exact hmark 'f' rfl (fun _ => rfl) (by decide)
  by_cases h5 : c = '\r'
  · subst h5; exact hmark 'r' rfl (fun _ => rfl) (by decide)
  by_cases h6 : c = '\\'
  · subst h6; exact hmark '\\' rfl (fun _ => rfl) (by decide)
  cases h7 : isEscapedControl c with
  | true =>
    have hlt := toNat_lt_of_isEscapedControl h7
    refine .escape 'u' (hex4 c.toNat) ?_ rfl (by decide) (by decide) fun rest => ?_
    · simp only [escapeChar, h1, h2, h3, h4, h5, h6, h7, if_false, if_true]
      rfl
    · show hexScalar? 4 (hex4 c.toNat ++ rest) = _
      rw [hexScalar?_hex4 hlt, Char.ofNat_toNat]
  | false =>
    refine .plain ?_ h6 h3 h5 (isControl_eq_false h7 h3)
    simp only [escapeChar, h1, h2, h3, h4, h5, h6, h7, if_false, Bool.false_eq_true]

/-! ### Strings on one line -/

theorem Reading.cons_some (c : Char) (cs rest : List Char) :
    Reading.cons c (some (cs, rest)) = some (c :: cs, rest) := rfl

theorem escapeBody_cons (multiline : Bool) (allowed run : Nat) (cs : List Char) (hc : c ≠ '"') :
    escapeBody multiline allowed run (c :: cs) =
      escapeChar multiline c ++ escapeBody multiline allowed 0 cs := by
  rw [escapeBody, if_neg hc]

/-- Where no double quote may stand without an escape, none stands. -/
theorem escapeBody_starts (multiline : Bool) (c : Char) (cs : List Char) {allowed run : Nat}
    (h : c = '"' → allowed ≤ run) :
    ∃ d more, escapeBody multiline allowed run (c :: cs) = d :: more ∧ d ≠ '"' := by
  by_cases hc : c = '"'
  · rw [escapeBody, if_pos hc, if_neg (Nat.not_lt.mpr (h hc))]
    exact ⟨_, _, rfl, by decide⟩
  · rw [escapeBody_cons _ _ _ _ hc]
    cases escaped multiline hc with
    | plain htext =>
      rw [htext]
      exact ⟨_, _, rfl, hc⟩
    | newline htext =>
      rw [htext]
      exact ⟨_, _, rfl, by decide⟩
    | escape mark more htext =>
      rw [htext]
      exact ⟨_, _, rfl, by decide⟩

theorem basicBody_plain (hq : c ≠ '"') (he : c ≠ '\\') (hc : isControl c = false) :
    basicBody (fuel + 1) (c :: cs) = Reading.cons c (basicBody fuel cs) := by
  rw [basicBody, if_neg hq, if_neg he, hc]
  rfl

theorem basicBody_escape {text : List Char} (h : escape? text = some (c, cs)) :
    basicBody (fuel + 1) ('\\' :: text) = Reading.cons c (basicBody fuel cs) := by
  rw [basicBody, if_neg (by decide), if_pos rfl, h]
  rfl

/-- A text in escapes is read up to the quote that closes it. -/
theorem basicBody_escapeBody (rest : List Char) (h : (escapeBody false 0 0 cs).length < fuel) :
    basicBody fuel (escapeBody false 0 0 cs ++ '"' :: rest) = some (cs, rest) := by
  obtain ⟨fuel, rfl⟩ := Nat.exists_eq_add_one_of_ne_zero (Nat.ne_of_gt (Nat.zero_lt_of_lt h))
  induction cs generalizing fuel with
  | nil => rfl
  | cons c cs ih =>
    -- every character takes at least one from the fuel's length
    have hrest (h' : (escapeBody false 0 0 cs).length < fuel) :
        basicBody fuel (escapeBody false 0 0 cs ++ '"' :: rest) = some (cs, rest) := by
      obtain ⟨n, rfl⟩ := Nat.exists_eq_add_one_of_ne_zero (Nat.ne_of_gt (Nat.zero_lt_of_lt h'))
      exact ih n h'
    by_cases hc : c = '"'
    · subst hc
      have htext : escapeBody false 0 0 ('"' :: cs) = '\\' :: '"' :: escapeBody false 0 0 cs := rfl
      have hread (text : List Char) : escape? ('"' :: text) = some ('"', text) := rfl
      rw [htext, List.length_cons, List.length_cons] at h
      rw [htext, List.cons_append, List.cons_append, basicBody_escape (hread _),
        hrest (by omega), Reading.cons_some]
    · have htext := escapeBody_cons false 0 0 cs hc
      rw [htext, List.length_append] at h
      rw [htext, List.append_assoc]
      cases escaped false hc with
      | plain hchar he _ _ hcontrol =>
        rw [hchar, List.length_singleton] at h
        rw [hchar, List.singleton_append, basicBody_plain hc he hcontrol, hrest (by omega),
          Reading.cons_some]
      | newline _ hmulti => cases hmulti
      | escape mark more hchar _ _ _ hreads =>
        rw [hchar, List.length_cons, List.length_cons] at h
        rw [hchar, List.cons_append, List.cons_append, basicBody_escape (hreads _),
          hrest (by omega), Reading.cons_some]

theorem literalBody_append (rest : List Char) (hq : '\'' ∉ cs)
    (hc : cs.any isControl = false) : literalBody (cs ++ '\'' :: rest) = some (cs, rest) := by
  have htake : (cs ++ '\'' :: rest).takeWhile (· != '\'') = cs := by
    rw [List.takeWhile_append_of_pos fun c hc => bne_iff_ne.mpr (ne_of_mem_of_not_mem hc hq)]
    simp
  unfold literalBody
  rw [htake]
  dsimp only
  rw [List.drop_left]
  simp only [hc, Bool.false_eq_true, if_false]

/-- A string that does not open with three quotes is on one line. -/
theorem string?_of_not_tripled (h : ∀ q more, cs ≠ q :: q :: q :: more) :
    string? cs = lineString? cs := by
  unfold string?
  split
  · exact absurd rfl (h _ _)
  · exact absurd rfl (h _ _)
  · rfl

theorem string?_basic (cs rest : List Char) :
    string? ('"' :: escapeBody false 0 0 cs ++ '"' :: '\n' :: rest) = some (cs, '\n' :: rest) := by
  rw [string?_of_not_tripled]
  · have hlen : (escapeBody false 0 0 cs).length <
        (escapeBody false 0 0 cs ++ '"' :: '\n' :: rest).length + 1 := by
      rw [List.length_append]
      omega
    exact basicBody_escapeBody _ hlen
  · intro q more h
    cases cs with
    | nil =>
      obtain ⟨rfl, h, -⟩ : '"' = q ∧ '\n' = q ∧ rest = more := by
        simpa [escapeBody] using h
      cases h
    | cons c cs =>
      obtain ⟨d, text, htext, hd⟩ := escapeBody_starts false c cs
        fun _ => Nat.le_refl 0
      rw [htext] at h
      simp at h
      exact hd (h.2.1.trans h.1.symm)

/-! ### Strings over several lines -/

/-- A quote of a string over several lines. -/
def IsQuote (c : Char) : Prop := c = '"' ∨ c = '\''

variable {escapes : Bool} {text : List Char}

/-- Up to two quotes may stand before the closing. -/
theorem multilineBody_close (hq : IsQuote quote) {n : Nat} (hn : n ≤ 2) (rest : List Char) :
    multilineBody quote escapes (fuel + 1) (List.replicate (n + 3) quote ++ '\n' :: rest) =
      some (List.replicate n quote, '\n' :: rest) := by
  rcases hq with rfl | rfl <;> interval_cases n <;> rfl

theorem newline?_eq_none (h : c ≠ '\n') (h' : c ≠ '\r') : newline? (c :: cs) = none := by
  unfold newline?
  split
  · rename_i heq
    exact absurd (List.cons.inj heq).1 h
  · rename_i heq
    exact absurd (List.cons.inj heq).1 h'
  · rfl

theorem multilineBody_quote (hq : IsQuote quote) (h : text.take 2 ≠ [quote, quote]) :
    multilineBody quote escapes (fuel + 1) (quote :: text) =
      Reading.cons quote (multilineBody quote escapes fuel text) := by
  have hne : quote ≠ '\\' ∧ quote ≠ '\n' ∧ quote ≠ '\r' ∧ isControl quote = false := by
    rcases hq with rfl | rfl <;> decide
  obtain ⟨he, hn, hr, hcontrol⟩ := hne
  rw [multilineBody, if_neg fun h' => h h'.2, if_neg fun h' => he h'.1, newline?_eq_none hn hr]
  simp only [hcontrol, Bool.false_eq_true, if_false]

theorem multilineBody_plain (hq : c ≠ quote) (he : escapes = true → c ≠ '\\') (hn : c ≠ '\n')
    (hr : c ≠ '\r') (hc : isControl c = false) :
    multilineBody quote escapes (fuel + 1) (c :: text) =
      Reading.cons c (multilineBody quote escapes fuel text) := by
  rw [multilineBody, if_neg fun h => hq h.1, if_neg fun h => he h.2 h.1, newline?_eq_none hn hr]
  simp only [hc, Bool.false_eq_true, if_false]

theorem multilineBody_newline (hq : IsQuote quote) :
    multilineBody quote escapes (fuel + 1) ('\n' :: text) =
      Reading.cons '\n' (multilineBody quote escapes fuel text) := by
  have hne : '\n' ≠ quote := by
    rcases hq with rfl | rfl <;> decide
  rw [multilineBody, if_neg fun h => hne h.1, if_neg fun h => absurd h.1 (by decide)]
  rfl

theorem multilineBody_escape (hq : IsQuote quote) {mark : Char} (hb : isBlank mark = false)
    (hn : mark ≠ '\n') (hr : mark ≠ '\r') (h : escape? (mark :: text) = some (c, rest)) :
    multilineBody quote true (fuel + 1) ('\\' :: mark :: text) =
      Reading.cons c (multilineBody quote true fuel rest) := by
  have hne : '\\' ≠ quote := by
    rcases hq with rfl | rfl <;> decide
  have hcontinue : continuation? (mark :: text) = none := by
    rw [continuation?, skipBlanks, List.dropWhile_cons, hb]
    simp only [Bool.false_eq_true, if_false, newline?_eq_none hn hr, Option.bind_eq_bind,
      Option.bind_none]
  rw [multilineBody, if_neg fun h' => hne h'.1, if_pos ⟨rfl, rfl⟩, hcontinue, h]
  rfl

/-- After a double quote without an escape no two more follow, unless the text ends with
it or with the next one. -/
theorem take_two_escapeBody {run : Nat} (hcs : cs ≠ []) (hquote : cs = ['"'] → run ≠ 0)
    (hrun : run < 2) (text : List Char) :
    (escapeBody true 2 (run + 1) cs ++ text).take 2 ≠ ['"', '"'] := by
  obtain ⟨d, cs, rfl⟩ := List.exists_cons_of_ne_nil hcs
  by_cases hd : d = '"' ∧ run = 0
  · obtain ⟨rfl, rfl⟩ := hd
    have hne : cs ≠ [] := by
      rintro rfl
      exact hquote rfl rfl
    obtain ⟨e, cs, rfl⟩ := List.exists_cons_of_ne_nil hne
    obtain ⟨x, more, htext, hx⟩ := escapeBody_starts true e cs fun _ => Nat.le_refl 2
    have htwo : escapeBody true 2 (0 + 1) ('"' :: e :: cs) =
      '"' :: escapeBody true 2 2 (e :: cs) := rfl
    simp [htwo, htext, hx]
  · obtain ⟨x, more, htext, hx⟩ := escapeBody_starts true d cs fun h' =>
      Nat.succ_le_succ (Nat.one_le_iff_ne_zero.mpr fun h0 => hd ⟨h', h0⟩)
    simp [htext, hx]

/-- A text in escapes, with at most two double quotes next to one another, is read up
to the quotes that close it. -/
theorem multilineBody_escapeBody (rest : List Char) {run : Nat}
    (h : (escapeBody true 2 run cs).length < fuel) :
    multilineBody '"' true fuel (escapeBody true 2 run cs ++ '"' :: '"' :: '"' :: '\n' :: rest) =
      some (cs, '\n' :: rest) := by
  have hq : IsQuote '"' := .inl rfl
  obtain ⟨fuel, rfl⟩ := Nat.exists_eq_add_one_of_ne_zero (Nat.ne_of_gt (Nat.zero_lt_of_lt h))
  induction cs generalizing fuel run with
  | nil => exact multilineBody_close hq (Nat.zero_le 2) rest
  | cons c cs ih =>
    have hrest {run : Nat} (h' : (escapeBody true 2 run cs).length < fuel) :
        multilineBody '"' true fuel
          (escapeBody true 2 run cs ++ '"' :: '"' :: '"' :: '\n' :: rest) =
            some (cs, '\n' :: rest) := by
      obtain ⟨n, rfl⟩ := Nat.exists_eq_add_one_of_ne_zero (Nat.ne_of_gt (Nat.zero_lt_of_lt h'))
      exact ih n h'
    by_cases hc : c = '"'
    · subst hc
      rw [escapeBody, if_pos rfl] at h ⊢
      split at h
      · rename_i hrun
        rw [List.length_cons] at h
        rw [if_pos hrun]
        -- the quotes close the string only if the text ends with them
        by_cases hcs : cs = []
        · subst hcs
          exact multilineBody_close hq (n := 1) (by omega) rest
        by_cases hquote : cs = ['"'] ∧ run = 0
        · obtain ⟨rfl, rfl⟩ := hquote
          exact multilineBody_close hq (n := 2) (by omega) rest
        have htake := take_two_escapeBody hcs (fun h' h0 => hquote ⟨h', h0⟩) hrun
          ('"' :: '"' :: '"' :: '\n' :: rest)
        rw [List.cons_append, multilineBody_quote hq htake, hrest (by omega), Reading.cons_some]
      · rename_i hrun
        have hread (text : List Char) : escape? ('"' :: text) = some ('"', text) := rfl
        rw [List.length_cons, List.length_cons] at h
        rw [if_neg hrun, List.cons_append, List.cons_append,
          multilineBody_escape hq rfl (by decide) (by decide) (hread _), hrest (by omega),
          Reading.cons_some]
    · have htext := escapeBody_cons true 2 run cs hc
      rw [htext, List.length_append] at h
      rw [htext, List.append_assoc]
      cases escaped true hc with
      | plain hchar he hn hr hcontrol =>
        rw [hchar, List.length_singleton] at h
        rw [hchar, List.singleton_append, multilineBody_plain hc (fun _ => he) hn hr hcontrol,
          hrest (by omega), Reading.cons_some]
      | newline hchar _ hn =>
        subst hn
        rw [hchar, List.length_singleton] at h
        rw [hchar, List.singleton_append, multilineBody_newline hq, hrest (by omega),
          Reading.cons_some]
      | escape mark more hchar hb hn hr hreads =>
        rw [hchar, List.length_cons, List.length_cons] at h
        rw [hchar, List.cons_append, List.cons_append, multilineBody_escape hq hb hn hr (hreads _),
          hrest (by omega), Reading.cons_some]

/-! ### Runs of quotes -/

theorem le_longestRun (q : Char) (run : Nat) (cs : List Char) : run ≤ longestRun q run cs := by
  induction cs generalizing run with
  | nil => exact Nat.le_refl run
  | cons c cs ih =>
    rw [longestRun]
    split
    · exact Nat.le_trans (Nat.le_succ run) (ih (run + 1))
    · exact Nat.le_max_left _ _

theorem notMem_of_longestRun {q : Char} (h : longestRun q 0 cs = 0) : q ∉ cs := by
  induction cs with
  | nil => exact List.not_mem_nil
  | cons c cs ih =>
    rw [longestRun] at h
    split at h
    · have := le_longestRun q (0 + 1) cs
      omega
    · rename_i hc
      exact List.not_mem_cons_of_ne_of_not_mem (Ne.symm hc) (ih (by omega))

/-- A text without control characters and without three quotes next to one another is
read up to the quotes that close it. -/
theorem multilineBody_append (rest : List Char) {run : Nat} (h : cs.length < fuel)
    (hrun : longestRun '\'' run cs ≤ 2) (hc : ∀ c ∈ cs, isEscapedControl c = false) :
    multilineBody '\'' false fuel (cs ++ '\'' :: '\'' :: '\'' :: '\n' :: rest) =
      some (cs, '\n' :: rest) := by
  have hq : IsQuote '\'' := .inr rfl
  induction cs generalizing fuel run with
  | nil =>
    obtain ⟨fuel, rfl⟩ := Nat.exists_eq_add_one_of_ne_zero (Nat.ne_of_gt h)
    exact multilineBody_close hq (Nat.zero_le 2) rest
  | cons c cs ih =>
    obtain ⟨fuel, rfl⟩ := Nat.exists_eq_add_one_of_ne_zero (Nat.ne_of_gt (Nat.zero_lt_of_lt h))
    obtain ⟨hfirst, hothers⟩ := List.forall_mem_cons.mp hc
    rw [longestRun] at hrun
    by_cases hquote : c = '\''
    · subst hquote
      rw [if_pos rfl] at hrun
      have hrest := ih (Nat.lt_of_succ_lt_succ h) hrun hothers
      have hstep (h' : (cs ++ '\'' :: '\'' :: '\'' :: '\n' :: rest).take 2 ≠ ['\'', '\'']) :
          multilineBody '\'' false (fuel + 1)
            ('\'' :: cs ++ '\'' :: '\'' :: '\'' :: '\n' :: rest) =
              some ('\'' :: cs, '\n' :: rest) := by
        rw [List.cons_append, multilineBody_quote hq h', hrest, Reading.cons_some]
      cases cs with
      | nil => exact multilineBody_close hq (n := 1) (by omega) rest
      | cons d cs =>
        by_cases hd : d = '\''
        · subst hd
          cases cs with
          | nil => exact multilineBody_close hq (n := 2) (by omega) rest
          | cons e cs =>
            by_cases he : e = '\''
            · -- a third quote in a row
              subst he
              have hthree := le_longestRun '\'' (run + 1 + 1 + 1) cs
              simp only [longestRun, if_true] at hrun
              omega
            · exact hstep (by simp [he])
        · exact hstep (by simp [hd])
    · rw [if_neg hquote] at hrun
      have hzero : longestRun '\'' 0 cs ≤ 2 := by omega
      have hrest := ih (Nat.lt_of_succ_lt_succ h) hzero hothers
      by_cases hn : c = '\n'
      · subst hn
        rw [List.cons_append, multilineBody_newline hq, hrest, Reading.cons_some]
      · have hr : c ≠ '\r' := by
          rintro rfl
          cases hfirst
        have he : false = true → c ≠ '\\' := nofun
        rw [List.cons_append,
          multilineBody_plain hquote he hn hr (isControl_eq_false hfirst hn), hrest,
          Reading.cons_some]

/-! ### Texts -/

/-- The line break that is dropped after the opening quotes is the one written there. -/
theorem getD_newline? (hcs : cs.contains '\n' = false → newline? text = none) :
    (newline? ((if cs.contains '\n' then ['\n'] else []) ++ text)).getD
      ((if cs.contains '\n' then ['\n'] else []) ++ text) = text := by
  cases h : cs.contains '\n' with
  | true => rfl
  | false => simp [hcs h]

theorem newline?_escapeBody (h : cs.contains '\n' = false) (rest : List Char) :
    newline? (escapeBody true 2 0 cs ++ '"' :: rest) = none := by
  cases cs with
  | nil => rfl
  | cons c cs =>
    have hn : c ≠ '\n' := by
      rintro rfl
      simp at h
    by_cases hc : c = '"'
    · subst hc
      rfl
    · rw [escapeBody_cons _ _ _ _ hc, List.append_assoc]
      cases escaped true hc with
      | plain htext _ _ hr =>
        rw [htext]
        exact newline?_eq_none hn hr
      | newline _ _ heq => exact absurd heq hn
      | escape mark more htext =>
        rw [htext]
        rfl

theorem newline?_append (h : cs.contains '\n' = false)
    (hc : ∀ c ∈ cs, isEscapedControl c = false) (rest : List Char) :
    newline? (cs ++ '\'' :: rest) = none := by
  cases cs with
  | nil => rfl
  | cons c cs =>
    refine newline?_eq_none ?_ ?_
    · rintro rfl
      simp at h
    · rintro rfl
      cases hc _ List.mem_cons_self

theorem Traits.of_literal {t : Traits} (h : t.style = .literal) :
    t.control = false ∧ t.singleRun = 0 ∧ t.newline = false := by
  unfold style at h
  split_ifs at h with _ h'
  simpa [and_assoc] using h'

theorem Traits.of_multilineLiteral {t : Traits} (h : t.style = .multilineLiteral) :
    t.control = false ∧ t.singleRun ≤ 2 := by
  unfold style at h
  split_ifs at h with _ _ _ h'
  simpa using h'

theorem string?_literal (hq : '\'' ∉ cs) (hc : cs.any isControl = false) (rest : List Char) :
    string? ('\'' :: (cs ++ '\'' :: '\n' :: rest)) = some (cs, '\n' :: rest) := by
  rw [string?_of_not_tripled]
  · exact literalBody_append _ hq hc
  · intro q more h
    obtain ⟨rfl, h⟩ := List.cons.inj h
    cases cs with
    | nil => cases h
    | cons c cs => exact hq ((List.cons.inj h).1 ▸ List.mem_cons_self)

theorem multiline_eq (quote : Char) (escapes : Bool)
    (h : cs.contains '\n' = false → newline? text = none) : ∃ fuel, text.length < fuel ∧
    multiline quote escapes ((if cs.contains '\n' then ['\n'] else []) ++ text) =
      multilineBody quote escapes fuel text := by
  refine ⟨_, ?_, by rw [multiline, getD_newline? h]⟩
  rw [List.length_append]
  omega

/-- A text between quotes is read as that text. -/
theorem string?_quoteChars (cs rest : List Char) :
    string? (quoteChars cs ++ '\n' :: rest) = some (cs, '\n' :: rest) := by
  cases hstyle : (Traits.of cs).style with
  | basic =>
    have htext : quoteChars cs = '"' :: escapeBody false 0 0 cs ++ ['"'] := by
      simp only [quoteChars, hstyle]
    rw [htext]
    simpa using string?_basic cs rest
  | literal =>
    have htext : quoteChars cs = '\'' :: cs ++ ['\''] := by
      simp only [quoteChars, hstyle]
    obtain ⟨hcontrol, hrun, hnewline⟩ := Traits.of_literal hstyle
    have hc : cs.any isControl = false := by
      refine List.any_eq_false.mpr fun c hmem => Bool.eq_false_iff.mp ?_
      refine isControl_eq_false (Bool.eq_false_iff.mpr (List.any_eq_false.mp hcontrol c hmem)) ?_
      rintro rfl
      exact absurd (List.contains_iff_mem.mpr hmem) (Bool.eq_false_iff.mp hnewline)
    rw [htext]
    simpa using string?_literal (notMem_of_longestRun hrun) hc rest
  | multilineBasic =>
    have htext : quoteChars cs = ['"', '"', '"'] ++ (if cs.contains '\n' then ['\n'] else []) ++
        escapeBody true 2 0 cs ++ ['"', '"', '"'] := by
      simp only [quoteChars, hstyle]
      rfl
    obtain ⟨fuel, hfuel, heq⟩ := multiline_eq '"' true
      (fun h => newline?_escapeBody h ('"' :: '"' :: '\n' :: rest))
    rw [List.length_append] at hfuel
    have hread := multilineBody_escapeBody rest (Nat.lt_of_le_of_lt (Nat.le_add_right _ _) hfuel)
    rw [htext]
    simpa [string?] using heq.trans hread
  | multilineLiteral =>
    have htext : quoteChars cs = ['\'', '\'', '\''] ++
        (if cs.contains '\n' then ['\n'] else []) ++ cs ++ ['\'', '\'', '\''] := by
      simp only [quoteChars, hstyle]
      rfl
    obtain ⟨hcontrol, hrun⟩ := Traits.of_multilineLiteral hstyle
    have hc : ∀ c ∈ cs, isEscapedControl c = false := fun c hmem =>
      Bool.eq_false_iff.mpr (List.any_eq_false.mp hcontrol c hmem)
    obtain ⟨fuel, hfuel, heq⟩ := multiline_eq '\'' false
      (fun h => newline?_append h hc ('\'' :: '\'' :: '\n' :: rest))
    rw [List.length_append] at hfuel
    have hread := multilineBody_append rest (Nat.lt_of_le_of_lt (Nat.le_add_right _ _) hfuel)
      hrun hc
    rw [htext]
    simpa [string?] using heq.trans hread

end Toml
end BlockTransfer
