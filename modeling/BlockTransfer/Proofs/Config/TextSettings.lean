import BlockTransfer.Proofs.Config.Overlay
import BlockTransfer.Proofs.Config.Writing
import BlockTransfer.Proofs.Text.Lowercase
/-!
# Settings that are texts

Two settings are texts, the plugins root and the default type. Each of them is set by a
variable of its own, and by an entry of its section in a file.

What is set beside such a setting, in the same order in two values that differ in the setting
only, makes two values that differ in the setting only (`TextSetting.Holds.apply`). From these
the same configuration is read, but for the setting (`TextSetting.ofValue?_of_holds`).

Key definitions: `TextSetting`, `TextSetting.Apart`, `TextSetting.Holds`.
Key theorems: `TextSetting.variableKey?_variableName`, `TextSetting.read?_fileText`,
`TextSetting.Holds.apply`, `TextSetting.ofValue?_of_holds`.
-/

namespace BlockTransfer

open Layer (Step entriesOf update allSteps)
open ReadingRules (lenient textOf)

/-- A setting that is a text. -/
inductive TextSetting where
  | pluginsRoot
  | defaultType
  deriving DecidableEq, Repr

namespace TextSetting

/-- The section that the setting is in. -/
def sectionName : TextSetting → String
  | pluginsRoot => "plugins"
  | defaultType => "device"

/-- The setting's key in its section. -/
def keyName : TextSetting → String
  | pluginsRoot => "root"
  | defaultType => "default_type"

/-- The variable that sets it. -/
def variableName (x : TextSetting) (envPrefix : String) : String :=
  match x with
  | pluginsRoot => envPrefix ++ "_PLUGINS__ROOT"
  | defaultType => envPrefix ++ "_DEVICE__DEFAULT_TYPE"

/-- A document that sets nothing else. -/
def document (x : TextSetting) (text : String) : Value :=
  .table [(x.sectionName, .table [(x.keyName, .text text)])]

/-- A file with that document. -/
def fileText (x : TextSetting) (text : String) : String :=
  "[" ++ x.sectionName ++ "]\n" ++ x.keyName ++ " = " ++ Toml.quote text ++ "\n"

/-- The configuration with another text for the setting. -/
def put (x : TextSetting) (c : Config) (text : String) : Config :=
  match x with
  | pluginsRoot => { c with pluginsRoot := text }
  | defaultType => { c with defaultType := some text }

/-- The steps that lead to the setting. -/
def steps (x : TextSetting) : List Step := [.name x.sectionName, .name x.keyName]

/-- The steps lead to something beside the setting: neither to it, nor to something in it,
nor to its section as a whole, nor to an item of its section. -/
def Apart (x : TextSetting) (rest : List Step) : Prop := Layer.Apart x.steps rest

instance (x : TextSetting) (rest : List Step) : Decidable (x.Apart rest) :=
  inferInstanceAs (Decidable (Layer.Apart x.steps rest))

variable {x : TextSetting} {u u' w w' y : Value} {t t' : String}

/-! ### The variable -/

theorem variableKey?_variableName (x : TextSetting) (envPrefix : String) :
    Layer.variableKey? envPrefix (x.variableName envPrefix) =
      some (x.sectionName ++ "." ++ x.keyName) := by
  have hkey (suffix lower : String) (hascii : suffix.toList.all (·.toNat < 0x80) = true)
      (hlower : suffix.toList.map Char.toLower = lower.toList) :
      Layer.variableKey? envPrefix (envPrefix ++ "_" ++ suffix) =
        some (String.ofList (Layer.separate lower.toList)) := by
    have hstart : (Lowercase.ofString (envPrefix ++ "_")).toList =
        Lowercase.ofChars [] (envPrefix.toList ++ ['_']) := by
      rw [Lowercase.toList_ofString, String.toList_append]
      rfl
    have hname : (Lowercase.ofString (envPrefix ++ "_" ++ suffix)).toList =
        Lowercase.ofChars [] (envPrefix.toList ++ ['_']) ++ lower.toList := by
      rw [Lowercase.toList_ofString, String.toList_append, String.toList_append,
        List.append_assoc]
      show Lowercase.ofChars [] (envPrefix.toList ++ '_' :: suffix.toList) = _
      have hsuffix : ∀ c ∈ suffix.toList, c.toNat < 0x80 :=
        fun c hc => of_decide_eq_true (List.all_eq_true.mp hascii c hc)
      rw [Lowercase.ofChars_underscore, Lowercase.ofChars_ascii hsuffix, hlower]
    rw [Layer.variableKey?, hstart, hname]
    rw [if_pos (List.isPrefixOf_iff_prefix.mpr (List.prefix_append _ _)), List.drop_left]
  cases x with
  | pluginsRoot =>
    rw [variableName, show "_PLUGINS__ROOT" = "_" ++ "PLUGINS__ROOT" from rfl,
      ← String.append_assoc, hkey _ "plugins__root" (by decide) (by decide)]
    decide
  | defaultType =>
    rw [variableName, show "_DEVICE__DEFAULT_TYPE" = "_" ++ "DEVICE__DEFAULT_TYPE" from rfl,
      ← String.append_assoc, hkey _ "device__default_type" (by decide) (by decide)]
    decide

theorem allSteps_key (x : TextSetting) :
    allSteps (x.sectionName ++ "." ++ x.keyName) = x.steps := by
  cases x <;> decide

/-- The variable is none of those that say where the user's directory is. -/
theorem variableName_ne (x : TextSetting) (envPrefix : String) :
    x.variableName envPrefix ≠ "HOME" ∧ x.variableName envPrefix ≠ "XDG_CONFIG_HOME" := by
  have hlast {suffix name : String} (c c' : Char) (hsuffix : suffix.toList.reverse[1]? = some c)
      (hname : name.toList.reverse[1]? = some c') (hne : c ≠ c') : envPrefix ++ suffix ≠ name := by
    rintro rfl
    rw [String.toList_append, List.reverse_append,
      List.getElem?_append_left (List.getElem?_eq_some_iff.mp hsuffix).1, hsuffix] at hname
    exact hne (Option.some.inj hname)
  cases x
  · exact ⟨hlast 'O' 'M' (by decide) (by decide) (by decide),
      hlast 'O' 'M' (by decide) (by decide) (by decide)⟩
  · exact ⟨hlast 'P' 'M' (by decide) (by decide) (by decide),
      hlast 'P' 'M' (by decide) (by decide) (by decide)⟩

/-! ### The entry -/

/-- The document sets the setting and leaves the rest alone. -/
theorem apply_document (x : TextSetting) (text : String) (root : Value) :
    Layer.apply root (entriesOf (x.document text)) = update (fun _ => .text text) x.steps root := by
  have hname : Layer.steps x.sectionName = (x.sectionName, []) := by cases x <;> decide
  show Layer.set root x.sectionName (.table [(x.keyName, .text text)]) = _
  rw [Layer.set, hname]
  simp only [steps, update, Layer.mergeInto, Layer.mergeEntries]
  rfl

theorem read?_fileText (x : TextSetting) (text : String) :
    Toml.read? (x.fileText text) = some (x.document text) := by
  let lines : List Toml.Line :=
    [.header [x.sectionName], .entry x.keyName (Toml.quote text) (.text text)]
  have hbare : Toml.Bare x.sectionName ∧ Toml.Bare x.keyName := by
    cases x <;> simp [sectionName, keyName, Toml.Bare, Toml.isBareKeyChar]
  have hreadable : ∀ l ∈ lines, l.Readable := by
    simp [lines, Toml.Line.Readable, Toml.reads_quote, hbare]
  have htext : x.fileText text = String.join (lines.map fun l => l.text ++ "\n") := by
    cases x <;> simp [fileText, lines, Toml.Line.text, String.join, String.append_assoc]
  rw [htext, Toml.read?_lines hreadable]
  cases x <;> rfl

theorem document_bounded (x : TextSetting) (text : String) :
    Value.entriesBetween (-Word.signedLimit) (Word.signedLimit - 1)
      (entriesOf (x.document text)) = true := by
  simp [document, entriesOf, Value.entriesBetween, Value.intsBetween]

/-! ### Values that differ in the setting -/

/-- The value `u` has `w` for the setting; everything beside it stands in `u` as it stands
in `y`. -/
structure Holds (x : TextSetting) (w u y : Value) : Prop where
  table : ∃ es, u = .table es
  elsewhere : ∀ k, k ≠ x.sectionName → u.entryAt? k = y.entryAt? k
  here : ∃ es, u.entryAt? x.sectionName = some (.table es) ∧ es.lookup x.keyName = some w ∧
    ∀ k, k ≠ x.keyName → es.lookup k = ((y.entryAt? x.sectionName).getD .nil).entryAt? k

theorem holds_update (x : TextSetting) (w y : Value) :
    Holds x w (update (fun _ => w) x.steps y) y where
  table := ⟨_, Layer.update_name ..⟩
  elsewhere k hk := by rw [steps, Layer.entryAt?_update_name, if_neg hk]
  here := by
    let older := entriesOf ((y.entryAt? x.sectionName).getD .nil)
    refine ⟨Value.setEntry x.keyName w older, ?_, ?_, fun k hk => ?_⟩
    · rw [steps, Layer.entryAt?_update_name, if_pos rfl, Layer.put, Layer.update_name]
      rfl
    · rw [Value.lookup_setEntry, if_pos rfl]
    · rw [Value.lookup_setEntry, if_neg hk, Value.entryAt?_eq]

theorem apart_name_iff {k : String} {rest : List Step} : x.Apart (.name k :: rest) ↔
    k ≠ x.sectionName ∨ ∃ m more, rest = .name m :: more ∧ m ≠ x.keyName := by
  refine or_congr ne_comm ?_
  match rest with
  | .name m :: more =>
    refine ⟨fun h => ⟨m, more, rfl, (h.resolve_right id).symm⟩, ?_⟩
    rintro ⟨m', more', heq, hne⟩
    cases heq
    exact .inl hne.symm
  | [] | .index _ :: _ => exact ⟨False.elim, fun ⟨_, _, heq, _⟩ => nomatch heq⟩

/-- What is set beside the setting is set in both. -/
theorem Holds.update (h : Holds x w u y) {rest : List Step} (hapart : x.Apart rest) (v : Value) :
    Holds x w (update (fun _ => v) rest u) (update (fun _ => v) rest y) := by
  match rest, hapart with
  | .name k :: rest, hapart =>
    refine ⟨⟨_, Layer.update_name ..⟩, fun l hl => ?_, ?_⟩
    · rw [Layer.entryAt?_update_name, Layer.entryAt?_update_name]
      by_cases hlk : l = k
      · rw [if_pos hlk, if_pos hlk, h.elsewhere k (hlk ▸ hl)]
      · rw [if_neg hlk, if_neg hlk, h.elsewhere l hl]
    · obtain ⟨es, hes, hkey, hothers⟩ := h.here
      by_cases hk : x.sectionName = k
      · -- Another key of the section is set.
        obtain ⟨m, more, rfl, hm⟩ :=
          (apart_name_iff.mp hapart).resolve_left (not_not.mpr hk.symm)
        have hlookup (l : String) : (Layer.update (fun _ => v) (.name m :: more)
            (.table es)).entryAt? l = if l = m then Layer.put v more (es.lookup m)
            else es.lookup l := Layer.entryAt?_update_name ..
        rw [Layer.entryAt?_update_name, Layer.entryAt?_update_name, if_pos hk, if_pos hk, ← hk, hes,
          Layer.put, Layer.put, Option.getD_some, Option.getD_some]
        rw [Layer.update_name] at hlookup ⊢
        refine ⟨_, rfl, (hlookup _).trans ?_, fun l hl => (hlookup l).trans ?_⟩
        · rw [if_neg hm.symm, hkey]
        · rw [Layer.entryAt?_update_name]
          by_cases hlm : l = m
          · rw [if_pos hlm, if_pos hlm, hothers m hm]
          · rw [if_neg hlm, if_neg hlm, hothers l hl]
      · rw [Layer.entryAt?_update_name, Layer.entryAt?_update_name, if_neg hk, if_neg hk]
        exact ⟨es, hes, hkey, hothers⟩

/-- A layer of plain values beside the setting is laid over both. -/
theorem Holds.apply (h : Holds x w u y) {layer : List (String × Value)}
    (hplain : ∀ e ∈ layer, e.2.isTable = false)
    (hapart : ∀ e ∈ layer, x.Apart (allSteps e.1)) :
    Holds x w (Layer.apply u layer) (Layer.apply y layer) := by
  induction layer generalizing u y with
  | nil => exact h
  | cons e layer ih =>
    obtain ⟨hfirst, hplain⟩ := List.forall_mem_cons.mp hplain
    obtain ⟨hsteps, hapart⟩ := List.forall_mem_cons.mp hapart
    have hset : Holds x w (Layer.set u e.1 e.2) (Layer.set y e.1 e.2) := by
      rw [Layer.set_of_plain hfirst, Layer.set_of_plain hfirst]
      exact h.update hsteps e.2
    exact ih hset hplain hapart

/-! ### Reading them -/

theorem ofValue?_of_holds (h : Holds x w u y) (h' : Holds x w' u' y) (hw : textOf w = some t)
    (hw' : textOf w' = some t') :
    Config.ofValue? lenient u' = (Config.ofValue? lenient u).map (x.put · t') := by
  obtain ⟨es, rfl⟩ := h.table
  obtain ⟨es', rfl⟩ := h'.table
  obtain ⟨fs, hfs, hkey, hothers⟩ := h.here
  obtain ⟨fs', hfs', hkey', hothers'⟩ := h'.here
  have houter (k : String) (hk : k ≠ x.sectionName) : es'.lookup k = es.lookup k :=
    (h'.elsewhere k hk).trans (h.elsewhere k hk).symm
  have hinner (k : String) (hk : k ≠ x.keyName) : fs'.lookup k = fs.lookup k :=
    (hothers' k hk).trans (hothers k hk).symm
  have hoptional {w : Value} {t : String} (hw : textOf w = some t) :
      lenient.optionalText w = some (some t) := by
    cases w with
    | nil => cases hw
    | _ => exact congrArg (Option.map some) hw
  cases x with
  | pluginsRoot =>
    have htext : lenient.text w = some t := hw
    have htext' : lenient.text w' = some t' := hw'
    simp only [sectionName, keyName, Value.entryAt?] at hfs hfs' hkey hkey'
    simp only [Config.ofValue?, Config.readPlugins, ReadingRules.fields?, List.map_cons,
      List.map_nil, readField, hfs, hfs', hkey, hkey', htext, htext',
      houter "device" (by decide), houter "lifecycle" (by decide), Option.bind_eq_bind,
      Option.bind_some, Option.map_bind, Function.comp_def, Option.map_some, put]
  | defaultType =>
    have htext := hoptional hw
    have htext' := hoptional hw'
    simp only [sectionName, keyName, Value.entryAt?] at hfs hfs' hkey hkey'
    simp only [Config.ofValue?, Config.readDevice, ReadingRules.fields?, List.map_cons,
      List.map_nil, readField, hfs, hfs', hkey, hkey', htext, htext',
      houter "plugins" (by decide), houter "lifecycle" (by decide), hinner "settings" (by decide),
      Option.bind_eq_bind, Option.bind_some, Option.bind_assoc, Option.map_bind,
      Function.comp_def, Option.map_some, put]

end TextSetting

end BlockTransfer
