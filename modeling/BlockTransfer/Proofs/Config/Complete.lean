import BlockTransfer.Proofs.Config.Overlay
import BlockTransfer.Proofs.Config.Precedence
/-!
# Documents that have all settings

The document of a configuration, laid over anything, is found again in what comes out:
its tables are merged key by key, and each of its settings ends a path that no other
entry of the document leads along (`Config.find?_apply_toValue`). A table is read field by
field, whatever else stands in it.

Key definitions: `Layer.Leads`, `Config.value`.
Key theorems: `Layer.find?_mergeInto`, `Config.find?_apply_toValue`,
`Config.ofValue?_table_iff`.
-/

namespace BlockTransfer

open Layer (entriesOf itemsOf)
open ReadingRules (lenient)

/-! ### Paths -/

namespace Value

theorem find?_append (path more : List String) (v : Value) :
    v.find? (path ++ more) = (v.find? path).bind (find? more) := by
  induction path generalizing v with
  | nil => rfl
  | cons k path ih =>
    rw [List.cons_append, find?, find?, Option.bind_assoc]
    exact congrArg _ (funext ih)

theorem find?_singleton (k : String) (v : Value) : v.find? [k] = v.entryAt? k := by
  rw [find?]
  cases v.entryAt? k <;> rfl

theorem entryAt?_getD (o : Option Value) (k : String) :
    (o.getD nil).entryAt? k = o.bind (find? [k]) := by
  cases o with
  | none => rfl
  | some v => exact (find?_singleton k v).symm

/-- A path leads on from a table only. -/
theorem exists_table_of_find? {path more : List String} {k : String} {v u : Value}
    (h : v.find? (path ++ k :: more) = some u) : ∃ es, v.find? path = some (table es) := by
  rw [find?_append] at h
  obtain ⟨w, hw, h⟩ := Option.bind_eq_some_iff.mp h
  cases w with
  | table es => exact ⟨es, hw⟩
  | _ => cases h

theorem exists_lookup_of_find? {path : List String} {k : String} {v u : Value}
    (h : v.find? (path ++ [k]) = some u) :
    ∃ es, v.find? path = some (table es) ∧ es.lookup k = some u := by
  obtain ⟨es, hes⟩ := exists_table_of_find? h
  refine ⟨es, hes, ?_⟩
  rw [find?_append, hes, Option.bind_some, find?_table] at h
  cases hk : es.lookup k with
  | none => rw [hk] at h; cases h
  | some w => rw [hk] at h; exact h

end Value

/-! ### A table merged with distinct keys -/

namespace Layer

variable {k : String} {d : Value} {es : List (String × Value)}

theorem entryAt?_mergeEntries (hnodup : (es.map Prod.fst).Nodup) (hd : es.lookup k = some d)
    (target : Value) :
    (mergeEntries target es).entryAt? k = some (mergeInto ((target.entryAt? k).getD .nil) d) := by
  have hlater (es : List (String × Value)) (hk : k ∉ es.map Prod.fst) (target : Value) :
      (mergeEntries target es).entryAt? k = target.entryAt? k := by
    induction es generalizing target with
    | nil => rw [mergeEntries]
    | cons e es ih =>
      obtain ⟨hne, hk⟩ := not_or.mp fun h => hk (List.mem_cons.mpr h)
      rw [mergeEntries, ih hk, Value.entryAt?, Value.lookup_setEntry, if_neg hne,
        ← Value.entryAt?_eq]
  induction es generalizing target with
  | nil => cases hd
  | cons e es ih =>
    obtain ⟨l, x⟩ := e
    obtain ⟨hl, hnodup⟩ := List.nodup_cons.mp hnodup
    rw [List.lookup_cons] at hd
    rw [mergeEntries]
    by_cases hk : k = l
    · subst hk
      rw [beq_self_eq_true] at hd
      obtain rfl := Option.some.inj hd
      rw [hlater es hl, Value.entryAt?, Value.lookup_setEntry, if_pos rfl, ← Value.entryAt?_eq]
    · rw [beq_eq_false_iff_ne.mpr hk] at hd
      rw [ih hnodup hd, Value.entryAt?, Value.lookup_setEntry, if_neg hk, ← Value.entryAt?_eq]

theorem entryAt?_mergeInto (hnodup : (es.map Prod.fst).Nodup) (hd : es.lookup k = some d)
    (target : Value) : (mergeInto target (.table es)).entryAt? k =
      some (mergeInto ((target.entryAt? k).getD .nil) d) := by
  rw [mergeInto, entryAt?_mergeEntries hnodup hd, Value.entryAt?_eq k target]
  rfl

/-- A layer whose keys are plain names is merged as a table. -/
theorem apply_eq_mergeInto (hnames : ∀ e ∈ es, steps e.1 = (e.1, [])) (target : Value) :
    apply (.table (entriesOf target)) es = mergeInto target (.table es) := by
  rw [mergeInto]
  generalize entriesOf target = fs
  induction es generalizing fs with
  | nil => rw [mergeEntries]; rfl
  | cons e es ih =>
    obtain ⟨k, d⟩ := e
    obtain ⟨hfirst, hnames⟩ := List.forall_mem_cons.mp hnames
    rw [mergeEntries, ← ih hnames]
    show apply (set _ k d) es = _
    rw [set, hfirst]
    rfl

/-- The document leads to something other than a table, along tables with distinct
keys. -/
def Leads (leaf : Value) : List String → Value → Prop
  | [], doc => doc = leaf ∧ leaf.isTable = false
  | k :: path, doc => ∃ es d, doc = .table es ∧ (es.map Prod.fst).Nodup ∧ es.lookup k = some d ∧
    Leads leaf path d

/-- What a document leads to is found after it was merged into anything. -/
theorem find?_mergeInto {leaf doc : Value} {path : List String} (h : Leads leaf path doc)
    (target : Value) : (mergeInto target doc).find? path = some leaf := by
  induction path generalizing doc target with
  | nil =>
    obtain ⟨rfl, hleaf⟩ := h
    cases doc with
    | table es => cases hleaf
    | _ => rfl
  | cons k path ih =>
    obtain ⟨es, d, rfl, hnodup, hd, hleads⟩ := h
    rw [Value.find?, entryAt?_mergeInto hnodup hd, Option.bind_some, ih hleads]

end Layer

namespace Config

variable {c : Config}

/-- The value that a setting has in the document of a configuration. -/
def value (c : Config) : Setting → Value
  | .pluginsRoot => .text c.pluginsRoot
  | .defaultType => match c.defaultType with
    | some t => .text t
    | none => .nil
  | .blockSize => .int c.settings.blockSize
  | .queueDepth => .int c.settings.queueDepth
  | .singleSubmit => .bool c.settings.singleSubmit
  | .overlapEvents => .bool c.settings.overlapEvents
  | .threadCount => .int c.settings.threadCount
  | .lockedBuffers => .text c.lockedBuffers.name

theorem leads_toValue (c : Config) (x : Setting) : Layer.Leads (c.value x) x.path c.toValue := by
  have hsettings {k : String} {d : Value} (hleaf : d.isTable = false)
      (hd : (entriesOf (settingsValue c.settings)).lookup k = some d) :
      Layer.Leads d ["device", "settings", k] c.toValue :=
    ⟨_, _, rfl, by simp, rfl, _, _, rfl, by simp, rfl, _, _, rfl, by simp, hd, rfl, hleaf⟩
  cases x with
  | pluginsRoot => exact ⟨_, _, rfl, by simp, rfl, _, _, rfl, by simp, rfl, rfl, rfl⟩
  | defaultType =>
    refine ⟨_, _, rfl, by simp, rfl, _, _, rfl, by simp, rfl, rfl, ?_⟩
    unfold value
    cases c.defaultType <;> rfl
  | lockedBuffers => exact ⟨_, _, rfl, by simp, rfl, _, _, rfl, by simp, rfl, rfl, rfl⟩
  | _ => exact hsettings rfl rfl

theorem gives_value (c : Config) (x : Setting) : x.Gives (c.value x) c := by
  cases x with
  | defaultType =>
    show lenient.optionalText (c.value .defaultType) = some c.defaultType
    unfold value
    cases c.defaultType <;> rfl
  | lockedBuffers =>
    show readPolicy lenient (.text c.lockedBuffers.name) = some c.lockedBuffers
    cases c.lockedBuffers <;> rfl
  | pluginsRoot | singleSubmit | overlapEvents => rfl
  | _ => simp [Setting.Gives, value, lenient]

/-- A document laid over anything, in whatever order, has its own settings. -/
theorem find?_apply_toValue (c : Config) {layer : List (String × Value)}
    (h : layer.Perm (entriesOf c.toValue)) (target : Value) (x : Setting) :
    (Layer.apply (.table (entriesOf target)) layer).find? x.path = some (c.value x) := by
  have hkeys : (entriesOf c.toValue).map Prod.fst = ["plugins", "device", "lifecycle"] := rfl
  have hnames : ∀ e ∈ entriesOf c.toValue, Layer.steps e.1 = (e.1, []) := by
    have h : ∀ k ∈ (entriesOf c.toValue).map Prod.fst, Layer.steps k = (k, []) := by
      rw [hkeys]
      decide
    exact fun e he => h e.1 (List.mem_map_of_mem he)
  have hapart : Layer.KeysApart (entriesOf c.toValue) := by
    have h : ((entriesOf c.toValue).map Prod.fst).Pairwise fun k l =>
        Layer.Apart (Layer.allSteps k) (Layer.allSteps l) := by
      rw [hkeys]
      decide
    exact (List.pairwise_map (f := Prod.fst)).mp h
  rw [Layer.apply_perm hapart h, Layer.apply_eq_mergeInto hnames]
  exact Layer.find?_mergeInto (leads_toValue c x) target

end Config

/-! ### Reading tables -/

section

variable {rules : ReadingRules} {es : List (String × Value)}

theorem DeviceSettings.ofValue?_table_iff {settings : DeviceSettings} :
    ofValue? rules (.table es) = some settings ↔
      readField 1048576 rules.natural (es.lookup "block_size") = some settings.blockSize ∧
      readField 128 rules.natural (es.lookup "queue_depth") = some settings.queueDepth ∧
      readField false rules.switch (es.lookup "single_submit") = some settings.singleSubmit ∧
      readField true rules.switch (es.lookup "overlap_events") = some settings.overlapEvents ∧
      readField 1 rules.natural (es.lookup "thread_count") = some settings.threadCount := by
  constructor
  · intro h
    obtain ⟨blockSize, hblock, h⟩ := Option.bind_eq_some_iff.mp h
    obtain ⟨queueDepth, hdepth, h⟩ := Option.bind_eq_some_iff.mp h
    obtain ⟨singleSubmit, hsingle, h⟩ := Option.bind_eq_some_iff.mp h
    obtain ⟨overlapEvents, hoverlap, h⟩ := Option.bind_eq_some_iff.mp h
    obtain ⟨threadCount, hthreads, h⟩ := Option.bind_eq_some_iff.mp h
    cases h
    exact ⟨hblock, hdepth, hsingle, hoverlap, hthreads⟩
  · rintro ⟨hblock, hdepth, hsingle, hoverlap, hthreads⟩
    simp [ofValue?, ReadingRules.fields?, hblock, hdepth, hsingle, hoverlap, hthreads]

namespace Config

theorem readPlugins_table (rules : ReadingRules) (es : List (String × Value)) :
    readPlugins rules (.table es) = readField "plugins" rules.text (es.lookup "root") := rfl

theorem readDevice_table_iff {t : Option String} {settings : DeviceSettings} :
    readDevice rules (.table es) = some (t, settings) ↔
      readField (some "posix") rules.optionalText (es.lookup "default_type") = some t ∧
      readField {} (DeviceSettings.ofValue? rules) (es.lookup "settings") = some settings := by
  simp [readDevice, ReadingRules.fields?, Option.bind_eq_some_iff]

theorem readLifecycle_table (rules : ReadingRules) (es : List (String × Value)) :
    readLifecycle rules (.table es) =
      readField .refuse (readPolicy rules) (es.lookup "locked_buffers") := rfl

theorem ofValue?_table_iff {c : Config} : ofValue? rules (.table es) = some c ↔
    readField "plugins" (readPlugins rules) (es.lookup "plugins") = some c.pluginsRoot ∧
    readField (some "posix", {}) (readDevice rules) (es.lookup "device") =
      some (c.defaultType, c.settings) ∧
    readField .refuse (readLifecycle rules) (es.lookup "lifecycle") = some c.lockedBuffers := by
  obtain ⟨pluginsRoot, defaultType, settings, lockedBuffers⟩ := c
  simp [ofValue?, ReadingRules.fields?, Option.bind_eq_some_iff]

end Config

end

/-! ### Values that have all settings -/

namespace Config

variable {v : Value} {c : Config}

/-- A setting that is there stands in the table of its section. -/
theorem exists_section {x : Setting} (h : v.find? x.path = some (c.value x)) (path : List String)
    (k : String) (hpath : x.path = path ++ [k]) :
    ∃ es, v.find? path = some (.table es) ∧ es.lookup k = some (c.value x) :=
  Value.exists_lookup_of_find? (hpath ▸ h)

/-- The device settings of a value that has all settings. -/
theorem readField_settings
    (hvalues : ∀ x : Setting, v.find? x.path = some (c.value x)) :
    readField {} (DeviceSettings.ofValue? lenient) (v.find? ["device", "settings"]) =
      some c.settings := by
  obtain ⟨es, hes, hblock⟩ :=
    exists_section (hvalues .blockSize) ["device", "settings"] "block_size" rfl
  have hlookup {k : String} {x : Setting} (hpath : x.path = ["device", "settings"] ++ [k]) :
      es.lookup k = some (c.value x) := by
    obtain ⟨fs, hfs, hk⟩ := exists_section (hvalues x) ["device", "settings"] k hpath
    cases hes.symm.trans hfs
    exact hk
  rw [hes, readField, DeviceSettings.ofValue?_table_iff, hblock,
    hlookup (x := .queueDepth) rfl, hlookup (x := .singleSubmit) rfl,
    hlookup (x := .overlapEvents) rfl, hlookup (x := .threadCount) rfl]
  exact ⟨gives_value c .blockSize, gives_value c .queueDepth, gives_value c .singleSubmit,
    gives_value c .overlapEvents, gives_value c .threadCount⟩

end Config
end BlockTransfer
