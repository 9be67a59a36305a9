import BlockTransfer.Proofs.Config.Complete
/-!
# Reading what one layer made of two values

A layer is laid over a value that a configuration was read from, and over one that has
all settings of that configuration. A field of the first value was set by the layer, or
it was read as it stood; in the second it was then set to the same, or it has what was
read. So the second value is read as the first one was (`Config.ofValue?_apply`). Only the
plugins root may be another text, because the one that the configuration has is not the one
that was read but an absolute path.

A list is the exception: an item is set beside those that are there, and a value that has
all settings has no lists (`Config.Opens`).

Key definitions: `Layer.SetsItem`, `Config.Opens`, `Config.rootFields`, `Config.Rooted`.
Key theorems: `Config.rooted_rootFields`, `Config.ofValue?_of_sections`,
`Config.ofValue?_apply`.
-/

namespace BlockTransfer

open Layer (Step entriesOf itemsOf)
open ReadingRules (lenient)

/-! ### Items of sections -/

/-- The steps set an item of the list that a path leads to. -/
def Layer.SetsItem : List String → List Step → Prop
  | [], .index _ :: _ => True
  | k :: path, .name l :: rest => k = l ∧ SetsItem path rest
  | _, _ => False

instance Layer.decidableSetsItem : (path : List String) → (steps : List Step) →
    Decidable (SetsItem path steps)
  | [], .index _ :: _ => isTrue trivial
  | k :: path, .name l :: rest =>
    have := decidableSetsItem path rest
    inferInstanceAs (Decidable (k = l ∧ SetsItem path rest))
  | [], [] | [], .name _ :: _ | _ :: _, [] | _ :: _, .index _ :: _ => isFalse nofun

theorem Layer.setsItem_append (path : List String) (i : Int) (more : List Step) :
    SetsItem path (path.map Step.name ++ .index i :: more) := by
  induction path with
  | nil => trivial
  | cons k path ih => exact ⟨rfl, ih⟩

/-- Where the sections are found. -/
def Config.sectionPaths : List (List String) :=
  [["plugins"], ["device"], ["device", "settings"], ["lifecycle"]]

/-- The steps set an item of a section only if the section has no items in the value. -/
def Config.Opens (b : Value) (steps : List Step) : Prop :=
  ∀ path ∈ sectionPaths, Layer.SetsItem path steps → itemsOf ((b.find? path).getD .nil) = []

instance (b : Value) (steps : List Step) : Decidable (Config.Opens b steps) :=
  inferInstanceAs (Decidable (∀ path ∈ Config.sectionPaths, _))

/-! ### The ties of a configuration -/

namespace Config

open Layer (Field Hang Overgrown Sections Tied)

variable {b b' : Value} {c : Config}

/-- The field of a setting: plain in the second value at first. -/
def settingField (b : Value) (c : Config) (x : Setting) (key : String) : Field :=
  ⟨key, Hang (b.find? x.path) (some (c.value x)) Overgrown, fun _ => True⟩

/-- The field of a section. -/
def sectionField (b b' : Value) (path : List String) (key : String) (fields : List Field) : Field :=
  ⟨key, Hang (b.find? path) (b'.find? path) (Sections fields),
    Field.Below fields (itemsOf ((b.find? path).getD .nil) ≠ [])⟩

def pluginsFields (b : Value) (c : Config) : List Field :=
  [settingField b c .pluginsRoot "root"]

def settingsFields (b : Value) (c : Config) : List Field :=
  [settingField b c .blockSize "block_size",
    settingField b c .queueDepth "queue_depth",
    settingField b c .singleSubmit "single_submit",
    settingField b c .overlapEvents "overlap_events",
    settingField b c .threadCount "thread_count"]

def deviceFields (b b' : Value) (c : Config) : List Field :=
  [settingField b c .defaultType "default_type",
    sectionField b b' ["device", "settings"] "settings" (settingsFields b c)]

def lifecycleFields (b : Value) (c : Config) : List Field :=
  [settingField b c .lockedBuffers "locked_buffers"]

/-- The fields of a configuration, for a value and one that has all settings. -/
def rootFields (b b' : Value) (c : Config) : List Field :=
  [sectionField b b' ["plugins"] "plugins" (pluginsFields b c),
    sectionField b b' ["device"] "device" (deviceFields b b' c),
    sectionField b b' ["lifecycle"] "lifecycle" (lifecycleFields b c)]

/-- The field lasts, and its entries hang together where they stand below a path. -/
structure Rooted (b b' : Value) (path : List String) (x : Field) : Prop where
  lasts : x.tie.Lasts x.Allowed
  first : x.tie (b.find? (path ++ [x.key])) (b'.find? (path ++ [x.key]))

theorem rooted_setting {x : Setting} {path : List String} {key : String}
    (hvalue : b'.find? x.path = some (c.value x)) (hpath : x.path = path ++ [key]) :
    Rooted b b' path (settingField b c x key) where
  lasts := by
    refine Layer.lasts_setting ?_ _
    cases x with
    | defaultType =>
      unfold value
      cases c.defaultType <;> rfl
    | _ => rfl
  first := by
    show Hang (b.find? x.path) (some (c.value x)) Overgrown (b.find? (path ++ [key]))
      (b'.find? (path ++ [key]))
    rw [← hpath, hvalue]
    exact .untouched

/-- A section is as good as its fields. -/
theorem rooted_section {path : List String} {key : String} {fields : List Field}
    (hfields : ∀ x ∈ fields, Rooted b b' (path ++ [key]) x)
    (htable : ∃ es, b'.find? (path ++ [key]) = some (.table es)) :
    Rooted b b' path (sectionField b b' (path ++ [key]) key fields) where
  lasts := by
    refine Layer.lasts_section (fun x hx => (hfields x hx).lasts) (fun x hx => ?_) ?_
    · rw [Value.entryAt?_getD, Value.entryAt?_getD, ← Value.find?_append, ← Value.find?_append]
      exact (hfields x hx).first
    · obtain ⟨es, hes⟩ := htable
      rw [hes]
      rfl
  first := .untouched

theorem rooted_rootFields (b : Value)
    (hvalues : ∀ x : Setting, b'.find? x.path = some (c.value x)) :
    ∀ x ∈ rootFields b b' c, Rooted b b' [] x := by
  have htable (x : Setting) {path more : List String} {k : String}
      (hpath : x.path = path ++ k :: more) : ∃ es, b'.find? path = some (.table es) :=
    Value.exists_table_of_find? (hpath ▸ hvalues x)
  have hplugins : ∀ x ∈ pluginsFields b c, Rooted b b' ["plugins"] x :=
    List.forall_mem_singleton.mpr (rooted_setting (hvalues .pluginsRoot) rfl)
  have hsettings : ∀ x ∈ settingsFields b c, Rooted b b' ["device", "settings"] x := by
    intro x hx
    simp only [settingsFields, List.mem_cons, List.not_mem_nil, or_false] at hx
    rcases hx with rfl | rfl | rfl | rfl | rfl <;> exact rooted_setting (hvalues _) rfl
  have hdevice : ∀ x ∈ deviceFields b b' c, Rooted b b' ["device"] x :=
    List.forall_mem_cons.mpr ⟨rooted_setting (hvalues .defaultType) rfl,
      List.forall_mem_singleton.mpr (rooted_section hsettings (htable .blockSize rfl))⟩
  have hlifecycle : ∀ x ∈ lifecycleFields b c, Rooted b b' ["lifecycle"] x :=
    List.forall_mem_singleton.mpr (rooted_setting (hvalues .lockedBuffers) rfl)
  exact List.forall_mem_cons.mpr ⟨rooted_section hplugins (htable .pluginsRoot rfl),
    List.forall_mem_cons.mpr ⟨rooted_section hdevice (htable .defaultType rfl),
      List.forall_mem_singleton.mpr (rooted_section hlifecycle (htable .lockedBuffers rfl))⟩⟩

/-! ### Reading both values -/

section

variable {α : Type} {default a : α} {read : Value → Option α} {old o o' : Option Value} {v : Value}

/-- A setting that can be read in one value can be read in the other, and is the same
unless it still is what it was at first. -/
theorem read_setting (h : Hang old (some v) Overgrown o o')
    (hread : ∀ u w, Overgrown u w → read u = some a → read w = some a)
    (ho : readField default read o = some a) :
    readField default read o' = some a ∨ o' = some v := by
  cases h with
  | untouched => exact .inr rfl
  | same u => exact .inl ho
  | opened h => exact .inl (hread _ _ h ho)

/-- The same for a setting that is read as it was at first. -/
theorem read_setting_same (h : Hang old (some v) Overgrown o o') (hv : read v = some a)
    (hread : ∀ u w, Overgrown u w → read u = some a → read w = some a)
    (ho : readField default read o = some a) : readField default read o' = some a := by
  rcases read_setting h hread ho with h | rfl
  · exact h
  · exact hv

end

/-- What is no setting has one key if it names a policy, and then the other has it too. -/
theorem readPolicy_of_overgrown {u w : Value} {p : LockedBufferPolicy} (h : Overgrown u w)
    (hu : readPolicy lenient u = some p) : readPolicy lenient w = some p := by
  cases h with
  | lists => cases hu
  | @tables es es' ne nodup sub =>
    obtain ⟨k, x, rfl⟩ : ∃ k x, es = [(k, x)] := by
      match es, hu with
      | [(k, x)], _ => exact ⟨k, x, rfl⟩
    obtain ⟨y, rfl⟩ : ∃ y, es' = [(k, y)] := by
      match es' with
      | [] => exact absurd rfl ne
      | [(l, y)] => exact ⟨y, by simpa using sub⟩
      | (l, y) :: (l', y') :: more =>
        obtain ⟨hl, hl', -⟩ : l = k ∧ l' = k ∧ _ := by simpa using sub
        simp [hl, hl'] at nodup
    exact hu

variable {es es' : List (String × Value)} {o o' : Option Value}
  (hvalues : ∀ x : Setting, b'.find? x.path = some (c.value x))

include hvalues

theorem read_plugins {r : String}
    (h : Hang (b.find? ["plugins"]) (b'.find? ["plugins"]) (Sections (pluginsFields b c)) o o')
    (ho : readField "plugins" (readPlugins lenient) o = some r) :
    readField "plugins" (readPlugins lenient) o' = some r ∨
      readField "plugins" (readPlugins lenient) o' = some c.pluginsRoot := by
  cases h with
  | untouched =>
    obtain ⟨es, hes, hroot⟩ := exists_section (hvalues .pluginsRoot) ["plugins"] "root" rfl
    rw [hes, readField, readPlugins_table, hroot]
    exact .inr rfl
  | same u => exact .inl ho
  | opened h =>
    cases h with
    | @tables es es' tied =>
      have hroot := tied _ (List.mem_singleton_self _)
      rw [readField, readPlugins_table] at ho ⊢
      have htext (u w : Value) (h : Overgrown u w) : lenient.text u = some r →
          lenient.text w = some r := by
        intro hu
        cases h <;> cases hu
      refine (read_setting hroot htext ho).imp_right fun h => ?_
      rw [show es'.lookup "root" = some _ from h]
      rfl

theorem read_lifecycle (h : Hang (b.find? ["lifecycle"]) (b'.find? ["lifecycle"])
      (Sections (lifecycleFields b c)) o o')
    (ho : readField .refuse (readLifecycle lenient) o = some c.lockedBuffers) :
    readField .refuse (readLifecycle lenient) o' = some c.lockedBuffers := by
  have hgives : readPolicy lenient (c.value .lockedBuffers) = some c.lockedBuffers :=
    gives_value c .lockedBuffers
  cases h with
  | untouched =>
    obtain ⟨es, hes, hpolicy⟩ :=
      exists_section (hvalues .lockedBuffers) ["lifecycle"] "locked_buffers" rfl
    rw [hes, readField, readLifecycle_table, hpolicy]
    exact hgives
  | same u => exact ho
  | opened h =>
    cases h with
    | tables tied =>
      have hpolicy := tied _ (List.mem_singleton_self _)
      rw [readField, readLifecycle_table] at ho ⊢
      exact read_setting_same hpolicy hgives (fun _ _ => readPolicy_of_overgrown) ho

theorem read_settings (h : Hang (b.find? ["device", "settings"]) (b'.find? ["device", "settings"])
      (Sections (settingsFields b c)) o o')
    (ho : readField {} (DeviceSettings.ofValue? lenient) o = some c.settings) :
    readField {} (DeviceSettings.ofValue? lenient) o' = some c.settings := by
  cases h with
  | untouched => exact readField_settings hvalues
  | same u => exact ho
  | opened h =>
    cases h with
    | @tables es es' tied =>
      have hnatural {n : Nat} (u w : Value) (h : Overgrown u w) :
          lenient.natural u = some n → lenient.natural w = some n := by
        intro hu
        cases h <;> cases hu
      have hswitch {on : Bool} (u w : Value) (h : Overgrown u w) :
          lenient.switch u = some on → lenient.switch w = some on := by
        intro hu
        cases h <;> cases hu
      have htied (x : Setting) (key : String) (hx : settingField b c x key ∈ settingsFields b c) :
          Hang (b.find? x.path) (some (c.value x)) Overgrown (es.lookup key) (es'.lookup key) :=
        tied _ hx
      rw [readField, DeviceSettings.ofValue?_table_iff] at ho ⊢
      obtain ⟨hblock, hdepth, hsingle, hoverlap, hthreads⟩ := ho
      refine ⟨?_, ?_, ?_, ?_, ?_⟩
      · exact read_setting_same (htied .blockSize _ (by simp [settingsFields]))
          (gives_value c .blockSize) hnatural hblock
      · exact read_setting_same (htied .queueDepth _ (by simp [settingsFields]))
          (gives_value c .queueDepth) hnatural hdepth
      · exact read_setting_same (htied .singleSubmit _ (by simp [settingsFields]))
          (gives_value c .singleSubmit) hswitch hsingle
      · exact read_setting_same (htied .overlapEvents _ (by simp [settingsFields]))
          (gives_value c .overlapEvents) hswitch hoverlap
      · exact read_setting_same (htied .threadCount _ (by simp [settingsFields]))
          (gives_value c .threadCount) hnatural hthreads

theorem read_device
    (h : Hang (b.find? ["device"]) (b'.find? ["device"]) (Sections (deviceFields b b' c)) o o')
    (ho : readField (some "posix", {}) (readDevice lenient) o = some (c.defaultType, c.settings)) :
    readField (some "posix", {}) (readDevice lenient) o' = some (c.defaultType, c.settings) := by
  have hgives : lenient.optionalText (c.value .defaultType) = some c.defaultType :=
    gives_value c .defaultType
  cases h with
  | untouched =>
    obtain ⟨es, hes, htype⟩ := exists_section (hvalues .defaultType) ["device"] "default_type" rfl
    have hsettings : b'.find? ["device", "settings"] = es.lookup "settings" := by
      rw [show ["device", "settings"] = ["device"] ++ ["settings"] from rfl, Value.find?_append,
        hes, Option.bind_some, Value.find?_table]
      cases es.lookup "settings" <;> rfl
    rw [hes, readField, readDevice_table_iff, htype, ← hsettings]
    exact ⟨hgives, readField_settings hvalues⟩
  | same u => exact ho
  | opened h =>
    cases h with
    | @tables es es' tied =>
      rw [readField, readDevice_table_iff] at ho ⊢
      obtain ⟨htype, hsettings⟩ := ho
      have htied : Hang _ _ Overgrown (es.lookup "default_type") (es'.lookup "default_type") :=
        tied (settingField b c .defaultType "default_type") List.mem_cons_self
      refine ⟨read_setting_same htied hgives (fun u w h hu => ?_) htype,
        read_settings hvalues (tied _ (List.mem_cons_of_mem _ (List.mem_singleton_self _)))
          hsettings⟩
      cases h <;> cases hu

/-- A configuration that can be read in one value can be read in the other, with the same
settings except that its plugins root may be the one that the other value had at first. -/
theorem ofValue?_of_sections {m m' : Value} (h : Sections (rootFields b b' c) m m') {root : String}
    (hm : ofValue? lenient m = some { c with pluginsRoot := root }) :
    ∃ r, (r = root ∨ r = c.pluginsRoot) ∧
      ofValue? lenient m' = some { c with pluginsRoot := r } := by
  cases h with
  | @tables es es' tied =>
    obtain ⟨hplugins, hdevice, hlifecycle⟩ := ofValue?_table_iff.mp hm
    have htied (path : List String) (key : String) (fields : List Field)
        (hx : sectionField b b' path key fields ∈ rootFields b b' c) :
        Hang (b.find? path) (b'.find? path) (Sections fields) (es.lookup key) (es'.lookup key) :=
      tied _ hx
    have hdevice' :=
      read_device hvalues (htied ["device"] "device" _ (by simp [rootFields])) hdevice
    have hlifecycle' :=
      read_lifecycle hvalues (htied ["lifecycle"] "lifecycle" _ (by simp [rootFields])) hlifecycle
    rcases read_plugins hvalues (htied ["plugins"] "plugins" _ (by simp [rootFields])) hplugins
      with hroot | hroot
    · exact ⟨root, .inl rfl, ofValue?_table_iff.mpr ⟨hroot, hdevice', hlifecycle'⟩⟩
    · exact ⟨c.pluginsRoot, .inr rfl, ofValue?_table_iff.mpr ⟨hroot, hdevice', hlifecycle'⟩⟩

/-! ### Laying a layer over both values -/

omit hvalues in
theorem allowed_section {path : List String} (hpath : path ∈ sectionPaths) {key : String}
    {fields : List Field} (hfields : ∀ x ∈ fields, ∀ more,
      Opens b ((path ++ [x.key]).map Step.name ++ more) → x.Allowed more) {rest : List Step}
    (h : Opens b (path.map Step.name ++ rest)) :
    (sectionField b b' path key fields).Allowed rest := by
  match rest with
  | [] => trivial
  | .index i :: more => exact not_not.mpr (h path hpath (Layer.setsItem_append path i more))
  | .name l :: more =>
    rintro x hx rfl
    exact hfields x hx more (by simpa using h)

omit hvalues in
/-- What opens sections is allowed below all of them. -/
theorem below_of_opens {k : String} {rest : List Step} (h : Opens b (.name k :: rest)) :
    Field.Below (rootFields b b' c) True (.name k :: rest) := by
  have hsettings : ∀ x ∈ settingsFields b c, ∀ more, x.Allowed more := by
    simp [settingsFields, settingField]
  intro x hx hk
  subst hk
  simp only [rootFields, List.mem_cons, List.not_mem_nil, or_false] at hx
  rcases hx with rfl | rfl | rfl
  · exact allowed_section (by decide) (List.forall_mem_singleton.mpr fun _ _ => trivial) h
  · refine allowed_section (by decide) (List.forall_mem_cons.mpr ⟨fun _ _ => trivial,
      List.forall_mem_singleton.mpr fun more hmore => ?_⟩) h
    exact allowed_section (by decide) (fun x hx more _ => hsettings x hx more) hmore
  · exact allowed_section (by decide) (List.forall_mem_singleton.mpr fun _ _ => trivial) h

/-- A layer of plain values makes of two values what is read alike, if one of them has all
settings that are read of the other. -/
theorem ofValue?_apply {es es' : List (String × Value)} (hb : b = .table es) (hb' : b' = .table es')
    {layer : List (String × Value)} (hplain : ∀ e ∈ layer, e.2.isTable = false)
    (hopens : ∀ e ∈ layer, Opens b (Layer.allSteps e.1)) {root : String}
    (h : ofValue? lenient (Layer.apply b layer) = some { c with pluginsRoot := root }) :
    ∃ r, (r = root ∨ r = c.pluginsRoot) ∧
      ofValue? lenient (Layer.apply b' layer) = some { c with pluginsRoot := r } := by
  have hrooted := rooted_rootFields b hvalues
  have hfirst : Sections (rootFields b b' c) b b' := by
    have htied : Tied (rootFields b b' c) b b' := fun x hx => by
      rw [← Value.find?_singleton, ← Value.find?_singleton]
      exact (hrooted x hx).first
    rw [hb, hb'] at htied ⊢
    exact .tables htied
  exact ofValue?_of_sections hvalues (Layer.sections_apply (fun x hx => (hrooted x hx).lasts) hplain
    (fun e he => below_of_opens (hopens e he)) hfirst) h

end Config
end BlockTransfer
