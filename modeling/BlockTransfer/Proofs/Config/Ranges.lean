import BlockTransfer.Proofs.Config.Laying
/-!
# The numbers of a configuration are words

Every whole number in a layer is a signed word: a file with another one does not
parse, and a variable with another one is no whole number. Merging layers makes no
numbers. What a configuration reads as a number is then a word, whether it is
written as one, as a floating-point number, as a truth value or as a text.

Key definitions: `Value.Bounded`.
Key theorems: `Layer.bounded_apply`, `ConfigSources.bounded_merge`,
`Config.blockSize_lt_of_ofValue?`.
-/

namespace BlockTransfer

namespace Value

/-- Every whole number in the value is a signed word. -/
def Bounded (v : Value) : Prop :=
  v.intsBetween (-Word.signedLimit) (Word.signedLimit - 1) = true

variable {v target : Value} {entries es : List (String × Value)} {items : List Value} {k : String}

/-! ### Parts -/

theorem bounded_nil : Bounded nil := by rw [Bounded, intsBetween] <;> simp

theorem bounded_table_iff : (table es).Bounded ↔ ∀ e ∈ es, e.2.Bounded := by
  rw [Bounded, intsBetween]
  induction es with
  | nil => simp [entriesBetween]
  | cons e es ih =>
    rw [entriesBetween, Bool.and_eq_true, ih, List.forall_mem_cons]
    rfl

theorem bounded_list_iff : (list items).Bounded ↔ ∀ v ∈ items, v.Bounded := by
  rw [Bounded, intsBetween]
  induction items with
  | nil => simp [itemsBetween]
  | cons v items ih =>
    rw [itemsBetween, Bool.and_eq_true, ih, List.forall_mem_cons]
    rfl

theorem bounded_entriesOf (h : v.Bounded) : (table (Layer.entriesOf v)).Bounded := by
  cases v with
  | table es => exact h
  | _ => exact bounded_table_iff.mpr nofun

theorem bounded_itemsOf (h : v.Bounded) : (list (Layer.itemsOf v)).Bounded := by
  cases v with
  | list items => exact h
  | _ => exact bounded_list_iff.mpr nofun

theorem bounded_lookup (h : (table es).Bounded) (hk : es.lookup k = some v) : v.Bounded := by
  obtain ⟨front, back, rfl, -⟩ := List.lookup_eq_some_iff.mp hk
  exact bounded_table_iff.mp h (k, v) (List.mem_append_right _ List.mem_cons_self)

theorem bounded_lookup_getD (h : (table es).Bounded) (k : String) :
    ((es.lookup k).getD nil).Bounded := by
  cases hk : es.lookup k with
  | none => exact bounded_nil
  | some v => exact bounded_lookup h hk

theorem bounded_setEntry (h : (table es).Bounded) (hv : v.Bounded) :
    (table (setEntry k v es)).Bounded :=
  bounded_table_iff.mpr fun e he => by
    rcases mem_setEntry he with rfl | he
    · exact hv
    · exact bounded_table_iff.mp h e he

end Value

/-! ### Laying values over one another -/

namespace Layer

open Value (Bounded bounded_nil bounded_table_iff bounded_list_iff bounded_entriesOf bounded_itemsOf
  bounded_lookup_getD bounded_setEntry)

mutual

theorem bounded_mergeInto : ∀ {v target : Value}, target.Bounded → v.Bounded →
    (mergeInto target v).Bounded
  | .table entries, target, ht, hv => by
    rw [mergeInto]
    exact bounded_mergeEntries (bounded_entriesOf ht) hv
  | .nil, _, _, hv | .bool _, _, _, hv | .int _, _, _, hv | .float _, _, _, hv
  | .text _, _, _, hv | .datetime _, _, _, hv | .list _, _, _, hv => by
    simpa only [mergeInto] using hv

theorem bounded_mergeEntries : ∀ {entries : List (String × Value)} {target : Value},
    target.Bounded → (Value.table entries).Bounded → (mergeEntries target entries).Bounded
  | [], target, ht, _ => by rwa [mergeEntries]
  | (k, v) :: rest, target, ht, h => by
    obtain ⟨hv, hrest⟩ := List.forall_mem_cons.mp (bounded_table_iff.mp h)
    have hentries := bounded_entriesOf ht
    rw [mergeEntries]
    exact bounded_mergeEntries
      (bounded_setEntry hentries (bounded_mergeInto (bounded_lookup_getD hentries k) hv))
      (bounded_table_iff.mpr hrest)

end

/-- A change that keeps the bounds keeps them below the steps of a key. -/
theorem bounded_update {f : Value → Value} (hf : ∀ v : Value, v.Bounded → (f v).Bounded) :
    ∀ (steps : List Step) {v : Value}, v.Bounded → (update f steps v).Bounded
  | [], _, hv => hf _ hv
  | .name k :: rest, v, hv => by
    have hentries := bounded_entriesOf hv
    exact bounded_setEntry hentries (bounded_update hf rest (bounded_lookup_getD hentries k))
  | .index i :: rest, v, hv => by
    have hitems := bounded_list_iff.mp (bounded_itemsOf hv)
    have hpadded (a b : Nat) : ∀ u ∈ List.replicate a .nil ++ itemsOf v ++ List.replicate b .nil,
        u.Bounded := by
      intro u hu
      rcases List.mem_append.mp hu with hu | hu
      · rcases List.mem_append.mp hu with hu | hu
        · exact List.eq_of_mem_replicate hu ▸ bounded_nil
        · exact hitems u hu
      · exact List.eq_of_mem_replicate hu ▸ bounded_nil
    simp only [update]
    refine bounded_list_iff.mpr fun u hu => ?_
    rcases List.mem_or_eq_of_mem_set hu with hu | rfl
    · exact hpadded _ _ u hu
    · refine bounded_update hf rest ?_
      cases hget : (List.replicate (position i (itemsOf v).length).2 Value.nil ++ itemsOf v ++
          List.replicate _ Value.nil)[(position i (itemsOf v).length).1]? with
      | none => exact bounded_nil
      | some w => exact hpadded _ _ w (List.mem_of_getElem? hget)

theorem bounded_apply {layer : List (String × Value)} {v : Value} (hv : v.Bounded)
    (hl : (Value.table layer).Bounded) : (apply v layer).Bounded := by
  induction layer generalizing v with
  | nil => exact hv
  | cons e layer ih =>
    obtain ⟨he, hrest⟩ := List.forall_mem_cons.mp (bounded_table_iff.mp hl)
    exact ih (bounded_update (fun _ ht => bounded_mergeInto ht he) _ hv)
      (bounded_table_iff.mpr hrest)

/-! ### Layers -/

theorem bounded_variableValue (text : String) : (variableValue text).Bounded := by
  have hint {i : Int} (hlow : -(Word.signedLimit : Int) ≤ i) (hhigh : i ≤ Word.signedLimit - 1) :
      (Value.int i).Bounded := by
    simp [Bounded, Value.intsBetween, hlow, hhigh]
  unfold variableValue
  dsimp only
  split
  · simp [Bounded, Value.intsBetween]
  split
  · simp [Bounded, Value.intsBetween]
  split
  · rename_i i hi
    unfold Literal.integer? at hi
    split at hi
    · obtain ⟨_, hlift, rfl⟩ := Option.map_eq_some_iff.mp hi
      obtain ⟨n, hn, heq⟩ := Option.bind_eq_some_iff.mp hlift
      cases heq
      have hle := of_decide_eq_true (Option.filter_eq_some_iff.mp hn).2
      simp only [Word.signedLimit] at hle hint
      exact hint (by omega) (by omega)
    · obtain ⟨n, hn, rfl⟩ := Option.map_eq_some_iff.mp hi
      have hle := of_decide_eq_true (Option.filter_eq_some_iff.mp hn).2
      simp only [Word.signedLimit, Int.ofNat_eq_natCast] at hle hint ⊢
      exact hint (by omega) (by omega)
  · split <;> simp [Bounded, Value.intsBetween]

theorem bounded_ofEnvironment (envPrefix : String) (env : Variables) :
    (Value.table (ofEnvironment envPrefix env)).Bounded := by
  refine bounded_table_iff.mpr fun e he => ?_
  obtain ⟨text, htext⟩ := exists_text_of_mem envPrefix env e he
  exact htext ▸ bounded_variableValue text

end Layer

open Value (Bounded bounded_table_iff)

variable {es : List (String × Value)}

theorem ConfigFile.bounded_layer {readToml : String → Option Value} {files : FileSystem}
    {path : String} {entries : List (String × Value)}
    (h : ConfigFile.layer readToml files path = .ok entries) : (Value.table entries).Bounded := by
  unfold ConfigFile.layer at h
  split at h
  · cases h
    exact bounded_table_iff.mpr nofun
  · split at h
    · split at h <;> cases h
      rw [Bounded, Value.intsBetween]
      assumption
    · cases h

theorem ConfigSources.bounded_arrange (s : ConfigSources) (source : LayerSource)
    (h : (Value.table es).Bounded) : (Value.table (s.arrangement.arrange source es)).Bounded :=
  bounded_table_iff.mpr fun e he =>
    bounded_table_iff.mp h e ((s.arrangement.perm source es).mem_iff.mp he)

theorem ConfigSources.bounded_readLayer {s : ConfigSources} {path : String}
    (h : s.readLayer path = .ok es) : (Value.table es).Bounded := by
  unfold readLayer at h
  cases hlayer : ConfigFile.layer s.readToml s.files path with
  | error e =>
    rw [hlayer] at h
    cases h
  | ok entries =>
    rw [hlayer] at h
    cases h
    exact s.bounded_arrange _ (ConfigFile.bounded_layer hlayer)

theorem ConfigSources.bounded_readLayers {s : ConfigSources} {paths : List String}
    {layers : List (List (String × Value))} (h : paths.mapM s.readLayer = .ok layers) :
    ∀ l ∈ layers, (Value.table l).Bounded := by
  induction paths generalizing layers with
  | nil =>
    cases h
    exact nofun
  | cons p paths ih =>
    rw [List.mapM_cons] at h
    cases hp : s.readLayer p with
    | error e =>
      rw [hp] at h
      cases h
    | ok l =>
      cases hps : paths.mapM s.readLayer with
      | error e =>
        rw [hp, hps] at h
        cases h
      | ok ls =>
        rw [hp, hps] at h
        cases h
        exact List.forall_mem_cons.mpr ⟨bounded_readLayer hp, ih hps⟩

theorem Layer.bounded_foldl {layers : List (List (String × Value))} {v : Value} (hv : v.Bounded)
    (h : ∀ l ∈ layers, (Value.table l).Bounded) : (layers.foldl Layer.apply v).Bounded := by
  induction layers generalizing v with
  | nil => exact hv
  | cons l layers ih =>
    obtain ⟨hfirst, hrest⟩ := List.forall_mem_cons.mp h
    exact ih (Layer.bounded_apply hv hfirst) hrest

/-- All layers merged are bounded, as each of them is. -/
theorem ConfigSources.bounded_merge {s : ConfigSources} {v : Value} (h : s.merge = .ok v) :
    v.Bounded := by
  unfold merge at h
  cases hm : s.paths.mapM s.readLayer with
  | error e =>
    rw [hm] at h
    cases h
  | ok layers =>
    rw [hm] at h
    cases h
    refine Layer.bounded_foldl (bounded_table_iff.mpr nofun) fun l hl => ?_
    rcases List.mem_append.mp hl with hl | hl
    · rcases List.mem_cons.mp hl with rfl | hl
      · exact s.bounded_arrange _ (by rw [Bounded]; decide)
      · exact bounded_readLayers hm l hl
    · rw [List.mem_singleton.mp hl]
      exact s.bounded_arrange _ (Layer.bounded_ofEnvironment _ _)

/-! ### Reading numbers -/

namespace ReadingRules

/-- What is read as a number from bounded values is a word. -/
theorem natural_lt {v : Value} (hv : v.Bounded) {n : Nat} (h : lenient.natural v = some n) :
    n < Word.count := by
  have htext (t : String) (ht : naturalOfText t = some n) : n < Word.count := by
    unfold naturalOfText at ht
    split at ht
    · rename_i b _
      cases ht
      cases b <;> decide
    · have hle := of_decide_eq_true (Option.filter_eq_some_iff.mp ht).2
      simp only [maxNatural, Word.max, Word.count] at hle ⊢
      omega
  cases v with
  | int i =>
    simp only [Bounded, Value.intsBetween, Bool.and_eq_true, decide_eq_true_eq] at hv
    simp only [lenient, Option.ite_none_right_eq_some, Option.some.injEq] at h
    simp only [Word.signedLimit, Word.count] at hv ⊢
    omega
  | bool b =>
    cases h
    cases b <;> decide
  | float x =>
    cases h
    have hle : x.toNatClamped maxNatural ≤ maxNatural := by
      cases x with
      | nan => exact Nat.zero_le _
      | infinity negative => cases negative <;> decide
      | finite negative m e =>
        cases negative with
        | true => exact Nat.zero_le _
        | false => exact Nat.min_le_left _ _
    exact Nat.lt_of_le_of_lt hle (by decide)
  | text t => exact htext t h
  | datetime t => exact htext t h
  | _ => cases h

/-- The values of a section's fields are as bounded as the section. -/
theorem bounded_fields {names : List String} {v : Value} {fields : List (Option Value)}
    (hv : v.Bounded) (h : lenient.fields? names v = some fields) {u : Value}
    (hu : some u ∈ fields) : u.Bounded := by
  cases v with
  | table es =>
    cases h
    obtain ⟨name, -, hname⟩ := List.mem_map.mp hu
    exact Value.bounded_lookup hv hname
  | list items =>
    simp only [fields?, Option.ite_none_right_eq_some, Option.some.injEq] at h
    obtain ⟨-, rfl⟩ := h
    obtain ⟨i, -, hi⟩ := List.mem_map.mp hu
    exact Value.bounded_list_iff.mp hv u (List.mem_of_getElem? hi)
  | _ => cases h

end ReadingRules

theorem readField_eq_some {α : Type} {default : α} {read : Value → Option α} {v? : Option Value}
    {a : α} (h : readField default read v? = some a) :
    a = default ∨ ∃ v, v? = some v ∧ read v = some a := by
  cases v? with
  | none => exact .inl (Option.some.inj h).symm
  | some v => exact .inr ⟨v, rfl, h⟩

open ReadingRules (lenient bounded_fields natural_lt)

theorem DeviceSettings.blockSize_lt_of_ofValue? {v : Value} (hv : v.Bounded)
    {settings : DeviceSettings} (h : ofValue? lenient v = some settings) :
    settings.blockSize < Word.count := by
  unfold ofValue? at h
  obtain ⟨fields, hfields, h⟩ := Option.bind_eq_some_iff.mp h
  split at h
  · rename_i block depth single overlap threads
    obtain ⟨blockSize, hblock, h⟩ := Option.bind_eq_some_iff.mp h
    obtain ⟨queueDepth, -, h⟩ := Option.bind_eq_some_iff.mp h
    obtain ⟨singleSubmit, -, h⟩ := Option.bind_eq_some_iff.mp h
    obtain ⟨overlapEvents, -, h⟩ := Option.bind_eq_some_iff.mp h
    obtain ⟨threadCount, -, h⟩ := Option.bind_eq_some_iff.mp h
    cases h
    rcases readField_eq_some hblock with rfl | ⟨u, rfl, hu⟩
    · show (1048576 : Nat) < Word.count
      decide
    · exact natural_lt (bounded_fields hv hfields List.mem_cons_self) hu
  · cases h

theorem Config.blockSize_lt_of_ofValue? {v : Value} (hv : v.Bounded) {c : Config}
    (h : ofValue? lenient v = some c) : c.settings.blockSize < Word.count := by
  unfold ofValue? at h
  obtain ⟨fields, hfields, h⟩ := Option.bind_eq_some_iff.mp h
  split at h
  · rename_i plugins device lifecycle
    obtain ⟨pluginsRoot, -, h⟩ := Option.bind_eq_some_iff.mp h
    obtain ⟨⟨defaultType, settings⟩, hdevice, h⟩ := Option.bind_eq_some_iff.mp h
    obtain ⟨lockedBuffers, -, h⟩ := Option.bind_eq_some_iff.mp h
    cases h
    rcases readField_eq_some hdevice with heq | ⟨u, rfl, hu⟩
    · cases heq
      show (1048576 : Nat) < Word.count
      decide
    · have hbounded : u.Bounded := bounded_fields hv hfields (by simp)
      unfold readDevice at hu
      obtain ⟨fields', hfields', hu⟩ := Option.bind_eq_some_iff.mp hu
      split at hu
      · obtain ⟨type, -, hu⟩ := Option.bind_eq_some_iff.mp hu
        obtain ⟨settings', hsettings, hu⟩ := Option.bind_eq_some_iff.mp hu
        cases hu
        rcases readField_eq_some hsettings with rfl | ⟨w, rfl, hw⟩
        · show (1048576 : Nat) < Word.count
          decide
        · exact DeviceSettings.blockSize_lt_of_ofValue?
            (bounded_fields hbounded hfields' (by simp)) hw
      · cases hu
  · cases h

/-- What a loaded configuration is: it obeys the rules, and its block size is a word. -/
theorem ConfigSources.settings_of_load {s : ConfigSources} {c : Config} (h : s.load = .ok c) :
    c.settings.Valid ∧ c.settings.blockSize < Word.count := by
  unfold load at h
  cases hm : s.merge with
  | error e =>
    rw [hm] at h
    cases h
  | ok v =>
    rw [hm] at h
    cases hv : Config.ofValue? lenient v with
    | none =>
      simp only [Except.bind, bind, hv] at h
      cases h
    | some raw =>
      simp only [Except.bind, bind, hv] at h
      cases hcheck : raw.check with
      | error e =>
        rw [hcheck] at h
        cases h
      | ok u =>
        rw [hcheck] at h
        cases h
        have hsettings : (raw.resolvePaths s.projectDirectory).settings = raw.settings := by
          unfold Config.resolvePaths
          split <;> rfl
        rw [hsettings, ← DeviceSettings.check_eq_ok_iff]
        refine ⟨?_, Config.blockSize_lt_of_ofValue? (bounded_merge hm) hv⟩
        unfold Config.check at hcheck
        split at hcheck
        · assumption
        · cases hcheck

end BlockTransfer
