import BlockTransfer.Proofs.Config.Laying
/-!
# Which layer decides a setting

A configuration has eight settings, in three sections and a section of a section.
Each of them is decided on its own, by the highest layer that sets it: the
environment, the local file, the project's file, the user's file, the built-in
default (`ConfigSources.effective`). What a lower layer says of it has no influence,
and neither has a key that is none of the eight: loading depends on the eight
effective values alone, fails exactly if a file does not parse, one of them cannot
be read, or the device settings break a rule, and gives each setting its effective
value otherwise (`ConfigSources.precedence`). The entries of one layer come in any
order, and the last one that sets a setting counts; the order makes no difference
unless a layer sets a setting more than once.

This is so as long as no layer has something else where a section is expected, or a
table where a setting is (`ConfigSources.Sectioned`).

Key definitions: `Config.Setting`, `Config.Setting.Gives`,
`ConfigSources.effective`, `ConfigSources.Sectioned`, `ConfigSources.SetsOnce`,
`ConfigSources.Precedence`.
Key theorems: `ConfigSources.find?_merged`, `Config.ofValue?_eq_convert`,
`ConfigSources.precedence`.
-/

namespace BlockTransfer

open ReadingRules (lenient)

namespace Config

/-- A setting of a configuration. -/
inductive Setting where
  | pluginsRoot
  | defaultType
  | blockSize
  | queueDepth
  | singleSubmit
  | overlapEvents
  | threadCount
  | lockedBuffers
  deriving DecidableEq, Repr

namespace Setting

/-- Where a setting is found. -/
def path : Setting → List String
  | pluginsRoot => ["plugins", "root"]
  | defaultType => ["device", "default_type"]
  | blockSize => ["device", "settings", "block_size"]
  | queueDepth => ["device", "settings", "queue_depth"]
  | singleSubmit => ["device", "settings", "single_submit"]
  | overlapEvents => ["device", "settings", "overlap_events"]
  | threadCount => ["device", "settings", "thread_count"]
  | lockedBuffers => ["lifecycle", "locked_buffers"]

/-- What a setting is if nobody sets it. -/
def default : Setting → Value
  | pluginsRoot => .text "plugins"
  | defaultType => .text "posix"
  | blockSize => .int 1048576
  | queueDepth => .int 128
  | singleSubmit => .bool false
  | overlapEvents => .bool true
  | threadCount => .int 1
  | lockedBuffers => .text "refuse"

/-- The value can be read as one of the setting's type, and this is what the
configuration has. -/
def Gives (v : Value) (c : Config) : Setting → Prop
  | pluginsRoot => lenient.text v = some c.pluginsRoot
  | defaultType => lenient.optionalText v = some c.defaultType
  | blockSize => lenient.natural v = some c.settings.blockSize
  | queueDepth => lenient.natural v = some c.settings.queueDepth
  | singleSubmit => lenient.switch v = some c.settings.singleSubmit
  | overlapEvents => lenient.switch v = some c.settings.overlapEvents
  | threadCount => lenient.natural v = some c.settings.threadCount
  | lockedBuffers => Config.readPolicy lenient v = some c.lockedBuffers

/-- All settings. -/
def all : List Setting :=
  [pluginsRoot, defaultType, blockSize, queueDepth, singleSubmit, overlapEvents, threadCount,
    lockedBuffers]

theorem mem_all (x : Setting) : x ∈ all := by
  cases x <;> decide

theorem exists_path (x : Setting) : ∃ k rest, x.path = k :: rest := by
  cases x <;> exact ⟨_, _, rfl⟩

end Setting
end Config

open Config (Setting)

/-! ### Reading the eight settings -/

namespace Value

theorem find?_pair {v u : Value} {a b : String} (h : v.find? [a, b] = some u) :
    ∃ es fs, v = .table es ∧ es.lookup a = some (.table fs) ∧ fs.lookup b = some u := by
  cases v with
  | table es =>
    cases ha : es.lookup a with
    | none => simp [find?, entryAt?, ha] at h
    | some w =>
      cases w with
      | table fs => exact ⟨es, fs, rfl, ha, by simpa [find?, entryAt?, ha] using h⟩
      | _ => simp [find?, entryAt?, ha] at h
  | _ => cases h

theorem find?_triple {v u : Value} {a b c : String} (h : v.find? [a, b, c] = some u) :
    ∃ es fs gs, v = .table es ∧ es.lookup a = some (.table fs) ∧
      fs.lookup b = some (.table gs) ∧ gs.lookup c = some u := by
  cases v with
  | table es =>
    cases ha : es.lookup a with
    | none => simp [find?, entryAt?, ha] at h
    | some w =>
      have hw : w.find? [b, c] = some u := by simpa [find?, entryAt?, ha] using h
      obtain ⟨fs, gs, rfl, hb, hc⟩ := find?_pair hw
      exact ⟨es, fs, gs, rfl, ha, hb, hc⟩
  | _ => cases h

end Value

namespace Config

/-- The configuration that has each setting as it is read from a value. -/
def convert (values : Setting → Value) : Option Config := do
  let pluginsRoot ← lenient.text (values .pluginsRoot)
  let defaultType ← lenient.optionalText (values .defaultType)
  let blockSize ← lenient.natural (values .blockSize)
  let queueDepth ← lenient.natural (values .queueDepth)
  let singleSubmit ← lenient.switch (values .singleSubmit)
  let overlapEvents ← lenient.switch (values .overlapEvents)
  let threadCount ← lenient.natural (values .threadCount)
  let lockedBuffers ← readPolicy lenient (values .lockedBuffers)
  let settings : DeviceSettings :=
    { blockSize, queueDepth, singleSubmit, overlapEvents, threadCount }
  some { pluginsRoot, defaultType, settings, lockedBuffers }

theorem convert_eq_some_iff {values : Setting → Value} {c : Config} :
    convert values = some c ↔ ∀ x, Setting.Gives (values x) c x := by
  constructor
  · intro h x
    simp only [convert, Option.bind_eq_bind, Option.bind_eq_some_iff, Option.some.injEq] at h
    obtain ⟨_, hroot, _, htype, _, hblock, _, hdepth, _, hsingle, _, hoverlap, _, hthreads, _,
      hpolicy, rfl⟩ := h
    cases x <;> assumption
  · intro h
    have hroot : lenient.text _ = _ := h .pluginsRoot
    have htype : lenient.optionalText _ = _ := h .defaultType
    have hblock : lenient.natural _ = _ := h .blockSize
    have hdepth : lenient.natural _ = _ := h .queueDepth
    have hsingle : lenient.switch _ = _ := h .singleSubmit
    have hoverlap : lenient.switch _ = _ := h .overlapEvents
    have hthreads : lenient.natural _ = _ := h .threadCount
    have hpolicy : readPolicy lenient _ = _ := h .lockedBuffers
    simp only [convert, hroot, htype, hblock, hdepth, hsingle, hoverlap, hthreads, hpolicy]
    rfl

/-- Values that can each be read make a configuration. -/
theorem exists_convert {values : Setting → Value}
    (h : ∀ x, ∃ c, Setting.Gives (values x) c x) : ∃ c, convert values = some c := by
  obtain ⟨_, hroot : lenient.text _ = _⟩ := h .pluginsRoot
  obtain ⟨_, htype : lenient.optionalText _ = _⟩ := h .defaultType
  obtain ⟨_, hblock : lenient.natural _ = _⟩ := h .blockSize
  obtain ⟨_, hdepth : lenient.natural _ = _⟩ := h .queueDepth
  obtain ⟨_, hsingle : lenient.switch _ = _⟩ := h .singleSubmit
  obtain ⟨_, hoverlap : lenient.switch _ = _⟩ := h .overlapEvents
  obtain ⟨_, hthreads : lenient.natural _ = _⟩ := h .threadCount
  obtain ⟨_, hpolicy : readPolicy lenient _ = _⟩ := h .lockedBuffers
  simp only [convert, hroot, htype, hblock, hdepth, hsingle, hoverlap, hthreads, hpolicy]
  exact ⟨_, rfl⟩

/-- The items of a list make no difference to a reader. -/
theorem convert_flat (values : Setting → Value) :
    convert (fun x => (values x).flat) = convert values := by
  have htext (v : Value) : lenient.text v.flat = lenient.text v := by cases v <;> rfl
  have hoptional (v : Value) : lenient.optionalText v.flat = lenient.optionalText v := by
    cases v <;> rfl
  have hnatural (v : Value) : lenient.natural v.flat = lenient.natural v := by cases v <;> rfl
  have hswitch (v : Value) : lenient.switch v.flat = lenient.switch v := by cases v <;> rfl
  have hpolicy (v : Value) : readPolicy lenient v.flat = readPolicy lenient v := by
    cases v <;> rfl
  simp only [convert, htext, hoptional, hnatural, hswitch, hpolicy]

/-- A document that has a value for each setting is read by reading the values. -/
theorem ofValue?_eq_convert {v : Value} {values : Setting → Value}
    (h : ∀ x, v.find? x.path = some (values x)) : ofValue? lenient v = convert values := by
  obtain ⟨es, ps, rfl, hplugins, hroot⟩ := Value.find?_pair (h .pluginsRoot)
  obtain ⟨_, ds, ⟨⟩, hdevice, htype⟩ := Value.find?_pair (h .defaultType)
  obtain ⟨_, ls, ⟨⟩, hlifecycle, hpolicy⟩ := Value.find?_pair (h .lockedBuffers)
  obtain ⟨_, _, ss, ⟨⟩, hdevice', hsettings, hblock⟩ := Value.find?_triple (h .blockSize)
  rw [hdevice] at hdevice'
  cases hdevice'
  have hof {k : String} {x : Setting} (hpath : x.path = ["device", "settings", k]) :
      ss.lookup k = some (values x) := by
    have hx := h x
    rw [hpath] at hx
    simpa [Value.find?, Value.entryAt?, hdevice, hsettings] using hx
  have hdepth := hof (x := .queueDepth) rfl
  have hsingle := hof (x := .singleSubmit) rfl
  have hoverlap := hof (x := .overlapEvents) rfl
  have hthreads := hof (x := .threadCount) rfl
  simp only [ofValue?, ReadingRules.fields?, List.map_cons, List.map_nil, hplugins, hdevice,
    hlifecycle, readField, readPlugins, readDevice, readLifecycle, hroot, htype, hsettings,
    hpolicy, DeviceSettings.ofValue?, hblock, hdepth, hsingle, hoverlap, hthreads, convert,
    Option.bind_eq_bind, Option.bind_some, Option.bind_assoc]

end Config

/-! ### Layers -/

namespace ConfigSources

variable {s s' : ConfigSources} {k : String} {path : List String} {c : Config}

/-- The sources with their entries in another order. -/
def arranged (s : ConfigSources) (arrangement : Arrangement) : ConfigSources :=
  { s with arrangement }

/-- What a file sets; a file that does not parse sets nothing. -/
def fileLayer (s : ConfigSources) (path : String) : List (String × Value) :=
  (s.readLayer path).toOption.getD []

/-- The layers over the built-in defaults, the highest first: the environment, the
local file, the project's file, and the user's file unless it is skipped. -/
def layers (s : ConfigSources) : List (List (String × Value)) :=
  let user? := (s.userDirectory? s.environment).map ConfigFile.user
  [s.variableLayer, s.fileLayer (ConfigFile.local s.projectDirectory),
    s.fileLayer (ConfigFile.project s.projectDirectory)] ++
  if s.includeUser then (user?.map s.fileLayer).toList else []

/-- The value of a setting in the highest layer that sets it; of several entries there
that set it, in the one that comes last. -/
def effective (s : ConfigSources) (x : Setting) : Value :=
  (s.layers.findSome? fun layer => (Layer.document layer).last? x.path).getD x.default

/-- In every layer sections are tables and settings are not. -/
def Sectioned (s : ConfigSources) : Prop :=
  ∀ layer ∈ s.layers, ∀ x : Setting, (Layer.document layer).Fits x.path

instance : Decidable s.Sectioned :=
  decidable_of_iff (∀ layer ∈ s.layers, ∀ x ∈ Setting.all, (Layer.document layer).Fits x.path)
    ⟨fun h layer hlayer x => h layer hlayer x x.mem_all, fun h layer hlayer x _ => h layer hlayer x⟩

/-- No layer sets a setting more than once. -/
def SetsOnce (s : ConfigSources) : Prop :=
  ∀ layer ∈ s.layers, ∀ x : Setting, Layer.SetsOnce layer x.path

instance : Decidable s.SetsOnce :=
  decidable_of_iff (∀ layer ∈ s.layers, ∀ x ∈ Setting.all, Layer.SetsOnce layer x.path)
    ⟨fun h layer hlayer x => h layer hlayer x x.mem_all, fun h layer hlayer x _ => h layer hlayer x⟩

/-- Every file that counts is missing or can be read. -/
def Parses (s : ConfigSources) : Prop :=
  ∀ path ∈ s.paths, ∃ entries, ConfigFile.layer s.readToml s.files path = .ok entries

theorem fits_defaults (s : ConfigSources) (x : Setting) :
    (Layer.document s.defaults).Fits x.path := by
  have hbuiltin : (Layer.document builtin).Fits x.path := by cases x <;> decide +kernel
  obtain ⟨k, rest, hpath⟩ := x.exists_path
  rw [hpath] at hbuiltin ⊢
  exact Layer.fits_document_perm (s.arrangement.perm _ _) hbuiltin

theorem last?_defaults (s : ConfigSources) (x : Setting) :
    (Layer.document s.defaults).last? x.path = some x.default := by
  have honce : Layer.SetsOnce builtin x.path := by cases x <;> decide +kernel
  have hbuiltin : (Layer.document builtin).last? x.path = some x.default := by cases x <;> rfl
  obtain ⟨k, rest, hpath⟩ := x.exists_path
  rw [hpath] at honce hbuiltin ⊢
  rw [defaults, Layer.last?_document_perm (s.arrangement.perm _ _) honce, hbuiltin]

/-- What is found after layers were laid over a value is what the highest of them
gives that gives something, or else what was there. -/
theorem lays_foldl {ls : List (List (String × Value))} {old : Value} (hold : old.Fits (k :: path))
    (hls : ∀ l ∈ ls, (Layer.document l).Fits (k :: path)) :
    ((ls.foldl Layer.apply old).find? (k :: path)).map Value.flat =
      ((ls.reverse.findSome? fun l => (Layer.document l).last? (k :: path)).or
        (old.find? (k :: path))).map Value.flat := by
  induction ls generalizing old with
  | nil => rfl
  | cons l ls ih =>
    obtain ⟨hfirst, hrest⟩ := List.forall_mem_cons.mp hls
    have hlay := Layer.lays_apply hold hfirst
    rw [List.foldl_cons, ih hlay.fits hrest, List.reverse_cons, List.findSome?_append,
      Option.or_assoc, Option.map_or, hlay.find, ← Option.map_or, List.findSome?_singleton]

/-- All layers merged, the lowest first. -/
def merged (s : ConfigSources) : Value :=
  (s.defaults :: s.layers.reverse).foldl Layer.apply (.table [])

/-- The merged layers have the effective value of every setting. -/
theorem find?_merged (h : s.Sectioned) (x : Setting) :
    (s.merged.find? x.path).map Value.flat = some (s.effective x).flat := by
  have hdefault := s.last?_defaults x
  have hfits : ∀ l ∈ s.defaults :: s.layers.reverse, (Layer.document l).Fits x.path :=
    List.forall_mem_cons.mpr ⟨s.fits_defaults x, fun l hl => h l (List.mem_reverse.mp hl) x⟩
  obtain ⟨k, rest, hpath⟩ := x.exists_path
  have hempty : (Value.table []).Fits (k :: rest) := Value.fits_table_iff.mpr nofun
  rw [effective, merged]
  rw [hpath] at hdefault hfits ⊢
  rw [lays_foldl hempty hfits, List.reverse_cons, List.reverse_reverse,
    List.findSome?_append, List.findSome?_singleton, hdefault, Option.or_assoc, Option.some_or]
  cases s.layers.findSome? fun l => (Layer.document l).last? (k :: rest) <;> rfl

/-! ### Loading -/

theorem readLayer_eq {path : String} {entries : List (String × Value)}
    (h : ConfigFile.layer s.readToml s.files path = .ok entries) :
    s.readLayer path = .ok (s.fileLayer path) := by
  rw [fileLayer, readLayer, h]
  rfl

theorem reverse_layers (s : ConfigSources) :
    s.layers.reverse = s.paths.map s.fileLayer ++ [s.variableLayer] := by
  unfold layers paths
  cases s.includeUser with
  | false => rfl
  | true => cases s.userDirectory? s.environment <;> rfl

/-- The only error of a file is that it does not parse. -/
theorem layer_error {readToml : String → Option Value} {files : FileSystem} {path : String}
    {e : ConfigError} (h : ConfigFile.layer readToml files path = .error e) : e = .build := by
  unfold ConfigFile.layer at h
  split at h
  · cases h
  · split at h
    · split at h <;> cases h
      rfl
    · cases h
      rfl

theorem mapM_of_parses {paths : List String}
    {read : String → Except ConfigError (List (String × Value))}
    {file : String → List (String × Value)} (h : ∀ p ∈ paths, read p = .ok (file p)) :
    paths.mapM read = .ok (paths.map file) := by
  induction paths with
  | nil => rfl
  | cons p paths ih =>
    obtain ⟨hfirst, hrest⟩ := List.forall_mem_cons.mp h
    rw [List.mapM_cons, hfirst, ih hrest]
    rfl

theorem mapM_of_not_parses {paths : List String}
    (h : ¬∀ p ∈ paths, ∃ entries, ConfigFile.layer s.readToml s.files p = .ok entries) :
    paths.mapM s.readLayer = .error .build := by
  induction paths with
  | nil => exact absurd nofun h
  | cons p paths ih =>
    rw [List.mapM_cons]
    cases hp : ConfigFile.layer s.readToml s.files p with
    | error e =>
      obtain rfl := layer_error hp
      rw [readLayer, hp]
      rfl
    | ok entries =>
      have hrest := ih fun hall => h (List.forall_mem_cons.mpr ⟨⟨entries, hp⟩, hall⟩)
      rw [readLayer_eq hp, hrest]
      rfl

theorem merge_of_parses (h : s.Parses) : s.merge = .ok s.merged := by
  have hlayers : s.paths.mapM s.readLayer = .ok (s.paths.map s.fileLayer) :=
    mapM_of_parses fun path hpath => (h path hpath).elim fun _ hentries => readLayer_eq hentries
  rw [merge, hlayers, merged, reverse_layers]
  rfl

theorem load_of_not_parses (h : ¬s.Parses) : s.load = .error .build := by
  rw [load, merge, mapM_of_not_parses h]
  rfl

/-- A configuration with its plugins root taken from the project directory, if it
breaks no rule. -/
def settle (s : ConfigSources) (raw : Config) : Except ConfigError Config :=
  raw.check.map fun _ => raw.resolvePaths s.projectDirectory

/-- Loading is reading the eight effective values. -/
theorem load_of_parses (hs : s.Sectioned) (h : s.Parses) : s.load =
    match Config.convert s.effective with
    | none => .error .conversion
    | some raw => s.settle raw := by
  have hfound (x : Setting) : ∃ v, s.merged.find? x.path = some v ∧ v.flat = (s.effective x).flat :=
    Option.map_eq_some_iff.mp (find?_merged hs x)
  choose values hvalues hflat using hfound
  rw [load, merge_of_parses h]
  show (match Config.ofValue? lenient s.merged with
    | none => _
    | some c => _) = _
  rw [Config.ofValue?_eq_convert hvalues, ← Config.convert_flat values, funext hflat,
    Config.convert_flat]
  cases Config.convert s.effective with
  | none => rfl
  | some raw =>
    dsimp only [settle]
    cases raw.check <;> rfl

theorem settle_eq_ok_iff {raw : Config} : s.settle raw = .ok c ↔ raw.settings.Valid ∧
    c = { raw with
      pluginsRoot :=
        if Path.isAbsolute raw.pluginsRoot then raw.pluginsRoot
        else Path.join s.projectDirectory raw.pluginsRoot } := by
  have hresolve : raw.resolvePaths s.projectDirectory = { raw with
      pluginsRoot :=
        if Path.isAbsolute raw.pluginsRoot then raw.pluginsRoot
        else Path.join s.projectDirectory raw.pluginsRoot } := by
    unfold Config.resolvePaths
    split <;> rfl
  rw [← DeviceSettings.check_eq_ok_iff, settle, Config.check, hresolve]
  cases raw.settings.check with
  | ok => exact ⟨fun h => ⟨rfl, (Except.ok.inj h).symm⟩, fun h => congrArg Except.ok h.2.symm⟩
  | error fault => exact ⟨nofun, nofun⟩

/-- How layers decide, in whatever order their entries come. A configuration is loaded
if every file parses, every effective value can be read and the settings break no rule;
it has the effective values, with a relative plugins root taken from the project
directory. Nothing but the effective values counts. -/
structure Precedence (s : ConfigSources) : Prop where
  loads : ∀ c, s.load = .ok c ↔ s.Parses ∧ ∃ raw : Config,
    (∀ x, Setting.Gives (s.effective x) raw x) ∧ raw.settings.Valid ∧
      c = { raw with
        pluginsRoot :=
          if Path.isAbsolute raw.pluginsRoot then raw.pluginsRoot
          else Path.join s.projectDirectory raw.pluginsRoot }
  fails : (∃ e, s.load = .error e) ↔
    (∃ path ∈ s.paths, ConfigFile.layer s.readToml s.files path = .error .build) ∨
    (∃ x, ∀ c, ¬Setting.Gives (s.effective x) c x) ∨
    ∃ raw : Config, (∀ x, Setting.Gives (s.effective x) raw x) ∧ ¬raw.settings.Valid
  determined : ∀ s' : ConfigSources, s'.Sectioned → s'.projectDirectory = s.projectDirectory →
    (s'.Parses ↔ s.Parses) → (∀ x, s'.effective x = s.effective x) → s'.load = s.load
  /-- The order of the entries counts only where a layer sets a setting more than once. -/
  orderless : s.SetsOnce → ∀ arrangement, (s.arranged arrangement).load = s.load ∧
    ∀ x, (s.arranged arrangement).effective x = s.effective x

/-! ### Another order -/

theorem perm_arranged (s : ConfigSources) (arrangement : Arrangement) (source : LayerSource)
    (entries : List (String × Value)) :
    (arrangement.arrange source entries).Perm (s.arrangement.arrange source entries) :=
  (arrangement.perm source entries).trans (s.arrangement.perm source entries).symm

/-- What a file sets, in the order in which it is written. -/
def fileEntries (s : ConfigSources) (path : String) : List (String × Value) :=
  (ConfigFile.layer s.readToml s.files path).toOption.getD []

theorem perm_fileEntries (s : ConfigSources) (path : String) :
    (s.fileLayer path).Perm (s.fileEntries path) := by
  rw [fileLayer, fileEntries, readLayer]
  cases ConfigFile.layer s.readToml s.files path with
  | error e => exact .nil
  | ok entries => exact s.arrangement.perm _ entries

theorem perm_fileLayer (s : ConfigSources) (arrangement : Arrangement) (path : String) :
    ((s.arranged arrangement).fileLayer path).Perm (s.fileLayer path) :=
  ((s.arranged arrangement).perm_fileEntries path).trans (s.perm_fileEntries path).symm

/-- Layer by layer the same entries. -/
theorem perm_layers (s : ConfigSources) (arrangement : Arrangement) :
    List.Forall₂ List.Perm (s.arranged arrangement).layers s.layers := by
  have hfile := s.perm_fileLayer arrangement
  refine .cons (s.perm_arranged arrangement _ _) (.cons (hfile _) (.cons (hfile _) ?_))
  show List.Forall₂ _ (if s.includeUser then _ else _) _
  cases s.includeUser with
  | false => exact .nil
  | true =>
    cases hdirectory : s.userDirectory? s.environment with
    | none =>
      have hsame : (s.arranged arrangement).userDirectory? (s.arranged arrangement).environment =
        none := hdirectory
      rw [hsame]
      exact .nil
    | some directory =>
      have hsame : (s.arranged arrangement).userDirectory? (s.arranged arrangement).environment =
        some directory := hdirectory
      rw [hsame]
      exact .cons (hfile _) .nil

theorem Sectioned.arranged (hs : s.Sectioned) (arrangement : Arrangement) :
    (s.arranged arrangement).Sectioned := by
  have hall {ls ls' : List (List (String × Value))} (h : List.Forall₂ List.Perm ls' ls)
      (hls : ∀ l ∈ ls, ∀ x : Setting, (Layer.document l).Fits x.path) :
      ∀ l ∈ ls', ∀ x : Setting, (Layer.document l).Fits x.path := by
    induction h with
    | nil => exact List.forall_mem_nil _
    | cons hfirst _ ih =>
      obtain ⟨hhead, hrest⟩ := List.forall_mem_cons.mp hls
      refine List.forall_mem_cons.mpr ⟨fun x => ?_, ih hrest⟩
      have hfits := hhead x
      obtain ⟨k, rest, hpath⟩ := x.exists_path
      rw [hpath] at hfits ⊢
      exact Layer.fits_document_perm hfirst hfits
  exact hall (s.perm_layers arrangement) hs

theorem effective_arranged (honce : s.SetsOnce) (arrangement : Arrangement) (x : Setting) :
    (s.arranged arrangement).effective x = s.effective x := by
  have hsame {ls ls' : List (List (String × Value))} (h : List.Forall₂ List.Perm ls' ls)
      (honce : ∀ layer ∈ ls, Layer.SetsOnce layer x.path) :
      ls'.findSome? (fun layer => (Layer.document layer).last? x.path) =
        ls.findSome? fun layer => (Layer.document layer).last? x.path := by
    obtain ⟨k, rest, hpath⟩ := x.exists_path
    rw [hpath] at honce ⊢
    induction h with
    | nil => rfl
    | cons hfirst _ ih =>
      obtain ⟨hhead, hrest⟩ := List.forall_mem_cons.mp honce
      rw [List.findSome?_cons, List.findSome?_cons, Layer.last?_document_perm hfirst hhead,
        ih hrest]
  rw [effective, effective, hsame (s.perm_layers arrangement) fun l hl => honce l hl x]

theorem loads_iff (hs : s.Sectioned) : s.load = .ok c ↔ s.Parses ∧ ∃ raw : Config,
    (∀ x, Setting.Gives (s.effective x) raw x) ∧ raw.settings.Valid ∧
      c = { raw with
        pluginsRoot :=
          if Path.isAbsolute raw.pluginsRoot then raw.pluginsRoot
          else Path.join s.projectDirectory raw.pluginsRoot } := by
  by_cases h : s.Parses
  · rw [load_of_parses hs h, and_iff_right h]
    simp only [← Config.convert_eq_some_iff]
    cases Config.convert s.effective with
    | none => simp
    | some raw =>
      simp only [settle_eq_ok_iff, Option.some.injEq]
      exact ⟨fun hc => ⟨raw, rfl, hc⟩, fun ⟨_, heq, hc⟩ => heq ▸ hc⟩
  · rw [load_of_not_parses h]
    simp [h]

theorem determined (hs : s.Sectioned) (hs' : s'.Sectioned)
    (hdirectory : s'.projectDirectory = s.projectDirectory) (hparses : s'.Parses ↔ s.Parses)
    (heffective : ∀ x, s'.effective x = s.effective x) : s'.load = s.load := by
  by_cases h : s.Parses
  · rw [load_of_parses hs h, load_of_parses hs' (hparses.mpr h), funext heffective]
    simp only [settle, hdirectory]
  · rw [load_of_not_parses h, load_of_not_parses (mt hparses.mp h)]

theorem precedence (hs : s.Sectioned) : s.Precedence where
  loads _ := loads_iff hs
  fails := by
    have hparses : s.Parses ↔
        ¬∃ path ∈ s.paths, ConfigFile.layer s.readToml s.files path = .error .build := by
      simp only [Parses, not_exists, not_and]
      refine forall₂_congr fun path _ => ?_
      cases h : ConfigFile.layer s.readToml s.files path with
      | ok entries => simp
      | error e => simp [layer_error h]
    rw [← not_iff_not]
    have hok : (¬∃ e, s.load = .error e) ↔ ∃ c, s.load = .ok c := by
      cases s.load <;> simp
    rw [hok]
    simp only [loads_iff hs, not_or, ← hparses]
    simp only [← Config.convert_eq_some_iff]
    constructor
    · rintro ⟨_, h, raw, hraw, hvalid, -⟩
      refine ⟨h, ?_, ?_⟩
      · rintro ⟨x, hx⟩
        exact hx raw (Config.convert_eq_some_iff.mp hraw x)
      · rintro ⟨raw', hraw', hinvalid⟩
        obtain rfl := Option.some.inj (hraw.symm.trans hraw')
        exact hinvalid hvalid
    · rintro ⟨h, hgives, hvalid⟩
      have hall (x : Setting) : ∃ c, Setting.Gives (s.effective x) c x := by
        by_contra hnone
        exact hgives ⟨x, fun c hc => hnone ⟨c, hc⟩⟩
      obtain ⟨raw, hraw⟩ := Config.exists_convert hall
      refine ⟨_, h, raw, hraw, ?_, rfl⟩
      by_contra hinvalid
      exact hvalid ⟨raw, hraw, hinvalid⟩
  determined _ hs' hdirectory hparses heffective :=
    determined hs hs' hdirectory hparses heffective
  orderless honce arrangement :=
    ⟨determined hs (hs.arranged arrangement) rfl Iff.rfl (effective_arranged honce arrangement),
      effective_arranged honce arrangement⟩

/-! ### Four sources

The user's block size is no number, the project's is no power of two, the local
file's counts; the queue depth comes from the environment and the plugins root from
the user's file. -/

namespace FourSources

def sources : ConfigSources where
  files := { entries := [
    (["home", ".config", "blockio", "config.toml"],
      .file ("[plugins]\nroot = \"mods\"\n" ++
        "[device.settings]\nblock_size = \"many\"\n").toUTF8.toList),
    (["p", "blockio.toml"],
      .file "[device.settings]\nblock_size = 1000\nqueue_depth = 0\n".toUTF8.toList),
    (["p", "blockio.local.toml"],
      .file "[device]\nunknown = [1]\nsettings.block_size = 8192\n".toUTF8.toList),
    (["home"], .directory), (["home", ".config"], .directory),
    (["home", ".config", "blockio"], .directory), (["p"], .directory)] }
  environment := [("HOME", "/home"), ("BLOCKIO_DEVICE__SETTINGS__QUEUE_DEPTH", "64")]
  projectDirectory := "/p"

theorem sectioned : sources.Sectioned := by decide +kernel

end FourSources

theorem precedence_four_sources :
    FourSources.sources.Sectioned ∧ FourSources.sources.Precedence ∧
      FourSources.sources.load.toOption = some
        { pluginsRoot := "/p/mods"
          settings := { blockSize := 8192, queueDepth := 64 } } :=
  ⟨FourSources.sectioned, precedence FourSources.sectioned, by decide +kernel⟩

end ConfigSources
end BlockTransfer
