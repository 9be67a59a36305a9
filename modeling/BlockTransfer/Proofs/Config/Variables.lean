import BlockTransfer.Proofs.Config.Freezing
import BlockTransfer.Proofs.Config.Spelling
import BlockTransfer.Proofs.Config.TextSettings
import Mathlib.Data.List.Forall2
/-!
# A text from a variable and from the local file

A setting that is a text can be set by its variable, or by an entry of the local file. Both
lie over the user's and the project's file, so both give the same configuration, up to the
text itself: the type of a variable's text is guessed, so the variable acts as the entry with
the text that the guess is written as (`Layer.spelled`). With the same text they agree if and
only if the text stays as it is, or there is no configuration either way
(`ConfigSources.load_variable`).

The other variables may be any that leave the setting and its section in place
(`ConfigSources.Spares`). The entries of a layer may come in one order when the variable is
set and in another when the file is read, so no source may set keys that overlap
(`ConfigSources.SourcesApart`).

Key definitions: `ConfigSources.Spares`, `ConfigSources.SourcesApart`,
`ConfigSources.withVariable`, `ConfigSources.SameAsFile`.
Key theorems: `ConfigSources.exists_base`, `ConfigSources.load_variable`.
-/

namespace BlockTransfer

open Layer (entriesOf update allSteps spelled)
open ReadingRules (lenient textOf)

/-! ### Where the files are -/

namespace Path

variable {base base' name name' : String}

/-- A relative name ends the path that it is joined to. -/
theorem exists_toList_join (h : isAbsolute name = false) (base : String) :
    ∃ front, (join base name).toList = front ++ name.toList := by
  rw [join, h, Bool.false_or]
  split
  · exact ⟨[], rfl⟩
  · split
    · exact ⟨_, String.toList_append⟩
    · exact ⟨_, String.toList_append⟩

/-- Relative names under one base give different paths. -/
theorem join_injective (h : isAbsolute name = false) (h' : isAbsolute name' = false)
    (heq : join base name = join base name') : name = name' := by
  rw [join, join, h, h', Bool.false_or] at heq
  split at heq
  · exact heq
  · split at heq <;> exact String.append_right_inj _ |>.mp heq

/-- Names that differ counted from the end give different paths under any bases. -/
theorem join_ne_join {k : Nat} {c c' : Char} (h : isAbsolute name = false)
    (h' : isAbsolute name' = false) (hc : name.toList.reverse[k]? = some c)
    (hc' : name'.toList.reverse[k]? = some c') (hne : c ≠ c') :
    join base name ≠ join base' name' := by
  intro heq
  obtain ⟨front, hfront⟩ := exists_toList_join h base
  obtain ⟨front', hfront'⟩ := exists_toList_join h' base'
  rw [heq, hfront'] at hfront
  have hget := congrArg (fun cs => cs.reverse[k]?) hfront
  simp only [List.reverse_append] at hget
  rw [List.getElem?_append_left (List.getElem?_eq_some_iff.mp hc).1, hc,
    List.getElem?_append_left (List.getElem?_eq_some_iff.mp hc').1, hc'] at hget
  exact hne (Option.some.inj hget).symm

end Path

namespace ConfigSources

variable {s : ConfigSources} {x : TextSetting} {files : FileSystem} {data : Bytes}
  {before after : Variables} {v t : String}

/-- The paths of the files below the local one. -/
def lowerPaths (s : ConfigSources) : List String :=
  let user? := (s.userDirectory? s.environment).map ConfigFile.user
  (if s.includeUser then user?.toList else []) ++ [ConfigFile.project s.projectDirectory]

theorem paths_eq (s : ConfigSources) :
    s.paths = s.lowerPaths ++ [ConfigFile.local s.projectDirectory] :=
  List.append_cons ..

/-- No other file has the path of the local one. -/
theorem ne_local_of_mem_lowerPaths {path : String} (h : path ∈ s.lowerPaths) :
    path ≠ ConfigFile.local s.projectDirectory := by
  have hlocal : ConfigFile.localName.toList.reverse[5]? = some 'l' := by decide
  rcases List.mem_append.mp h with h | h
  · obtain ⟨base, rfl⟩ : ∃ base, path = Path.join base "config.toml" := by
      split at h
      · obtain ⟨directory, -, rfl⟩ := Option.map_eq_some_iff.mp (Option.mem_toList.mp h)
        exact ⟨_, rfl⟩
      · cases h
    exact Path.join_ne_join (k := 5) (c := 'g') (by decide) (by decide) (by decide) hlocal
      (by decide)
  · rw [List.mem_singleton.mp h]
    exact Path.join_ne_join (k := 5) (c := 'o') (by decide) (by decide) (by decide) hlocal
      (by decide)

/-! ### Loading -/

/-- The environment leaves the setting and its section in place. -/
def Spares (s : ConfigSources) (x : TextSetting) : Prop :=
  ∀ e ∈ Layer.ofEnvironment s.envPrefix s.environment, x.Apart (allSteps e.1)

instance (s : ConfigSources) (x : TextSetting) : Decidable (s.Spares x) :=
  inferInstanceAs (Decidable (∀ e ∈ Layer.ofEnvironment s.envPrefix s.environment, _))

/-- No source below the local file sets keys that overlap, and neither do the variables. -/
structure SourcesApart (s : ConfigSources) : Prop where
  files : ∀ path ∈ s.lowerPaths, Layer.KeysApart (s.fileEntries path)
  environment : s.VariablesApart

/-- The sources with one more variable, which sets the setting. -/
def withVariable (s : ConfigSources) (x : TextSetting) (v : String) (before after : Variables) :
    ConfigSources :=
  { s with environment := before ++ (x.variableName s.envPrefix, v) :: after }

/-- The layers below the local file, as they are written. -/
def lower (s : ConfigSources) : Value :=
  (builtin :: s.lowerPaths.map s.fileEntries).foldl Layer.apply (.table [])

theorem foldl_perm {ls ls' : List (List (String × Value))} (h : List.Forall₂ List.Perm ls' ls)
    (hapart : ∀ l ∈ ls, Layer.KeysApart l) (root : Value) :
    ls'.foldl Layer.apply root = ls.foldl Layer.apply root := by
  induction h generalizing root with
  | nil => rfl
  | cons hfirst _ ih =>
    obtain ⟨hhead, hrest⟩ := List.forall_mem_cons.mp hapart
    rw [List.foldl_cons, List.foldl_cons, Layer.apply_perm hhead hfirst, ih hrest]

/-- The layers below the local file make the same in every order of their entries. -/
theorem below_eq_apply_lower
    (hapart : ∀ path ∈ s.lowerPaths, Layer.KeysApart (s.fileEntries path)) :
    s.below = Layer.apply s.lower (s.fileLayer (ConfigFile.local s.projectDirectory)) := by
  have hbuiltin : Layer.KeysApart builtin := by decide
  have hfiles : List.Forall₂ List.Perm (s.lowerPaths.map s.fileLayer)
      (s.lowerPaths.map s.fileEntries) := by
    rw [List.forall₂_map_left_iff, List.forall₂_map_right_iff, List.forall₂_same]
    exact fun path _ => s.perm_fileEntries path
  have hlower : (s.defaults :: s.lowerPaths.map s.fileLayer).foldl Layer.apply (.table []) =
      s.lower :=
    foldl_perm (.cons (s.arrangement.perm _ _) hfiles)
      (List.forall_mem_cons.mpr ⟨hbuiltin, List.forall_mem_map.mpr hapart⟩) _
  rw [below, paths_eq, List.map_append, ← List.cons_append, List.foldl_append, hlower]
  rfl

/-- What is loaded depends on the text of the setting at the setting only. -/
theorem exists_base (x : TextSetting) (parses : Prop) (directory : String) (y : Value) :
    ∃ base : Except ConfigError Config, ∀ (s : ConfigSources) (w : Value) (t : String),
      (s.Parses ↔ parses) → s.projectDirectory = directory → x.Holds w s.merged y →
      textOf w = some t →
        s.load = base.map fun raw => (x.put raw t).resolvePaths directory := by
  by_cases hparses : parses
  · have hempty := x.holds_update (.text "") y
    refine ⟨(Config.ofValue? lenient (update (fun _ => .text "") x.steps y)).elim
      (.error .conversion) fun raw => raw.check.map fun _ => raw,
      fun s w t hs hdirectory hw ht => ?_⟩
    have hcheck (raw : Config) (t : String) : (x.put raw t).check = raw.check := by
      cases x <;> rfl
    rw [load, merge_of_parses (hs.mpr hparses), hdirectory]
    dsimp only [bind, Except.bind]
    rw [TextSetting.ofValue?_of_holds hempty hw rfl ht]
    cases Config.ofValue? lenient (update (fun _ => .text "") x.steps y) with
    | none => rfl
    | some raw =>
      dsimp only [Option.map_some, Option.elim_some]
      rw [hcheck]
      cases raw.check <;> rfl
  · exact ⟨.error .build, fun s w t hs _ _ _ => load_of_not_parses (mt hs.mp hparses)⟩

/-- The variable does not say where the user's directory is. -/
theorem userDirectory?_withVariable (registered? : Option String) (x : TextSetting)
    (envPrefix v : String) (before after : Variables) :
    ConfigFile.userDirectory? registered? (before ++ (x.variableName envPrefix, v) :: after) =
      ConfigFile.userDirectory? registered? (before ++ after) := by
  have hlookup {name : String} (hname : x.variableName envPrefix ≠ name) :
      (before ++ (x.variableName envPrefix, v) :: after).lookup name =
        (before ++ after).lookup name := by
    rw [List.lookup_append, List.lookup_append, List.lookup_cons,
      beq_eq_false_iff_ne.mpr hname.symm]
  obtain ⟨hhome, hxdg⟩ := x.variableName_ne envPrefix
  simp only [ConfigFile.userDirectory?, ConfigFile.home?, hlookup hhome, hlookup hxdg]

/-- The other variables do not set the setting's own key. -/
theorem key_notMem (hspares : s.Spares x) : x.sectionName ++ "." ++ x.keyName ∉
    (Layer.ofEnvironment s.envPrefix s.environment).map Prod.fst := by
  intro hmem
  obtain ⟨e, he, hkey⟩ := List.mem_map.mp hmem
  have hself := hspares e he
  rw [hkey, x.allSteps_key] at hself
  cases x <;> exact absurd hself (by decide)

/-- What the variables make, if one of them sets the setting. -/
theorem apply_withVariable (arrangement : Arrangement) (henv : s.environment = before ++ after)
    (hspares : s.Spares x) (hapart : s.VariablesApart) (root : Value) :
    Layer.apply root ((s.withVariable x v before after).arranged arrangement).variableLayer =
      Layer.apply (update (fun _ => Layer.variableValue v) x.steps root)
        (Layer.ofEnvironment s.envPrefix s.environment) := by
  have hkey := x.variableKey?_variableName s.envPrefix
  have hlayer : (Layer.ofEnvironment s.envPrefix (s.withVariable x v before after).environment).Perm
      ((_, Layer.variableValue v) :: Layer.ofEnvironment s.envPrefix (before ++ after)) :=
    Layer.perm_ofEnvironment hkey (henv ▸ key_notMem hspares) v
  rw [← henv] at hlayer
  have hkeys : Layer.KeysApart ((x.sectionName ++ "." ++ x.keyName, Layer.variableValue v) ::
      Layer.ofEnvironment s.envPrefix s.environment) :=
    List.pairwise_cons.mpr ⟨fun e he => by
      show Layer.Apart (allSteps _) _
      rw [x.allSteps_key]
      exact hspares e he, hapart⟩
  have hset : Layer.set root (x.sectionName ++ "." ++ x.keyName) (Layer.variableValue v) =
      update (fun _ => Layer.variableValue v) x.steps root := by
    rw [Layer.set_of_plain (Layer.isTable_variableValue v), x.allSteps_key]
  rw [← hset]
  exact Layer.apply_perm hkeys ((arrangement.perm .environment _).trans hlayer) root

/-- A variable sets its setting over all files, of which the local one is missing. -/
theorem holds_withVariable (arrangement : Arrangement) (henv : s.environment = before ++ after)
    (hdirectory : s.userDirectory? (s.withVariable x v before after).environment =
      s.userDirectory? s.environment)
    (hlocal : ConfigFile.content? s.files (ConfigFile.local s.projectDirectory) = none)
    (hspares : s.Spares x) (hapart : s.SourcesApart) :
    (((s.withVariable x v before after).arranged arrangement).Parses ↔ s.Parses) ∧
      x.Holds (Layer.variableValue v)
        ((s.withVariable x v before after).arranged arrangement).merged
        (Layer.apply s.lower (Layer.ofEnvironment s.envPrefix s.environment)) := by
  have hlower : ((s.withVariable x v before after).arranged arrangement).lowerPaths =
      s.lowerPaths := by
    show (if s.includeUser then
      ((s.userDirectory? (s.withVariable x v before after).environment).map
        ConfigFile.user).toList else []) ++ _ = _
    rw [hdirectory]
    rfl
  have hmissing : ((s.withVariable x v before after).arranged arrangement).fileLayer
      (ConfigFile.local s.projectDirectory) = [] := by
    have hperm := ((s.withVariable x v before after).arranged arrangement).perm_fileEntries
      (ConfigFile.local s.projectDirectory)
    have hentries : ((s.withVariable x v before after).arranged arrangement).fileEntries
        (ConfigFile.local s.projectDirectory) = [] := by
      show (ConfigFile.layer s.readToml s.files _).toOption.getD [] = []
      simp only [ConfigFile.layer, hlocal]
      rfl
    exact (hentries ▸ hperm).eq_nil
  have hbelow : ((s.withVariable x v before after).arranged arrangement).below = s.lower := by
    rw [below_eq_apply_lower (hlower ▸ hapart.files), lower, hlower]
    show Layer.apply s.lower (((s.withVariable x v before after).arranged arrangement).fileLayer
      (ConfigFile.local s.projectDirectory)) = s.lower
    rw [hmissing]
    rfl
  constructor
  · show (∀ path ∈ ((s.withVariable x v before after).arranged arrangement).paths, _) ↔ _
    rw [paths_eq, hlower]
    show _ ↔ ∀ path ∈ s.paths, _
    rw [paths_eq]
    exact Iff.rfl
  · rw [merged_eq_apply, hbelow, apply_withVariable arrangement henv hspares hapart.environment]
    exact (x.holds_update _ _).apply (Layer.ofEnvironment_plain _ _) hspares

/-- The local file sets its setting over the other files. -/
theorem holds_again (arrangement : Arrangement) (hfiles : s.Rewritten files data)
    (hread : s.readToml (Utf8.decode data) = some (x.document t))
    (hlocal : ConfigFile.content? s.files (ConfigFile.local s.projectDirectory) = none)
    (hspares : s.Spares x) (hapart : s.SourcesApart) :
    ((s.again files arrangement).Parses ↔ s.Parses) ∧
      x.Holds (.text t) (s.again files arrangement).merged
        (Layer.apply s.lower (Layer.ofEnvironment s.envPrefix s.environment)) := by
  have hlast : ConfigFile.layer s.readToml files (ConfigFile.local s.projectDirectory) =
      .ok (entriesOf (x.document t)) := by
    rw [ConfigFile.layer, hfiles.written]
    dsimp only
    rw [hread]
    exact if_pos (x.document_bounded t)
  have hothers (path : String) (hpath : path ∈ s.lowerPaths) :
      ConfigFile.layer s.readToml files path = ConfigFile.layer s.readToml s.files path := by
    have hcontent := hfiles.others path (by
      rw [paths_eq]
      exact List.mem_append_left _ hpath) (ne_local_of_mem_lowerPaths hpath)
    simp only [ConfigFile.layer, hcontent]
  constructor
  · have hmissing : ConfigFile.layer s.readToml s.files (ConfigFile.local s.projectDirectory) =
        .ok [] := by
      simp only [ConfigFile.layer, hlocal]
    show (∀ path ∈ s.paths, ∃ entries, ConfigFile.layer s.readToml files path = .ok entries) ↔
      ∀ path ∈ s.paths, ∃ entries, ConfigFile.layer s.readToml s.files path = .ok entries
    simp only [paths_eq, List.forall_mem_append, List.forall_mem_singleton, hlast, hmissing]
    exact and_congr (forall₂_congr fun path hpath => by rw [hothers path hpath])
      ⟨fun _ => ⟨_, rfl⟩, fun _ => ⟨_, rfl⟩⟩
  · have hentries (path : String) (hpath : path ∈ s.lowerPaths) :
        (s.again files arrangement).fileEntries path = s.fileEntries path := by
      show (ConfigFile.layer s.readToml files path).toOption.getD [] = _
      rw [hothers path hpath]
      rfl
    have hlower : (s.again files arrangement).lower = s.lower := by
      have hmap : s.lowerPaths.map (s.again files arrangement).fileEntries =
          s.lowerPaths.map s.fileEntries := List.map_congr_left hentries
      show (builtin :: s.lowerPaths.map (s.again files arrangement).fileEntries).foldl
        Layer.apply _ = _
      rw [hmap]
      rfl
    have hlayer : (s.again files arrangement).fileLayer (ConfigFile.local s.projectDirectory) =
        entriesOf (x.document t) := by
      have hperm := (s.again files arrangement).perm_fileEntries
        (ConfigFile.local s.projectDirectory)
      have hsingle : (s.again files arrangement).fileEntries
          (ConfigFile.local s.projectDirectory) = entriesOf (x.document t) := by
        show (ConfigFile.layer s.readToml files _).toOption.getD [] = _
        rw [hlast]
        rfl
      rw [hsingle] at hperm
      exact hperm.eq_singleton
    have hbelow : (s.again files arrangement).below =
        update (fun _ => .text t) x.steps s.lower := by
      have hapart' : ∀ path ∈ (s.again files arrangement).lowerPaths,
          Layer.KeysApart ((s.again files arrangement).fileEntries path) :=
        fun path hpath => hentries path hpath ▸ hapart.files path hpath
      rw [below_eq_apply_lower hapart', hlower]
      show Layer.apply s.lower ((s.again files arrangement).fileLayer
        (ConfigFile.local s.projectDirectory)) = _
      rw [hlayer, x.apply_document]
    rw [merged_eq_apply, hbelow,
      apply_variableLayer (s := s.again files arrangement) hapart.environment]
    exact (x.holds_update _ _).apply (Layer.ofEnvironment_plain _ _) hspares

/-- Two texts that are not both absolute paths, and differ, make configurations that differ. -/
theorem resolvePaths_put_injective {raw : Config} {directory : String}
    (ht : Path.isAbsolute t = false) (hv : Path.isAbsolute v = false)
    (h : (x.put raw t).resolvePaths directory = (x.put raw v).resolvePaths directory) : t = v := by
  cases x with
  | pluginsRoot =>
    have hroot {t : String} (ht : Path.isAbsolute t = false) :
        ((TextSetting.pluginsRoot.put raw t).resolvePaths directory).pluginsRoot =
          Path.join directory t := by
      show (Config.resolvePaths { raw with pluginsRoot := t } directory).pluginsRoot = _
      rw [Config.resolvePaths, if_neg (by simp [ht])]
    have hjoin := congrArg Config.pluginsRoot h
    rw [hroot ht, hroot hv] at hjoin
    exact Path.join_injective ht hv hjoin
  | defaultType =>
    have htype (t : String) :
        ((TextSetting.defaultType.put raw t).resolvePaths directory).defaultType = some t := by
      unfold Config.resolvePaths
      split <;> rfl
    have hsome := congrArg Config.defaultType h
    rw [htype, htype] at hsome
    exact Option.some.inj hsome

/-- How setting a text by its variable stands to setting it by the local file, if the
variable with the text `v` makes the outcome. The entries may come in any order when the file
is read. -/
structure SameAsFile (s : ConfigSources) (x : TextSetting) (v : String)
    (outcome : Except ConfigError Config) : Prop where
  /-- There is a local file that sets the setting to the text. -/
  written : s.readToml = Toml.read? →
    s.readToml (Utf8.decode (Utf8.bytes (x.fileText v))) = some (x.document v)
  /-- The variable acts as a local file that sets what the guess is written as. -/
  acts : ∀ files data arrangement, s.Rewritten files data →
    s.readToml (Utf8.decode data) = some (x.document (spelled v)) →
      outcome = (s.again files arrangement).load
  /-- With the text itself both agree if it stays as it is, and otherwise if neither makes a
  configuration. -/
  agrees : ∀ files data arrangement, s.Rewritten files data →
    s.readToml (Utf8.decode data) = some (x.document v) →
      (outcome = (s.again files arrangement).load ↔
        spelled v = v ∨ ∃ e, (s.again files arrangement).load = .error e)
  /-- A text stays as it is if it is written as what it is guessed to be. -/
  stays : spelled v = v ↔
    (∀ b, Layer.variableValue v = .bool b → v = if b then "true" else "false") ∧
    (∀ i, Layer.variableValue v = .int i → v = toString i) ∧
    ∀ z, Layer.variableValue v = .float z → v = z.render

/-- A text that is set by its variable, over any user's and project's files and among other
variables, makes the configuration that the local file makes with the text that the guess
about it is written as. -/
theorem load_variable (x : TextSetting) (henv : s.environment = before ++ after)
    (hlocal : ConfigFile.content? s.files (ConfigFile.local s.projectDirectory) = none)
    (hspares : s.Spares x) (hapart : s.SourcesApart) (v : String)
    (hdirectory : s.userDirectory? (s.withVariable x v before after).environment =
      s.userDirectory? s.environment) (arrangement : Arrangement) :
    s.SameAsFile x v ((s.withVariable x v before after).arranged arrangement).load := by
  obtain ⟨base, hbase⟩ := exists_base x s.Parses s.projectDirectory
    (Layer.apply s.lower (Layer.ofEnvironment s.envPrefix s.environment))
  obtain ⟨hparses, hholds⟩ :=
    holds_withVariable arrangement henv hdirectory hlocal hspares hapart
  have houtcome := hbase _ _ _ hparses rfl hholds (Layer.textOf_variableValue v)
  have hfile {files : FileSystem} {data : Bytes} {t : String} (arrangement : Arrangement)
      (hfiles : s.Rewritten files data)
      (hread : s.readToml (Utf8.decode data) = some (x.document t)) :
      (s.again files arrangement).load =
        base.map fun raw => (x.put raw t).resolvePaths s.projectDirectory := by
    obtain ⟨hparses, hholds⟩ :=
      holds_again arrangement hfiles hread hlocal hspares hapart
    exact hbase _ _ _ hparses rfl hholds rfl
  refine ⟨fun htoml => ?_, fun files data arrangement hfiles hread => ?_,
    fun files data arrangement hfiles hread => ?_, Layer.spelled_eq_self_iff⟩
  · rw [htoml, Utf8.decode_bytes, x.read?_fileText]
  · rw [houtcome, hfile arrangement hfiles hread]
  · rw [houtcome, hfile arrangement hfiles hread]
    cases base with
    | error e => exact ⟨fun _ => .inr ⟨e, rfl⟩, fun _ => rfl⟩
    | ok raw =>
      have hsame : (Except.ok ((x.put raw (spelled v)).resolvePaths s.projectDirectory) :
          Except ConfigError Config) = .ok ((x.put raw v).resolvePaths s.projectDirectory) ↔
            spelled v = v := by
        refine ⟨fun h => ?_, fun h => by rw [h]⟩
        by_contra hne
        obtain ⟨hv, ht⟩ := Layer.isAbsolute_of_spelled_ne hne
        exact hne (resolvePaths_put_injective ht hv (Except.ok.inj h))
      refine hsame.trans ⟨.inl, fun h => h.resolve_right ?_⟩
      rintro ⟨e, ⟨⟩⟩

/-! ### Numbers with leading zeros

The user's file and the project's file name device types, and there are other variables. A
type of digits is guessed to be a number, and its leading zeros are lost. -/

namespace LeadingZeros

/-- The entries of the file system besides the local file. -/
def entries : List (CanonicalPath × Entry) := [
  (["home", ".config", "blockio", "config.toml"],
    .file "[device]\ndefault_type = \"gds\"\n".toUTF8.toList),
  (["p", "blockio.toml"],
    .file "[plugins]\nroot = \"mods\"\n[device]\ndefault_type = \"uring\"\n".toUTF8.toList),
  (["home"], .directory), (["home", ".config"], .directory),
  (["home", ".config", "blockio"], .directory), (["p"], .directory)]

def earlier : Variables := [("HOME", "/home"), ("BLOCKIO_DEVICE__SETTINGS__QUEUE_DEPTH", "64")]

def later : Variables := [("BLOCKIO_LIFECYCLE__LOCKED_BUFFERS", "warn")]

def sources : ConfigSources where
  files := { entries }
  environment := earlier ++ later
  projectDirectory := "/p"

/-- The files with a local one that sets the default type. -/
def withLocal (text : String) : FileSystem :=
  { entries := (["p", "blockio.local.toml"],
      .file (Utf8.bytes (TextSetting.defaultType.fileText text))) :: entries }

/-- What is loaded, but for the default type. -/
def loaded (defaultType : String) : Config :=
  { pluginsRoot := "/p/mods", defaultType := some defaultType, settings := { queueDepth := 64 },
    lockedBuffers := .warn }

theorem sourcesApart : sources.SourcesApart where
  files := by decide +kernel
  environment := by decide +kernel

end LeadingZeros

open LeadingZeros

theorem load_variable_among_others :
    (sources.withVariable .defaultType "007" earlier later).load = .ok (loaded "7") ∧
      sources.SourcesApart ∧ ∀ arrangement, sources.SameAsFile .defaultType "007"
        ((sources.withVariable .defaultType "007" earlier later).arranged arrangement).load :=
  ⟨by decide +kernel, sourcesApart, load_variable .defaultType rfl (by decide +kernel)
    (by decide +kernel) sourcesApart "007"
    (userDirectory?_withVariable none .defaultType "BLOCKIO" "007" earlier later)⟩

/-- The variable and the local file with the same text make different configurations. -/
theorem load_variable_ne_load_file :
    ConfigFile.content? sources.files (ConfigFile.local sources.projectDirectory) = none ∧
      sources.Rewritten (withLocal "007")
        (Utf8.bytes (TextSetting.defaultType.fileText "007")) ∧
      Toml.read? (TextSetting.defaultType.fileText "007") =
        some (TextSetting.defaultType.document "007") ∧
      (sources.withVariable .defaultType "007" earlier later).load = .ok (loaded "7") ∧
      (sources.within (withLocal "007")).load = .ok (loaded "007") :=
  ⟨by decide +kernel, ⟨by decide +kernel, by decide +kernel⟩,
    TextSetting.read?_fileText .defaultType "007", by decide +kernel, by decide +kernel⟩

end ConfigSources
end BlockTransfer
