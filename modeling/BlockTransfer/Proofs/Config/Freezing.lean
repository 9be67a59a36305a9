import BlockTransfer.Proofs.Config.Files
import BlockTransfer.Proofs.Config.Keeping
import BlockTransfer.Proofs.Config.Ranges
import BlockTransfer.Proofs.Config.Writing
import BlockTransfer.Proofs.Path.Joining
import BlockTransfer.Proofs.Text.Decoding
/-!
# Freezing a configuration

A configuration that was loaded is frozen by writing its document to the local file. The
same configuration is then loaded again, whatever the layers were: the local file has all
settings and lies over all other files, and what the environment sets is set once more, to
the same (`ConfigSources.load_frozen`). The plugins root is absolute by then, so it stays as
it is.

This is so unless the environment sets an item of a section that was a list with items: the
frozen section is a table, which has no items to keep (`ConfigSources.SparesLists`). The
entries of a layer may come in another order when the configuration is loaded again, so no
two variables may set keys that overlap (`ConfigSources.VariablesApart`). Only configurations
with a default type are considered, because a missing one is not written.

Of the printer and the reader of TOML no more is used than that a document that was printed is
read as it was (`Config.RoundTrips`).

Key definitions: `Config.RoundTrips`, `ConfigSources.below`, `ConfigSources.SparesLists`,
`ConfigSources.VariablesApart`, `ConfigSources.Rewritten`.
Key theorems: `ConfigSources.load_of_local`, `ConfigSources.load_frozen`.
-/

namespace BlockTransfer

open Layer (entriesOf itemsOf)
open ReadingRules (lenient)
open Config (Setting)

namespace Config

variable {c : Config}

/-! ### Frozen configurations -/

theorem bounded_toValue (h : c.Printable) : c.toValue.Bounded := by
  have hint {n : Nat} (hn : n < Word.signedLimit) : (Value.int n).Bounded := by
    simp only [Value.Bounded, Value.intsBetween, Bool.and_eq_true, decide_eq_true_eq]
    omega
  have htext (t : String) : (Value.text t).Bounded := by
    simp [Value.Bounded, Value.intsBetween]
  have hswitch (on : Bool) : (Value.bool on).Bounded := by
    simp [Value.Bounded, Value.intsBetween]
  have htype : (c.value .defaultType).Bounded := by
    unfold value
    cases c.defaultType with
    | none => exact Value.bounded_nil
    | some t => exact htext t
  simp only [toValue, settingsValue, Value.bounded_table_iff, List.forall_mem_cons,
    List.not_mem_nil, false_imp_iff, implies_true, and_true]
  exact ⟨htext _, ⟨htype, hint h.blockSize, hint h.queueDepth, hswitch _, hswitch _,
    hint h.threadCount⟩, htext _⟩

/-- What a printer and a reader of TOML do with the documents of configurations: what can be
written is printed, and read as it was, also with one more line break. -/
def RoundTrips (print : Value → Option String) (read : String → Option Value) : Prop :=
  ∀ c : Config, c.Printable → c.defaultType ≠ none → ∃ text, print c.toValue = some text ∧
    read text = some c.toValue ∧ read (text ++ "\n") = some c.toValue

theorem roundTrips_toml : RoundTrips Toml.render? Toml.read? := by
  intro c h htype
  obtain ⟨text, hrender, hread, hread'⟩ := read?_render? h
  rw [document_eq_toValue htype] at hread hread'
  exact ⟨text, hrender, hread, hread'⟩

variable {print : Value → Option String} {readToml : String → Option Value}

/-- What was written of a configuration is the layer of its document. -/
theorem layer_of_print (htoml : RoundTrips print readToml) (h : c.Printable)
    (htype : c.defaultType ≠ none) : ∃ text, print c.toValue = some text ∧ ∀ files path,
      ConfigFile.content? files path = some (Utf8.bytes text) ∨
        ConfigFile.content? files path = some (Utf8.bytes (text ++ "\n")) →
      ConfigFile.layer readToml files path = .ok (entriesOf c.toValue) := by
  obtain ⟨text, hprint, hread, hread'⟩ := htoml c h htype
  have hlayer {files : FileSystem} {path text : String}
      (hcontent : ConfigFile.content? files path = some (Utf8.bytes text))
      (hread : readToml text = some c.toValue) :
      ConfigFile.layer readToml files path = .ok (entriesOf c.toValue) := by
    unfold ConfigFile.layer
    rw [hcontent]
    dsimp only
    rw [Utf8.decode_bytes, hread]
    exact if_pos (bounded_toValue h)
  exact ⟨text, hprint, fun files path hcontent =>
    hcontent.elim (hlayer · hread) (hlayer · hread')⟩

end Config

namespace Layer

theorem exists_table_apply (es layer : List (String × Value)) :
    ∃ es', apply (.table es) layer = .table es' := by
  induction layer generalizing es with
  | nil => exact ⟨es, rfl⟩
  | cons e layer ih => exact ih _

/-- Layers laid over a table make a table. -/
theorem exists_table_foldl (es : List (String × Value)) (layers : List (List (String × Value))) :
    ∃ es', layers.foldl apply (.table es) = .table es' := by
  induction layers generalizing es with
  | nil => exact ⟨es, rfl⟩
  | cons layer layers ih =>
    obtain ⟨es', hes⟩ := exists_table_apply es layer
    rw [List.foldl_cons, hes]
    exact ih es'

end Layer

namespace ConfigSources

variable {s : ConfigSources} {c : Config}

theorem load_eq_ok_iff : s.load = .ok c ↔ s.Parses ∧ ∃ raw,
    Config.ofValue? lenient s.merged = some raw ∧ s.settle raw = .ok c := by
  by_cases h : s.Parses
  · rw [load, merge_of_parses h, and_iff_right h]
    cases hv : Config.ofValue? lenient s.merged with
    | none => simp [bind, Except.bind, hv]
    | some raw =>
      simp only [bind, Except.bind, hv, settle, Option.some.injEq, exists_eq_left']
      cases raw.check <;> exact Iff.rfl
  · rw [load_of_not_parses h]
    simp [h]

/-- The layers below the environment. -/
def below (s : ConfigSources) : Value :=
  (s.defaults :: s.paths.map s.fileLayer).foldl Layer.apply (.table [])

theorem merged_eq_apply (s : ConfigSources) : s.merged = Layer.apply s.below s.variableLayer := by
  rw [merged, reverse_layers, ← List.cons_append, List.foldl_append]
  rfl

theorem exists_table_below (s : ConfigSources) : ∃ es, s.below = .table es :=
  Layer.exists_table_foldl [] _

/-- The local file is the last one that counts. -/
theorem below_eq_apply (s : ConfigSources) : ∃ es, s.below =
    Layer.apply (.table es) (s.fileLayer (ConfigFile.local s.projectDirectory)) := by
  obtain ⟨lower, hpaths⟩ : ∃ lower, s.paths = lower ++ [ConfigFile.local s.projectDirectory] :=
    ⟨_, List.append_cons _ _ _⟩
  obtain ⟨es, hes⟩ :=
    Layer.exists_table_foldl [] (s.defaults :: lower.map s.fileLayer)
  refine ⟨es, ?_⟩
  rw [below, hpaths, List.map_append, ← List.cons_append, List.foldl_append, hes]
  rfl

/-- The environment sets no item of a section that the layers below it give as a list with
items. -/
def SparesLists (s : ConfigSources) : Prop :=
  ∀ e ∈ Layer.ofEnvironment s.envPrefix s.environment, Config.Opens s.below (Layer.allSteps e.1)

instance (s : ConfigSources) : Decidable s.SparesLists :=
  inferInstanceAs (Decidable (∀ e ∈ Layer.ofEnvironment s.envPrefix s.environment, _))

/-- No two variables set keys that overlap. -/
def VariablesApart (s : ConfigSources) : Prop :=
  Layer.KeysApart (Layer.ofEnvironment s.envPrefix s.environment)

instance (s : ConfigSources) : Decidable s.VariablesApart :=
  inferInstanceAs (Decidable (Layer.KeysApart _))

/-- The variables make the same in every order. -/
theorem apply_variableLayer (hapart : s.VariablesApart) (root : Value) :
    Layer.apply root s.variableLayer =
      Layer.apply root (Layer.ofEnvironment s.envPrefix s.environment) :=
  Layer.apply_perm hapart (s.arrangement.perm _ _) root

/-- The local file has new content; the other files have what they had. -/
structure Rewritten (s : ConfigSources) (files : FileSystem) (data : Bytes) : Prop where
  written : ConfigFile.content? files (ConfigFile.local s.projectDirectory) = some data
  others : ∀ path ∈ s.paths, path ≠ ConfigFile.local s.projectDirectory →
    ConfigFile.content? files path = ConfigFile.content? s.files path

/-- Writing the local file gives it its content, and leaves the other files alone if none of
them is the same file. -/
theorem rewritten_of_writeFile {files : FileSystem} {data : Bytes} {p : CanonicalPath}
    (hwrite : s.files.writeFile (ConfigFile.local s.projectDirectory) data = .ok files)
    (hopen : files.openRead (ConfigFile.local s.projectDirectory) = .ok ⟨p⟩)
    (hothers : ∀ path ∈ s.paths, path ≠ ConfigFile.local s.projectDirectory →
      ¬ConfigFile.Is files path p) : s.Rewritten files data := by
  obtain ⟨handle, hne, hbefore, rfl, hleads⟩ := FileSystem.writeFile_spec hwrite
  cases hleads.symm.trans hopen
  constructor
  · simp only [ConfigFile.content?, FileSystem.view, hopen, FileSystem.entryAt?_insert_self _ hne]
  · exact fun path hpath hlast =>
      ConfigFile.content?_insert hbefore hne (hothers path hpath hlast)

/-- Where the local file is the document of a configuration, the layers below the environment
have the values of all its settings. -/
theorem find?_below_of_local (hlocal : ConfigFile.layer s.readToml s.files
      (ConfigFile.local s.projectDirectory) = .ok (entriesOf c.toValue)) (x : Setting) :
    s.below.find? x.path = some (c.value x) := by
  obtain ⟨es, hbelow⟩ := below_eq_apply s
  have hlayer : (s.fileLayer (ConfigFile.local s.projectDirectory)).Perm (entriesOf c.toValue) := by
    rw [fileLayer, readLayer, hlocal]
    exact s.arrangement.perm _ _
  rw [hbelow]
  exact Config.find?_apply_toValue c hlayer (.table es) x

/-- A configuration that was loaded for an absolute directory has an absolute plugins root. -/
theorem isAbsolute_of_settle (hbase : Path.isAbsolute s.projectDirectory = true) {raw : Config}
    (h : s.settle raw = .ok c) : Path.isAbsolute c.pluginsRoot = true := by
  rw [(settle_eq_ok_iff.mp h).2]
  dsimp only
  split
  · assumption
  · exact Path.isAbsolute_join hbase _

/-- The same sources with other files, and their entries in another order. -/
def again (s : ConfigSources) (files : FileSystem) (arrangement : Arrangement) : ConfigSources :=
  (s.within files).arranged arrangement

/-- Loading a configuration, with any content of the files that makes the local one the
configuration's own document. -/
theorem load_of_local {files : FileSystem} {arrangement : Arrangement}
    (hbase : Path.isAbsolute s.projectDirectory = true) (h : s.load = .ok c)
    (hspares : s.SparesLists) (hapart : s.VariablesApart)
    (hparses : (s.again files arrangement).Parses) (hlocal : ConfigFile.layer s.readToml files
      (ConfigFile.local s.projectDirectory) = .ok (entriesOf c.toValue)) :
    (s.again files arrangement).load = .ok c := by
  obtain ⟨-, raw, hraw, hsettle⟩ := load_eq_ok_iff.mp h
  obtain ⟨hvalid, hc⟩ := settle_eq_ok_iff.mp hsettle
  have hroot : raw = { c with pluginsRoot := raw.pluginsRoot } := by rw [hc]
  have hsettings : c.settings = raw.settings := by rw [hc]
  obtain ⟨fs, hfs⟩ := exists_table_below s
  obtain ⟨fs', hfs'⟩ := exists_table_below (s.again files arrangement)
  rw [merged_eq_apply, apply_variableLayer hapart, hroot] at hraw
  obtain ⟨r, hr, hread⟩ := Config.ofValue?_apply
    (find?_below_of_local (s := s.again files arrangement) hlocal) hfs hfs'
    (Layer.ofEnvironment_plain _ _) hspares hraw
  refine load_eq_ok_iff.mpr ⟨hparses, { c with pluginsRoot := r }, ?_, ?_⟩
  · rw [merged_eq_apply, apply_variableLayer (s := s.again files arrangement) hapart]
    exact hread
  · -- the root that was read then is resolved again, the one that was frozen stays
    rcases hr with rfl | rfl
    · rw [← hroot]
      exact hsettle
    · exact settle_eq_ok_iff.mpr
        ⟨hsettings ▸ hvalid, by rw [if_pos (isAbsolute_of_settle hbase hsettle)]⟩

theorem within_parses {files : FileSystem} {data : Bytes} {entries : List (String × Value)}
    (h : s.Parses) (hfiles : s.Rewritten files data) (hlocal : ConfigFile.layer s.readToml files
      (ConfigFile.local s.projectDirectory) = .ok entries) : (s.within files).Parses := by
  intro path hpath
  by_cases hlast : path = ConfigFile.local s.projectDirectory
  · exact ⟨entries, hlast ▸ hlocal⟩
  · obtain ⟨lower, hlower⟩ := h path hpath
    refine ⟨lower, ?_⟩
    rw [← hlower]
    show ConfigFile.layer s.readToml files path = _
    simp only [ConfigFile.layer, hfiles.others path hpath hlast]

/-- Freezing a configuration reproduces it: its own document as the local file loads it
again, under the same environment and over the same other files, in whatever order the entries
come then. -/
theorem load_frozen {print : Value → Option String} (htoml : Config.RoundTrips print s.readToml)
    (hbase : Path.isAbsolute s.projectDirectory = true) (h : s.load = .ok c)
    (hprintable : c.Printable) (htype : c.defaultType ≠ none) (hspares : s.SparesLists)
    (hapart : s.VariablesApart) :
    ∃ text, print c.toValue = some text ∧ ∀ files data arrangement,
      data = Utf8.bytes text ∨ data = Utf8.bytes (text ++ "\n") → s.Rewritten files data →
        (s.again files arrangement).load = .ok c := by
  obtain ⟨text, hprint, hlayer⟩ := Config.layer_of_print htoml hprintable htype
  refine ⟨text, hprint, fun files data arrangement hdata hfiles => ?_⟩
  have hlocal : ConfigFile.layer s.readToml files (ConfigFile.local s.projectDirectory) =
      .ok (entriesOf c.toValue) := by
    refine hlayer files _ ?_
    rcases hdata with rfl | rfl
    · exact .inl hfiles.written
    · exact .inr hfiles.written
  have hparses : (s.within files).Parses := within_parses (load_eq_ok_iff.mp h).1 hfiles hlocal
  exact load_of_local hbase h hspares hapart hparses hlocal

/-! ### Settings as a list

The project's file gives the device settings as a list. A variable that names one of them
makes a table in both loads. One that gives the index of an item changes the list, or else
makes a list with too little in it of the table that the local file has. -/

namespace ListedSettings

def sources (localText : String) (environment : Variables) : ConfigSources where
  files := { entries := [
    (["p", "blockio.toml"],
      .file "[plugins]\nroot = \"mods\"\n[device]\nsettings = [1024, 64]\n".toUTF8.toList),
    (["p", "blockio.local.toml"], .file (Utf8.bytes localText)),
    (["p"], .directory)] }
  environment
  projectDirectory := "/p"
  includeUser := false

/-- One setting by its name, and the item of a section that is a table. -/
def named : ConfigSources :=
  sources "[lifecycle]\nlocked_buffers = \"refuse\"\n"
    [("BLOCKIO_DEVICE__SETTINGS__QUEUE_DEPTH", "32"), ("BLOCKIO_LIFECYCLE[0]", "warn")]

def namedConfig : Config :=
  { pluginsRoot := "/p/mods", settings := { queueDepth := 32 }, lockedBuffers := .warn }

def namedText : String :=
  "[plugins]\nroot = \"/p/mods\"\n\n[device]\ndefault_type = \"posix\"\n\n" ++
    "[device.settings]\nblock_size = 1048576\nqueue_depth = 32\nsingle_submit = false\n" ++
    "overlap_events = true\nthread_count = 1\n\n[lifecycle]\nlocked_buffers = \"warn\"\n"

/-- One setting by its index. -/
def indexed : ConfigSources := sources "" [("BLOCKIO_DEVICE__SETTINGS[1]", "32")]

def indexedConfig : Config :=
  { pluginsRoot := "/p/mods", settings := { blockSize := 1024, queueDepth := 32 } }

def indexedText : String :=
  "[plugins]\nroot = \"/p/mods\"\n\n[device]\ndefault_type = \"posix\"\n\n" ++
    "[device.settings]\nblock_size = 1024\nqueue_depth = 32\nsingle_submit = false\n" ++
    "overlap_events = true\nthread_count = 1\n\n[lifecycle]\nlocked_buffers = \"refuse\"\n"

/-- The sources with another local file. -/
def rewritten (s : ConfigSources) (localText : String) : ConfigSources :=
  sources localText s.environment

theorem rewritten_named :
    named.Rewritten (rewritten named namedText).files (Utf8.bytes namedText) :=
  rewritten_of_writeFile (by decide +kernel)
    (show FileSystem.openRead _ _ = .ok ⟨["p", "blockio.local.toml"]⟩ by decide +kernel)
    (by decide +kernel)

end ListedSettings

open ListedSettings

theorem load_frozen_named :
    named.load = .ok namedConfig ∧ named.SparesLists ∧ named.VariablesApart ∧
      Toml.render? namedConfig.toValue = some namedText ∧
      (rewritten named namedText).load = .ok namedConfig := by
  have hload : named.load = .ok namedConfig := by decide +kernel
  have hprintable : namedConfig.Printable := ⟨by decide, by decide, by decide⟩
  have hspares : named.SparesLists := by decide +kernel
  have hapart : named.VariablesApart := by decide +kernel
  have htext : Toml.render? namedConfig.toValue = some namedText := by decide +kernel
  obtain ⟨text, hrender, hfrozen⟩ := load_frozen Config.roundTrips_toml (by decide +kernel) hload
    hprintable (by decide) hspares hapart
  obtain rfl : namedText = text := Option.some.inj (htext.symm.trans hrender)
  exact ⟨hload, hspares, hapart, htext, hfrozen _ _ .asWritten (.inl rfl) rewritten_named⟩

/-- An item of a list that the environment sets is not kept: the frozen configuration cannot
be read. -/
theorem load_frozen_indexed :
    Path.isAbsolute indexed.projectDirectory = true ∧ indexed.load = .ok indexedConfig ∧
      indexedConfig.Printable ∧ indexedConfig.defaultType = some "posix" ∧
      indexed.VariablesApart ∧
      Toml.render? indexedConfig.toValue = some indexedText ∧
      indexed.Rewritten (rewritten indexed indexedText).files (Utf8.bytes indexedText) ∧
      (indexed.within (rewritten indexed indexedText).files).load = .error .conversion :=
  ⟨by decide +kernel, by decide +kernel, ⟨by decide, by decide, by decide⟩, rfl,
    by decide +kernel, by decide +kernel, ⟨by decide +kernel, by decide +kernel⟩, by decide +kernel⟩

end ConfigSources

end BlockTransfer
