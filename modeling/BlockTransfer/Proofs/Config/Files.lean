import BlockTransfer.Config.Layers
import BlockTransfer.Proofs.FileSystem.Apart
/-!
# The files that a configuration is read from

A configuration depends on the contents of its files alone
(`ConfigSources.load_congr`), and a file that is none of them can be written
without changing it (`ConfigSources.load_insert`).

Key definitions: `ConfigFile.Is`, `ConfigSources.Reads`.
Key theorems: `ConfigFile.content?_insert`, `ConfigSources.load_congr`,
`ConfigSources.load_insert`.
-/

namespace BlockTransfer

/-- The file at `p` is what the path of a configuration file stands for. -/
def ConfigFile.Is (files : FileSystem) (path : String) (p : CanonicalPath) : Prop :=
  files.openRead path = .ok ⟨p⟩ ∨
    files.view path = .directory ∧ files.openRead (path ++ ".toml") = .ok ⟨p⟩

instance (files : FileSystem) (path : String) (p : CanonicalPath) :
    Decidable (ConfigFile.Is files path p) :=
  inferInstanceAs (Decidable (_ ∨ _ ∧ _))

/-- The file at `p` is one of the configuration files. -/
def ConfigSources.Reads (s : ConfigSources) (p : CanonicalPath) : Prop :=
  ∃ path ∈ s.paths, ConfigFile.Is s.files path p

instance (s : ConfigSources) (p : CanonicalPath) : Decidable (s.Reads p) :=
  inferInstanceAs (Decidable (∃ path ∈ s.paths, _))

/-- A file that is set leaves the content of a configuration file alone if it is
not that file itself. -/
theorem ConfigFile.content?_insert {files : FileSystem} {p : CanonicalPath} {data : Bytes}
    {path : String} (hp : ∀ e, files.entryAt? p = some e → e.sort = .file []) (hne : p ≠ [])
    (hpath : ¬ConfigFile.Is (files.insert p (.file data)) path p) :
    content? (files.insert p (.file data)) path = content? files path := by
  obtain ⟨hopen, hsuffix⟩ := not_or.mp hpath
  have hview := FileSystem.view_insert hp hne hopen
  unfold content?
  rw [hview]
  cases hv : files.view path with
  | directory =>
    have hopen' := fun h => hsuffix ⟨hview.trans hv, h⟩
    simp only [FileSystem.read?, FileSystem.view_insert hp hne hopen']
  | _ => rfl

namespace ConfigSources

variable {s : ConfigSources} {files : FileSystem}

/-- The sources with other files. -/
def within (s : ConfigSources) (files : FileSystem) : ConfigSources := { s with files }

/-- Nothing but the contents of the configuration files counts. -/
theorem load_congr
    (h : ∀ path ∈ s.paths, ConfigFile.content? files path = ConfigFile.content? s.files path) :
    (s.within files).load = s.load := by
  have hlayers (paths : List String) (hpaths : ∀ path ∈ paths, path ∈ s.paths) :
      paths.mapM (s.within files).readLayer = paths.mapM s.readLayer := by
    induction paths with
    | nil => rfl
    | cons path paths ih =>
      obtain ⟨hfirst, hrest⟩ := List.forall_mem_cons.mp hpaths
      have hlayer : (s.within files).readLayer path = s.readLayer path := by
        show (ConfigFile.layer s.readToml files path).map _ = _
        simp only [readLayer, ConfigFile.layer, h path hfirst]
        rfl
      rw [List.mapM_cons, List.mapM_cons, hlayer, ih hrest]
  have hmerge : (s.within files).merge = s.merge := by
    show (do let layers ← s.paths.mapM (s.within files).readLayer; _) = _
    rw [hlayers s.paths fun _ hpath => hpath]
    rfl
  rw [load, hmerge]
  rfl

/-- Writing a file that is no configuration file leaves the configuration as it is. -/
theorem load_insert {p : CanonicalPath} {data : Bytes}
    (hp : ∀ e, s.files.entryAt? p = some e → e.sort = .file []) (hne : p ≠ [])
    (hreads : ¬(s.within (s.files.insert p (.file data))).Reads p) :
    (s.within (s.files.insert p (.file data))).load = s.load :=
  load_congr fun path hpath =>
    ConfigFile.content?_insert hp hne fun h => hreads ⟨path, hpath, h⟩

end ConfigSources
end BlockTransfer
