import BlockTransfer.Proofs.FileSystem.Entries
/-!
# Where paths lead while files are written and made

A walk looks at what the entries on its way are, and never at the bytes of a
file (`FileSystem.resolve_congr`). So it ends at the same place after bytes are
written, and a walk that succeeded does so again after more files are made
(`FileSystem.openRead_of_extends`); a walk that ended at a missing name ends at
the file that was made there.

How a run of names ends well is said by a relation with one constructor for each
thing that can become of a name (`FileSystem.Runs`). Two walks of one path are
compared by induction on it; what is so for every run of names is so for paths
(`FileSystem.Mirrors.resolve`).

Key definitions: `Entry.sort`, `FileSystem.SameSorts`, `FileSystem.Extends`,
`FileSystem.Runs`, `FileSystem.Mirrors`.
Key theorems: `FileSystem.openRead_congr`, `FileSystem.openRead_of_extends`,
`FileSystem.create_spec`.
-/

namespace BlockTransfer

/-- What an entry is, without the bytes of a file. -/
def Entry.sort : Entry → Entry
  | file _ => file []
  | e => e

theorem Entry.sort_eq_file_iff (e : Entry) : e.sort = .file [] ↔ ∃ data, e = .file data := by
  cases e <;> simp [sort]

namespace FileSystem

/-- Two file systems differ at most in the bytes of their files. -/
structure SameSorts (fs fs' : FileSystem) : Prop where
  cwd : fs.cwd = fs'.cwd
  sort : ∀ p, (fs.entryAt? p).map Entry.sort = (fs'.entryAt? p).map Entry.sort

/-- What one file system holds the other holds too, up to the bytes of files, and
what else that one holds are files. -/
structure Extends (fs' fs : FileSystem) : Prop where
  cwd : fs.cwd = fs'.cwd
  sort : ∀ p e, fs.entryAt? p = some e → (fs'.entryAt? p).map Entry.sort = some e.sort
  made : ∀ p e, fs.entryAt? p = none → fs'.entryAt? p = some e → e.sort = .file []

variable {fs fs' fs'' : FileSystem}

theorem SameSorts.refl (fs : FileSystem) : fs.SameSorts fs := ⟨rfl, fun _ => rfl⟩

theorem SameSorts.symm (h : fs.SameSorts fs') : fs'.SameSorts fs :=
  ⟨h.cwd.symm, fun p => (h.sort p).symm⟩

theorem SameSorts.trans (h : fs.SameSorts fs') (h' : fs'.SameSorts fs'') : fs.SameSorts fs'' :=
  ⟨h.cwd.trans h'.cwd, fun p => (h.sort p).trans (h'.sort p)⟩

theorem SameSorts.extends (h : fs.SameSorts fs') : fs'.Extends fs := by
  refine ⟨h.cwd, fun p e he => by rw [← h.sort p, he]; rfl, fun p e hnone he => ?_⟩
  have hs := h.sort p
  rw [hnone, he] at hs
  cases hs

theorem Extends.trans (h : fs''.Extends fs') (h' : fs'.Extends fs) : fs''.Extends fs := by
  refine ⟨h'.cwd.trans h.cwd, fun p e he => ?_, fun p e hnone he => ?_⟩
  · obtain ⟨e', he', hs⟩ := Option.map_eq_some_iff.mp (h'.sort p e he)
    rw [h.sort p e' he', hs]
  · cases he' : fs'.entryAt? p with
    | none => exact h.made p e he' he
    | some e' =>
      have hs := h.sort p e' he'
      rw [he, Option.map_some, h'.made p e' hnone he'] at hs
      exact Option.some.inj hs

/-- Setting a file where no directory or link is keeps all there was. -/
theorem extends_insert {p : CanonicalPath} (data : Bytes)
    (h : ∀ e, fs.entryAt? p = some e → e.sort = .file []) :
    (fs.insert p (.file data)).Extends fs := by
  refine ⟨rfl, fun q e he => ?_, fun q e hnone he => ?_⟩
  · rw [entryAt?_insert]
    split
    · rename_i hq
      rw [h e (hq.1 ▸ he)]
      rfl
    · rw [he]
      rfl
  · rw [entryAt?_insert] at he
    split at he
    · cases he
      rfl
    · rw [hnone] at he
      cases he

theorem sameSorts_insert {p : CanonicalPath} (data : Bytes)
    (h : ∃ old, fs.entryAt? p = some (.file old)) : (fs.insert p (.file data)).SameSorts fs := by
  obtain ⟨old, hold⟩ := h
  refine ⟨rfl, fun q => ?_⟩
  rw [entryAt?_insert]
  split
  · rename_i hq
    rw [hq.1, hold]
    rfl
  · rfl

/-- The same file set in both keeps the likeness. -/
theorem SameSorts.insert (h : fs.SameSorts fs') (p : CanonicalPath) {e e' : Entry}
    (he : e.sort = e'.sort) : (fs.insert p e).SameSorts (fs'.insert p e') := by
  refine ⟨h.cwd, fun q => ?_⟩
  rw [entryAt?_insert, entryAt?_insert]
  split
  · simp [he]
  · exact h.sort q

/-! ### Walks look at sorts alone -/

theorem steps_congr (h : fs.SameSorts fs') (purpose : Purpose) : ∀ (rest : List String)
    (cur : CanonicalPath), fs.steps purpose cur rest = fs'.steps purpose cur rest
  | [], _ => rfl
  | name :: rest, cur => by
    have hs := h.sort (cur ++ [name])
    unfold steps
    rw [steps_congr h purpose rest cur, steps_congr h purpose rest cur.dropLast,
      steps_congr h purpose rest (cur ++ [name])]
    cases hx : fs.entryAt? (cur ++ [name]) with
    | none =>
      cases hx' : fs'.entryAt? (cur ++ [name]) with
      | none => rfl
      | some e' => simp [hx, hx'] at hs
    | some e =>
      cases hx' : fs'.entryAt? (cur ++ [name]) with
      | none => simp [hx, hx'] at hs
      | some e' => cases e <;> cases e' <;> simp [hx, hx', Entry.sort] at hs <;> simp [hs]

theorem walk_congr (h : fs.SameSorts fs') (purpose : Purpose) : ∀ (links : Nat)
    (cur : CanonicalPath) (rest : List String),
    fs.walk purpose links cur rest = fs'.walk purpose links cur rest := by
  intro links
  induction links with
  | zero =>
    intro cur rest
    rw [walk, walk, steps_congr h]
  | succ n ih =>
    intro cur rest
    rw [walk, walk, steps_congr h]
    simp only [ih]

theorem resolve_congr (h : fs.SameSorts fs') (purpose : Purpose) (path : String) :
    fs.resolve purpose path = fs'.resolve purpose path := by
  unfold resolve
  rw [walk_congr h, h.cwd]

theorem openRead_congr (h : fs.SameSorts fs') (path : String) :
    fs.openRead path = fs'.openRead path := by
  unfold openRead
  rw [resolve_congr h]

/-! ### How a run of names ends -/

/-- A name that is looked up in a directory: it is neither empty nor dots, not too
long, and no directory is asked for where a file is to be made. -/
structure Looks (purpose : Purpose) (name : String) (rest : List String) : Prop where
  stays : ¬(name.isEmpty || name == ".") = true
  climbs : ¬(name == "..") = true
  slash : ¬(purpose = .create ∧ rest = [""])
  length : ¬maxName < name.utf8ByteSize

/-- A run of names that ends well, name by name. -/
inductive Runs (fs : FileSystem) (purpose : Purpose) :
    CanonicalPath → List String → Stop → Prop where
  | here {cur} : Runs fs purpose cur [] (.found (.directory cur))
  | stay {cur name rest s} (dot : (name.isEmpty || name == ".") = true)
      (run : Runs fs purpose cur rest s) : Runs fs purpose cur (name :: rest) s
  | climb {cur name rest s} (stays : ¬(name.isEmpty || name == ".") = true)
      (dots : (name == "..") = true) (run : Runs fs purpose cur.dropLast rest s) :
      Runs fs purpose cur (name :: rest) s
  | enter {cur name rest s} (looks : Looks purpose name rest)
      (entry : fs.entryAt? (cur ++ [name]) = some .directory)
      (run : Runs fs purpose (cur ++ [name]) rest s) : Runs fs purpose cur (name :: rest) s
  | file {cur name data} (looks : Looks purpose name [])
      (entry : fs.entryAt? (cur ++ [name]) = some (.file data)) :
      Runs fs purpose cur [name] (.found (.file (cur ++ [name])))
  | unlinked {cur name target} (looks : Looks purpose name [])
      (entry : fs.entryAt? (cur ++ [name]) = some (.link target)) (wanted : purpose = .unlink) :
      Runs fs purpose cur [name] (.found (.link (cur ++ [name])))
  | link {cur name target rest} (looks : Looks purpose name rest)
      (entry : fs.entryAt? (cur ++ [name]) = some (.link target))
      (follows : ¬(rest.isEmpty && purpose == .unlink) = true) :
      Runs fs purpose cur (name :: rest) (.link cur target rest)
  | absent {cur name} (looks : Looks purpose name [])
      (entry : fs.entryAt? (cur ++ [name]) = none) (wanted : purpose = .create) :
      Runs fs purpose cur [name] (.found (.absent (cur ++ [name])))

section Runs

variable {purpose : Purpose} {cur : CanonicalPath} {rest : List String} {s : Stop}

theorem Looks.steps {name : String} (h : Looks purpose name rest) (fs : FileSystem)
    (cur : CanonicalPath) :
    fs.steps purpose cur (name :: rest) =
      match fs.entryAt? (cur ++ [name]) with
      | some .directory => fs.steps purpose (cur ++ [name]) rest
      | some (.file _) =>
        if rest.isEmpty then .ok (.found (.file (cur ++ [name]))) else .error .notADirectory
      | some (.link target) =>
        if rest.isEmpty && purpose == .unlink then .ok (.found (.link (cur ++ [name])))
        else .ok (.link cur target rest)
      | none =>
        if rest.isEmpty then
          if purpose = .create then .ok (.found (.absent (cur ++ [name]))) else .error .notFound
        else .error .notFound := by
  rw [FileSystem.steps, if_neg h.stays, if_neg h.climbs]
  exact (if_neg h.slash).trans (if_neg h.length)

theorem runs_of_steps (h : fs.steps purpose cur rest = .ok s) : fs.Runs purpose cur rest s := by
  fun_induction steps fs purpose cur rest with
  | case1 =>
    cases h
    exact .here
  | case2 cur name rest dot ih => exact .stay dot (ih h)
  | case3 cur name rest stays dots ih => exact .climb stays dots (ih h)
  | case6 cur name rest stays climbs slash length entry ih =>
    exact .enter ⟨stays, climbs, slash, length⟩ entry (ih h)
  | case7 cur name rest stays climbs slash length data entry last =>
    cases h
    obtain rfl := List.isEmpty_iff.mp last
    exact .file ⟨stays, climbs, slash, length⟩ entry
  | case9 cur name rest stays climbs slash length target entry last =>
    cases h
    obtain ⟨last, wanted⟩ := Bool.and_eq_true_iff.mp last
    obtain rfl := List.isEmpty_iff.mp last
    exact .unlinked ⟨stays, climbs, slash, length⟩ entry (eq_of_beq wanted)
  | case10 cur name rest stays climbs slash length target entry follows =>
    cases h
    exact .link ⟨stays, climbs, slash, length⟩ entry follows
  | case11 cur name rest stays climbs slash length entry last wanted =>
    cases h
    obtain rfl := List.isEmpty_iff.mp last
    exact .absent ⟨stays, climbs, slash, length⟩ entry wanted
  | _ => cases h

theorem Runs.steps_eq (h : fs.Runs purpose cur rest s) : fs.steps purpose cur rest = .ok s := by
  induction h with
  | here => rfl
  | stay dot _ ih => rw [steps, if_pos dot, ih]
  | climb stays dots _ ih => rw [steps, if_neg stays, if_pos dots, ih]
  | enter looks entry _ ih =>
    rw [looks.steps, entry]
    exact ih
  | file looks entry =>
    rw [looks.steps, entry]
    rfl
  | unlinked looks entry wanted =>
    subst wanted
    rw [looks.steps, entry]
    rfl
  | link looks entry follows =>
    rw [looks.steps, entry]
    exact if_neg follows
  | absent looks entry wanted =>
    subst wanted
    rw [looks.steps, entry]
    rfl

end Runs

/-! ### What a walk ends at -/

/-- What the entry is where a walk ends. A directory is not looked up. -/
def Found.Fits (fs : FileSystem) : Found → Prop
  | .directory _ => True
  | .file p => p ≠ [] ∧ ∃ data, fs.entryAt? p = some (.file data)
  | .link _ => True
  | .absent p => p ≠ [] ∧ fs.entryAt? p = none

theorem Runs.fits {purpose : Purpose} {cur : CanonicalPath} {rest : List String} {s : Stop}
    (h : fs.Runs purpose cur rest s) : ∀ {f}, s = .found f → f.Fits fs := by
  induction h with
  | here =>
    rintro _ ⟨⟩
    trivial
  | stay _ _ ih => exact ih
  | climb _ _ _ ih => exact ih
  | enter _ _ _ ih => exact ih
  | file _ entry =>
    rintro _ ⟨⟩
    exact ⟨by simp, _, entry⟩
  | unlinked =>
    rintro _ ⟨⟩
    trivial
  | link => nofun
  | absent _ entry =>
    rintro _ ⟨⟩
    exact ⟨by simp, entry⟩

/-- A walk that creates or finds does not end at a link. -/
theorem Runs.ne_link {purpose : Purpose} (hp : purpose ≠ .unlink) {cur : CanonicalPath}
    {rest : List String} {s : Stop} (h : fs.Runs purpose cur rest s) (p : CanonicalPath) :
    s ≠ .found (.link p) := by
  induction h with
  | stay _ _ ih => exact ih
  | climb _ _ _ ih => exact ih
  | enter _ _ _ ih => exact ih
  | unlinked _ _ wanted => exact absurd wanted hp
  | _ => nofun

/-- A walk that ends at an entry runs along names up to it, or up to a link from
where it goes on. -/
theorem walk_induction {purpose : Purpose} {f : Found}
    {motive : Nat → CanonicalPath → List String → Prop}
    (found : ∀ links cur rest, fs.steps purpose cur rest = .ok (.found f) → motive links cur rest)
    (link : ∀ n cur rest directory target after,
      fs.steps purpose cur rest = .ok (.link directory target after) →
      motive n (if Path.isAbsolute target then [] else directory) (names target ++ after) →
      motive (n + 1) cur rest) :
    ∀ (links : Nat) (cur : CanonicalPath) (rest : List String),
      fs.walk purpose links cur rest = .ok f → motive links cur rest
  | links, cur, rest, h => by
    unfold walk at h
    split at h
    · cases h
    · rename_i hfound
      cases h
      exact found _ _ _ hfound
    · rename_i hlink
      match links, h with
      | n + 1, h => exact link _ _ _ _ _ _ hlink (walk_induction found link n _ _ h)

theorem walk_fits {purpose : Purpose} (hp : purpose ≠ .unlink) (links : Nat) (cur : CanonicalPath)
    (rest : List String) {f : Found} (h : fs.walk purpose links cur rest = .ok f) :
    f.Fits fs ∧ ∀ p, f ≠ .link p := by
  refine walk_induction (motive := fun _ _ _ => f.Fits fs ∧ ∀ p, f ≠ .link p) ?_ ?_ _ _ _ h
  · intro _ cur rest hfound
    have hruns := runs_of_steps hfound
    exact ⟨hruns.fits rfl, fun p hf => hruns.ne_link hp p (congrArg Stop.found hf)⟩
  · exact fun _ _ _ _ _ _ _ ih => ih

theorem resolve_fits {purpose : Purpose} (hp : purpose ≠ .unlink) {path : String} {f : Found}
    (h : fs.resolve purpose path = .ok f) : f.Fits fs ∧ ∀ p, f ≠ .link p := by
  unfold resolve at h
  split at h
  · cases h
  split at h
  · cases h
  split at h
  · cases h
  exact walk_fits hp _ _ _ h

/-! ### From runs of names to paths -/

/-- Where a run of names ends at an entry that `fits`, the same run ends as `ends`
tells, be it among other files or for another purpose; and where it ends before a
link, the other one does too. -/
structure Mirrors (fs fs' : FileSystem) (purpose purpose' : Purpose) (fits : Found → Prop)
    (ends : Found → Except OsErrorKind Found) : Prop where
  cwd : fs.cwd = fs'.cwd
  found : ∀ rest cur f, fits f → fs.steps purpose cur rest = .ok (.found f) →
    fs'.steps purpose' cur rest = (ends f).map .found
  link : ∀ rest cur directory target after,
    fs.steps purpose cur rest = .ok (.link directory target after) →
      fs'.steps purpose' cur rest = .ok (.link directory target after)

section Mirrors

variable {purpose purpose' : Purpose} {fits : Found → Prop}
  {ends : Found → Except OsErrorKind Found} {f : Found}

/-- The links that a walk follows lead the other one the same way. -/
theorem Mirrors.walk (h : Mirrors fs fs' purpose purpose' fits ends) (hf : fits f) :
    ∀ (links : Nat) (cur : CanonicalPath) (rest : List String),
      fs.walk purpose links cur rest = .ok f → fs'.walk purpose' links cur rest = ends f := by
  refine walk_induction ?_ ?_
  · intro links cur rest hfound
    unfold FileSystem.walk
    rw [h.found rest cur f hf hfound]
    cases ends f <;> rfl
  · intro n cur rest directory target after hlink ih
    rw [FileSystem.walk, h.link rest cur _ _ _ hlink]
    exact ih

theorem Mirrors.resolve (h : Mirrors fs fs' purpose purpose' fits ends) {path : String}
    (hf : fits f) (hr : fs.resolve purpose path = .ok f) :
    fs'.resolve purpose' path = ends f := by
  unfold FileSystem.resolve at hr ⊢
  split at hr
  · cases hr
  rename_i h1
  split at hr
  · cases hr
  rename_i h2
  split at hr
  · cases hr
  rename_i h3
  rw [if_neg h1, if_neg h2, if_neg h3, ← h.cwd]
  exact h.walk hf _ _ _ hr

end Mirrors

/-! ### Walks that succeed do so again -/

/-- Where a walk ends once there are more files. -/
def Found.among (fs : FileSystem) : Found → Found
  | .absent p => if (fs.entryAt? p).isSome then .file p else .absent p
  | f => f

/-- Where a run of names ends once there are more files. -/
def Stop.among (fs : FileSystem) : Stop → Stop
  | .found f => .found (f.among fs)
  | s => s

theorem Extends.directory (hE : fs'.Extends fs) {p : CanonicalPath}
    (he : fs.entryAt? p = some .directory) : fs'.entryAt? p = some .directory := by
  obtain ⟨e', he', hs⟩ := Option.map_eq_some_iff.mp (hE.sort _ _ he)
  cases e' <;> simp only [Entry.sort, reduceCtorEq] at hs
  exact he'

theorem Extends.link (hE : fs'.Extends fs) {p : CanonicalPath} {target : String}
    (he : fs.entryAt? p = some (.link target)) : fs'.entryAt? p = some (.link target) := by
  obtain ⟨e', he', hs⟩ := Option.map_eq_some_iff.mp (hE.sort _ _ he)
  cases e' <;> simp only [Entry.sort, reduceCtorEq, Entry.link.injEq] at hs
  exact hs ▸ he'

theorem Extends.file (hE : fs'.Extends fs) {p : CanonicalPath} {data : Bytes}
    (he : fs.entryAt? p = some (.file data)) : ∃ data', fs'.entryAt? p = some (.file data') := by
  obtain ⟨e', he', hs⟩ := Option.map_eq_some_iff.mp (hE.sort _ _ he)
  obtain ⟨data', rfl⟩ := (Entry.sort_eq_file_iff e').mp hs
  exact ⟨data', he'⟩

theorem Runs.of_extends (hE : fs'.Extends fs) {purpose : Purpose} (hp : purpose ≠ .unlink)
    {cur : CanonicalPath} {rest : List String} {s : Stop} (h : fs.Runs purpose cur rest s) :
    fs'.Runs purpose cur rest (s.among fs') := by
  induction h with
  | here => exact .here
  | stay dot _ ih => exact .stay dot ih
  | climb stays dots _ ih => exact .climb stays dots ih
  | enter looks entry _ ih => exact .enter looks (hE.directory entry) ih
  | file looks entry =>
    obtain ⟨data, he⟩ := hE.file entry
    exact .file looks he
  | unlinked _ _ wanted => exact absurd wanted hp
  | link looks entry follows => exact .link looks (hE.link entry) follows
  | @absent cur name looks entry wanted =>
    -- the name is still missing, or a file was made there
    cases he : fs'.entryAt? (cur ++ [name]) with
    | none =>
      simp only [Stop.among, Found.among, he, Option.isSome_none, Bool.false_eq_true, ↓reduceIte]
      exact .absent looks he wanted
    | some e =>
      obtain ⟨data, rfl⟩ := (Entry.sort_eq_file_iff e).mp (hE.made _ _ entry he)
      simp only [Stop.among, Found.among, he, Option.isSome_some, ↓reduceIte]
      exact .file looks he

theorem mirrors_of_extends (hE : fs'.Extends fs) {purpose : Purpose} (hp : purpose ≠ .unlink) :
    Mirrors fs fs' purpose purpose (fun _ => True) fun f => .ok (f.among fs') where
  cwd := hE.cwd
  found _ _ _ _ h := ((runs_of_steps h).of_extends hE hp).steps_eq
  link _ _ _ _ _ h := ((runs_of_steps h).of_extends hE hp).steps_eq

theorem resolve_of_extends (hE : fs'.Extends fs) {purpose : Purpose} (hp : purpose ≠ .unlink)
    {path : String} {f : Found} (h : fs.resolve purpose path = .ok f) :
    fs'.resolve purpose path = .ok (f.among fs') :=
  (mirrors_of_extends hE hp).resolve trivial h

/-! ### Walks that find and walks that create -/

/-- What a walk that has to find its entry comes to, given where one ends that
may create it. -/
def Found.sought : Found → Except OsErrorKind Found
  | .absent _ => .error .notFound
  | f => .ok f

/-- What a run of names comes to in a walk that has to find its entry. -/
def Stop.sought : Stop → Except OsErrorKind Stop
  | .found f => f.sought.map .found
  | s => .ok s

theorem Looks.find {name : String} {rest : List String} (h : Looks .create name rest) :
    Looks .find name rest :=
  { h with slash := by simp }

theorem Runs.find {cur : CanonicalPath} {rest : List String} {s : Stop}
    (h : fs.Runs .create cur rest s) : fs.steps .find cur rest = s.sought := by
  induction h with
  | here => rfl
  | stay dot _ ih => rw [steps, if_pos dot, ih]
  | climb stays dots _ ih => rw [steps, if_neg stays, if_pos dots, ih]
  | enter looks entry _ ih =>
    rw [looks.find.steps, entry]
    exact ih
  | file looks entry =>
    rw [looks.find.steps, entry]
    rfl
  | unlinked _ _ wanted => cases wanted
  | link looks entry =>
    rw [looks.find.steps, entry]
    exact if_neg (by simp)
  | absent looks entry =>
    rw [looks.find.steps, entry]
    rfl

theorem mirrors_find (fs : FileSystem) :
    Mirrors fs fs .create .find (fun _ => True) Found.sought where
  cwd := rfl
  found _ _ _ _ h := (runs_of_steps h).find
  link _ _ _ _ _ h := (runs_of_steps h).find

theorem resolve_find {path : String} {f : Found} (h : fs.resolve .create path = .ok f) :
    fs.resolve .find path = f.sought :=
  (mirrors_find fs).resolve trivial h

theorem openRead_eq {path : String} {h : Handle} (ho : fs.openRead path = .ok h) :
    ∃ f, fs.resolve .find path = .ok f ∧ (f = .directory h.at_ ∨ f = .file h.at_) := by
  unfold openRead at ho
  split at ho
  · cases ho
  · rename_i p hp
    cases ho
    exact ⟨_, hp, .inl rfl⟩
  · rename_i p hp
    cases ho
    exact ⟨_, hp, .inr rfl⟩
  · rename_i p hp
    exact absurd rfl ((resolve_fits (by decide) hp).2 p)
  · cases ho

/-- A path that leads somewhere leads there after more files are made. -/
theorem openRead_of_extends (hE : fs'.Extends fs) {path : String} {h : Handle}
    (ho : fs.openRead path = .ok h) : fs'.openRead path = .ok h := by
  obtain ⟨f, hf, hcase⟩ := openRead_eq ho
  unfold openRead
  rw [resolve_of_extends hE (by decide) hf]
  rcases hcase with rfl | rfl <;> rfl

/-! ### Making a file -/

/-- What making a file comes to: an empty file is set where a file or nothing
was, and the path leads there from then on. -/
structure Created (fs : FileSystem) (path : String) (h : Handle) (fs' : FileSystem) : Prop where
  ne_nil : h.at_ ≠ []
  files : fs' = fs.insert h.at_ (.file [])
  before : ∀ e, fs.entryAt? h.at_ = some e → e.sort = .file []
  leads : ∀ {fs'' : FileSystem}, fs''.Extends fs' → fs''.openRead path = .ok h

theorem create_spec {path : String} {h : Handle} (hc : fs.create path = .ok (h, fs')) :
    fs.Created path h fs' := by
  have key : ∀ {f : Found} {p : CanonicalPath}, fs.resolve .create path = .ok f →
      (f = .file p ∨ f = .absent p) → p ≠ [] →
      (∀ e, fs.entryAt? p = some e → e.sort = .file []) →
      fs.Created path ⟨p⟩ (fs.insert p (.file [])) := by
    intro f p hr hf hp hb
    refine ⟨hp, rfl, hb, fun {fs''} hE => ?_⟩
    have hself : (fs.insert p (.file [])).entryAt? p = some (.file []) := entryAt?_insert_self _ hp
    obtain ⟨e, he, -⟩ := Option.map_eq_some_iff.mp (hE.sort p _ hself)
    have hfile : f.among fs'' = .file p := by
      rcases hf with rfl | rfl
      · rfl
      · simp [Found.among, he]
    have hr'' := resolve_of_extends (hE.trans (extends_insert [] hb)) (by decide) hr
    rw [hfile] at hr''
    unfold openRead
    rw [resolve_find hr'']
    rfl
  unfold create openWrite at hc
  cases hr : fs.resolve .create path with
  | error e =>
    rw [hr] at hc
    cases hc
  | ok f =>
    obtain ⟨hfit, hlink⟩ := resolve_fits (by decide) hr
    rw [hr] at hc
    cases f with
    | directory p => cases hc
    | link p => exact absurd rfl (hlink p)
    | file p =>
      cases hc
      obtain ⟨hp, data, hdata⟩ := hfit
      exact key hr (.inl rfl) hp fun e he => by
        rw [hdata] at he
        cases he
        rfl
    | absent p =>
      cases hc
      obtain ⟨hp, hnone⟩ := hfit
      have := key hr (.inr rfl) hp fun e he => by simp [hnone] at he
      simpa only [insert_insert] using this

/-- Writing a whole file sets it where a file or nothing was, and the path leads there. -/
theorem writeFile_spec {path : String} {data : Bytes} (hw : fs.writeFile path data = .ok fs') :
    ∃ h : Handle, h.at_ ≠ [] ∧ (∀ e, fs.entryAt? h.at_ = some e → e.sort = .file []) ∧
      fs' = fs.insert h.at_ (.file data) ∧ fs'.openRead path = .ok h := by
  unfold writeFile at hw
  cases hc : fs.create path with
  | error e =>
    rw [hc] at hw
    cases hw
  | ok made =>
    obtain ⟨h, fs₁⟩ := made
    obtain ⟨hne, rfl, hbefore, hleads⟩ := create_spec hc
    rw [hc] at hw
    have hself : (fs.insert h.at_ (.file [])).entryAt? h.at_ = some (.file []) :=
      entryAt?_insert_self _ hne
    have hover : Bytes.overwrite [] 0 data = data := by
      cases data with
      | nil => rfl
      | cons => simp [Bytes.overwrite, Bytes.zeros]
    have hwritten : fs' = fs.insert h.at_ (.file data) := by
      have heq := Except.ok.inj hw
      simp only [writeAt, content_eq hself, hover, insert_insert] at heq
      exact heq.symm
    have hextends : ((fs.insert h.at_ (.file [])).insert h.at_ (.file data)).Extends
        (fs.insert h.at_ (.file [])) :=
      extends_insert data fun e he => by
        rw [hself] at he
        cases he
        rfl
    rw [insert_insert, ← hwritten] at hextends
    exact ⟨h, hne, hbefore, hwritten, hleads hextends⟩

theorem create_congr (h : fs.SameSorts fs') (path : String) :
    (fs.create path).map Prod.fst = (fs'.create path).map Prod.fst := by
  unfold create openWrite
  rw [resolve_congr h]
  cases fs'.resolve .create path with
  | error e => rfl
  | ok f => cases f <;> rfl

end FileSystem
end BlockTransfer
