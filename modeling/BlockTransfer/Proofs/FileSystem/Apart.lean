import BlockTransfer.Proofs.FileSystem.Naming
/-!
# What a file that is set does not change

Setting a file changes nothing for a path that does not lead to it. The walk along
such a path meets the same entries before and after, because a walk that meets a
file ends there (`FileSystem.resolve_of_insert`).

Key theorems: `FileSystem.openRead_insert`, `FileSystem.view_insert`.
-/

namespace BlockTransfer
namespace FileSystem

variable {fs : FileSystem} {p : CanonicalPath} {data : Bytes} {path : String}

/-- What is at a name, if the file that was set is not there. -/
theorem entryAt?_of_insert {cur : CanonicalPath} {name : String} {e : Option Entry}
    (he : (fs.insert p (.file data)).entryAt? (cur ++ [name]) = e)
    (hne : cur ++ [name] = p → e ≠ some (.file data)) : fs.entryAt? (cur ++ [name]) = e := by
  by_cases hp : cur ++ [name] = p
  · have hself : (fs.insert p (.file data)).entryAt? p = some (.file data) :=
      entryAt?_insert_self _ (hp ▸ List.concat_ne_nil name cur)
    exact absurd ((hp ▸ he).symm.trans hself) (hne hp)
  · rwa [entryAt?_insert_of_ne _ hp] at he

/-- A run of names that does not end at the file met the same entries without it. -/
theorem Runs.of_insert {cur : CanonicalPath} {rest : List String} {s : Stop}
    (h : (fs.insert p (.file data)).Runs .find cur rest s) (hs : s ≠ .found (.file p)) :
    fs.Runs .find cur rest s := by
  induction h with
  | here => exact .here
  | stay dot _ ih => exact .stay dot (ih hs)
  | climb stays dots _ ih => exact .climb stays dots (ih hs)
  | enter looks entry _ ih => exact .enter looks (entryAt?_of_insert entry (by simp)) (ih hs)
  | file looks entry =>
    exact .file looks (entryAt?_of_insert entry fun heq => absurd (by rw [heq]) hs)
  | unlinked _ _ wanted => cases wanted
  | link looks entry follows => exact .link looks (entryAt?_of_insert entry (by simp)) follows
  | absent _ _ wanted => cases wanted

theorem mirrors_of_insert (fs : FileSystem) (p : CanonicalPath) (data : Bytes) :
    Mirrors (fs.insert p (.file data)) fs .find .find (· ≠ .file p) .ok where
  cwd := rfl
  found _ _ _ hf h := ((runs_of_steps h).of_insert fun heq => hf (Stop.found.inj heq)).steps_eq
  link _ _ _ _ _ h := ((runs_of_steps h).of_insert (by simp)).steps_eq

theorem resolve_of_insert {f : Found} (h : (fs.insert p (.file data)).resolve .find path = .ok f)
    (hf : f ≠ .file p) : fs.resolve .find path = .ok f :=
  (mirrors_of_insert fs p data).resolve hf h

/-- A path that does not lead to the file leads where it led. -/
theorem openRead_insert (hp : ∀ e, fs.entryAt? p = some e → e.sort = .file [])
    (hpath : (fs.insert p (.file data)).openRead path ≠ .ok ⟨p⟩) :
    ∀ h, (fs.insert p (.file data)).openRead path = .ok h ↔ fs.openRead path = .ok h := by
  intro h
  constructor
  · intro ho
    obtain ⟨f, hf, hcase⟩ := openRead_eq ho
    have hne : f ≠ .file p := by
      rintro rfl
      rcases hcase with hcase | hcase <;> cases hcase
      exact hpath ho
    unfold openRead
    rw [resolve_of_insert hf hne]
    rcases hcase with rfl | rfl <;> rfl
  · exact openRead_of_extends (extends_insert data hp)

/-- What is seen along a path that does not lead to the file is what was seen. -/
theorem view_insert (hp : ∀ e, fs.entryAt? p = some e → e.sort = .file []) (hne : p ≠ [])
    (hpath : (fs.insert p (.file data)).openRead path ≠ .ok ⟨p⟩) :
    (fs.insert p (.file data)).view path = fs.view path := by
  have hopen := openRead_insert hp hpath
  unfold view
  cases ho : (fs.insert p (.file data)).openRead path with
  | error e =>
    cases ho' : fs.openRead path with
    | error e' => rfl
    | ok h =>
      rw [(hopen h).mpr ho'] at ho
      cases ho
  | ok h =>
    have hat : h.at_ ≠ p := by
      rintro rfl
      exact hpath ho
    rw [(hopen h).mp ho]
    simp only [entryAt?_insert_of_ne _ hat]

end FileSystem

end BlockTransfer
