import BlockTransfer.FileSystem
import BlockTransfer.Proofs.Lookup
/-!
# Entries of a file system

What setting an entry does to the entries that a path can lead to. Setting one
twice keeps the last, and settings at different paths can be exchanged when one
of the two entries is there already; both hold of the file system as it is, not
only of what it answers. A content is `Kept` at a path if the file is there and
setting it again changes nothing.

Key definitions: `FileSystem.Keeps`.
Key theorems: `FileSystem.entryAt?_insert`, `FileSystem.insert_insert`,
`FileSystem.insert_comm`.
-/

namespace BlockTransfer
namespace FileSystem

variable {fs : FileSystem} {p q : CanonicalPath}

theorem lookup_insert (fs : FileSystem) (p q : CanonicalPath) (e : Entry) :
    (fs.insert p e).entries.lookup q = if q = p then some e else fs.entries.lookup q := by
  unfold insert
  split
  · rename_i hp
    simp only [beq_iff_eq, lookup_map_replace, hp, and_true]
  · rename_i hp
    simp only [Bool.not_eq_true, Option.isSome_eq_false_iff, Option.isNone_iff_eq_none] at hp
    rw [List.lookup_append]
    by_cases hq : q = p
    · subst hq
      simp [hp]
    · simp [List.lookup_cons, hq, beq_eq_false_iff_ne.mpr hq]

@[simp] theorem cwd_insert (fs : FileSystem) (p : CanonicalPath) (e : Entry) :
    (fs.insert p e).cwd = fs.cwd := rfl

/-- The root stays a directory whatever is set there. -/
theorem entryAt?_insert (fs : FileSystem) (p q : CanonicalPath) (e : Entry) :
    (fs.insert p e).entryAt? q = if q = p ∧ p ≠ [] then some e else fs.entryAt? q := by
  unfold entryAt?
  by_cases hq : q = []
  · subst hq
    by_cases hp : p = []
    · simp [hp]
    · simp [hp, Ne.symm hp]
  · by_cases hqp : q = p
    · subst hqp
      simp [hq, lookup_insert]
    · simp [hq, hqp, lookup_insert]

theorem entryAt?_insert_self (e : Entry) (h : p ≠ []) : (fs.insert p e).entryAt? p = some e := by
  rw [entryAt?_insert, if_pos ⟨rfl, h⟩]

theorem entryAt?_insert_of_ne (e : Entry) (h : q ≠ p) :
    (fs.insert p e).entryAt? q = fs.entryAt? q := by
  rw [entryAt?_insert, if_neg fun hq => h hq.1]

theorem isSome_lookup_insert (e : Entry) : ((fs.insert p e).entries.lookup p).isSome = true := by
  rw [lookup_insert, if_pos rfl]
  rfl

/-- An entry other than the root's is found among the entries. -/
theorem isSome_lookup_of_entry? {e : Entry} (hp : p ≠ []) (h : fs.entryAt? p = some e) :
    (fs.entries.lookup p).isSome = true := by
  simp only [entryAt?, List.isEmpty_iff, hp, ↓reduceIte] at h
  rw [h]
  rfl

theorem insert_of_isSome (e : Entry) (h : (fs.entries.lookup p).isSome = true) :
    fs.insert p e =
      { fs with entries := fs.entries.map fun x => if x.1 == p then (p, e) else x } := by
  simp only [insert, h, ↓reduceIte]

theorem insert_of_not_isSome (e : Entry) (h : ¬(fs.entries.lookup p).isSome = true) :
    fs.insert p e = { fs with entries := fs.entries ++ [(p, e)] } := by
  simp only [insert, h, ↓reduceIte, Bool.false_eq_true]

/-- The entry set last stays. -/
theorem insert_insert (fs : FileSystem) (p : CanonicalPath) (e e' : Entry) :
    (fs.insert p e').insert p e = fs.insert p e := by
  rw [insert_of_isSome e (isSome_lookup_insert e')]
  by_cases h : (fs.entries.lookup p).isSome = true
  · rw [insert_of_isSome e h, insert_of_isSome e' h]
    simp only [List.map_map]
    congr 1
    apply List.map_congr_left
    intro x _
    by_cases hx : x.1 = p <;> simp [hx]
  · rw [insert_of_not_isSome e h, insert_of_not_isSome e' h]
    have hnone : fs.entries.lookup p = none := by
      rwa [Bool.not_eq_true, Option.isSome_eq_false_iff, Option.isNone_iff_eq_none] at h
    have hmap : (fs.entries.map fun x => if x.1 == p then (p, e) else x) = fs.entries := by
      conv_rhs => rw [← List.map_id fs.entries]
      apply List.map_congr_left
      intro x hx
      simp [Ne.symm (bne_iff_ne.mp (List.lookup_eq_none_iff.mp hnone x hx))]
    simp only [List.map_append, hmap, List.map_cons, List.map_nil, BEq.rfl, ↓reduceIte]

/-- Entries at different paths can be set in either order if the first of them
is there. -/
theorem insert_comm (e e' : Entry) (hpq : p ≠ q) (hp : (fs.entries.lookup p).isSome = true) :
    (fs.insert q e').insert p e = (fs.insert p e).insert q e' := by
  have hp' : ((fs.insert q e').entries.lookup p).isSome = true := by
    rw [lookup_insert, if_neg hpq]
    exact hp
  have hswap : ∀ x : CanonicalPath × Entry,
      (if (if x.1 == q then (q, e') else x).1 == p then (p, e)
        else if x.1 == q then (q, e') else x) =
      if (if x.1 == p then (p, e) else x).1 == q then (q, e')
        else if x.1 == p then (p, e) else x := by
    intro x
    by_cases h1 : x.1 = p
    · simp [h1, hpq]
    · by_cases h2 : x.1 = q
      · simp [h2, Ne.symm hpq]
      · simp [h1, h2]
  rw [insert_of_isSome e hp']
  by_cases hq : (fs.entries.lookup q).isSome = true
  · have hq' : ((fs.insert p e).entries.lookup q).isSome = true := by
      rw [lookup_insert, if_neg (Ne.symm hpq)]
      exact hq
    rw [insert_of_isSome e' hq', insert_of_isSome e' hq, insert_of_isSome e hp]
    simp only [List.map_map]
    congr 1
    exact List.map_congr_left fun x _ => hswap x
  · have hq' : ¬((fs.insert p e).entries.lookup q).isSome = true := by
      rw [lookup_insert, if_neg (Ne.symm hpq)]
      exact hq
    rw [insert_of_not_isSome e' hq', insert_of_not_isSome e' hq, insert_of_isSome e hp]
    simp [Ne.symm hpq]

/-! ### Kept contents -/

/-- The file at a path holds these bytes, in every entry that the list has for
the path, so that setting it to them changes nothing. -/
structure Keeps (fs : FileSystem) (p : CanonicalPath) (data : Bytes) : Prop where
  entry : fs.entryAt? p = some (.file data)
  insert : fs.insert p (.file data) = fs

theorem Keeps.ne_nil {data : Bytes} (h : fs.Keeps p data) : p ≠ [] := by
  rintro rfl
  have := h.entry
  simp [entryAt?] at this

theorem Keeps.isSome_lookup {data : Bytes} (h : fs.Keeps p data) :
    (fs.entries.lookup p).isSome = true :=
  isSome_lookup_of_entry? h.ne_nil h.entry

/-- What was set is kept. -/
theorem keeps_insert (data : Bytes) (hp : p ≠ []) : (fs.insert p (.file data)).Keeps p data :=
  ⟨entryAt?_insert_self _ hp, insert_insert fs p _ _⟩

/-- Setting another entry leaves it kept. -/
theorem Keeps.insert_of_ne {data : Bytes} (h : fs.Keeps p data) (hpq : p ≠ q) (e : Entry) :
    (fs.insert q e).Keeps p data := by
  refine ⟨by rw [entryAt?_insert_of_ne e hpq, h.entry], ?_⟩
  rw [insert_comm _ _ hpq h.isSome_lookup, h.insert]

/-! ### Contents and lengths behind a handle -/

theorem content_eq {h : Handle} {data : Bytes} (he : fs.entryAt? h.at_ = some (.file data)) :
    fs.content h = data := by
  simp only [content, he]

theorem length_eq {h : Handle} {data : Bytes} (he : fs.entryAt? h.at_ = some (.file data)) :
    fs.length h = data.length := by
  simp only [length, he]

/-- Only files have bytes. -/
theorem exists_file_of_content {h : Handle} (hpos : 0 < (fs.content h).length) :
    ∃ data, fs.entryAt? h.at_ = some (.file data) := by
  unfold content at hpos
  split at hpos
  · exact ⟨_, ‹_›⟩
  · cases hpos

theorem content_congr {fs' : FileSystem} {h : Handle}
    (he : fs.entryAt? h.at_ = fs'.entryAt? h.at_) :
    fs.content h = fs'.content h := by
  simp only [content, he]

theorem length_congr {fs' : FileSystem} {h : Handle} (he : fs.entryAt? h.at_ = fs'.entryAt? h.at_) :
    fs.length h = fs'.length h := by
  simp only [length, he]

end FileSystem
end BlockTransfer
