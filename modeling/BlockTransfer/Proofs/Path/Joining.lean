import BlockTransfer.Path
/-!
# Components of joined paths

Joining puts the components of a relative name behind those of the base
(`Path.parts_join`), while an absolute name forgets the base. A name adds
exactly one component, itself, if there is no slash in it
(`Path.parts_join_single`); a name with a slash never is a component
(`Path.slash_notMem_of_mem_parts`).

Key definition: `Path.below`.
Key theorems: `Path.parts_join`, `Path.parts_join_single`,
`Path.slash_notMem_of_mem_parts`.
-/

namespace BlockTransfer
namespace Path

variable {base name path s : String}

/-! ### Segments -/

/-- Cutting a list is what the standard library calls splitting it. -/
theorem pieces_eq_splitOnP (p : Char → Bool) (cs : List Char) : pieces p cs = cs.splitOnP p := by
  induction cs with
  | nil => rfl
  | cons c cs ih =>
    rw [pieces, ih, List.splitOnP_cons_eq_if_modifyHead]
    congr 1
    cases h : cs.splitOnP p with
    | nil => exact absurd h (List.splitOnP_ne_nil p cs)
    | cons w ws => rfl

theorem segments_eq_map (path : String) :
    segments path = (path.toList.splitOnP (· == '/')).map String.ofList := by
  rw [segments, pieces_eq_splitOnP]

theorem segments_ne_nil (path : String) : segments path ≠ [] := by
  rw [segments_eq_map, ne_eq, List.map_eq_nil_iff]
  exact List.splitOnP_ne_nil _ _

theorem segments_append_slash (path name : String) :
    segments (path ++ "/" ++ name) = segments path ++ segments name := by
  simp only [segments_eq_map, String.toList_append, ← List.map_append]
  rw [show "/".toList = ['/'] from rfl, List.append_assoc, List.singleton_append,
    List.splitOnP_append_cons]
  exact beq_self_eq_true '/'

/-- A name without a slash is its only segment. -/
theorem segments_of_notMem (h : '/' ∉ name.toList) : segments name = [name] := by
  have hcut : ∀ c ∈ name.toList, (c == '/') = false := fun c hc =>
    beq_eq_false_iff_ne.mpr fun heq => h (heq ▸ hc)
  rw [segments_eq_map, List.splitOnP_eq_singleton hcut, List.map_singleton, String.ofList_toList]

/-- No piece holds what was cut at. -/
theorem of_mem_splitOnP (p : Char → Bool) (cs : List Char) :
    ∀ w ∈ cs.splitOnP p, ∀ c ∈ w, p c = false := by
  induction cs with
  | nil =>
    intro w hw
    rw [List.splitOnP_nil, List.mem_singleton] at hw
    subst hw
    exact nofun
  | cons c cs ih =>
    rw [List.splitOnP_cons_eq_if_modifyHead]
    obtain ⟨v, vs, hcut⟩ := List.exists_cons_of_ne_nil (List.splitOnP_ne_nil p cs)
    rw [hcut] at ih
    split
    · rw [hcut]
      exact List.forall_mem_cons.mpr ⟨nofun, ih⟩
    · rename_i hc
      obtain ⟨hv, hvs⟩ := List.forall_mem_cons.mp ih
      rw [hcut, List.modifyHead_cons]
      exact List.forall_mem_cons.mpr
        ⟨List.forall_mem_cons.mpr ⟨Bool.eq_false_iff.mpr hc, hv⟩, hvs⟩

theorem slash_notMem_of_mem_segments (h : s ∈ segments path) : '/' ∉ s.toList := by
  rw [segments_eq_map] at h
  obtain ⟨w, hw, rfl⟩ := List.mem_map.mp h
  rw [String.toList_ofList]
  intro hslash
  cases of_mem_splitOnP _ _ w hw '/' hslash

/-! ### Components -/

/-- The components that a relative path adds to a base. -/
def below (path : String) : List String :=
  (segments path).filter fun s => !(s.isEmpty || s == ".")

/-- The component that the first segment stands for, with what is kept of the
others. -/
theorem parts_of_segments {first : String} {rest : List String}
    (h : segments path = first :: rest) :
    parts path = (if first = "" then if isAbsolute path then ["/"] else [] else [first]) ++
      rest.filter fun s => !(s.isEmpty || s == ".") := by
  unfold parts
  rw [h]
  by_cases hfirst : first = ""
  · subst hfirst
    rw [if_pos rfl]
    cases isAbsolute path <;> rfl
  · rw [if_neg hfirst]
    simp

theorem isAbsolute_append (h : base ≠ "") (name : String) :
    isAbsolute (base ++ name) = isAbsolute base := by
  unfold isAbsolute
  obtain ⟨c, cs, hcs⟩ := List.exists_cons_of_ne_nil (mt String.toList_eq_nil_iff.mp h)
  rw [String.toList_append, hcs, List.cons_append, List.head?_cons, List.head?_cons]

/-- A joined path is absolute if its base is. -/
theorem isAbsolute_join {base : String} (h : isAbsolute base = true) (name : String) :
    isAbsolute (join base name) = true := by
  have hbase : base ≠ "" := by
    rintro rfl
    cases h
  unfold join
  split
  · rename_i hname
    simpa [String.isEmpty_iff, hbase] using hname
  · split
    · rwa [isAbsolute_append hbase]
    · rwa [String.append_assoc, isAbsolute_append hbase]

theorem parts_append_slash (h : base ≠ "") (name : String) :
    parts (base ++ "/" ++ name) = parts base ++ below name := by
  obtain ⟨first, rest, hbase⟩ := List.exists_cons_of_ne_nil (segments_ne_nil base)
  have hall : segments (base ++ "/" ++ name) = first :: (rest ++ segments name) := by
    rw [segments_append_slash, hbase, List.cons_append]
  rw [parts_of_segments hall, parts_of_segments hbase, String.append_assoc, isAbsolute_append h,
    List.filter_append, ← List.append_assoc]
  rfl

theorem eq_append_slash (h : endsWithSlash base = true) : ∃ front, base = front ++ "/" := by
  obtain ⟨front, hfront⟩ := List.getLast?_eq_some_iff.mp (beq_iff_eq.mp h)
  refine ⟨String.ofList front, String.toList_injective ?_⟩
  rw [hfront, String.toList_append, String.toList_ofList]
  rfl

/-- The components of a relative name come behind those of the base. -/
theorem parts_join (hbase : base ≠ "") (hname : isAbsolute name = false) :
    parts (join base name) = parts base ++ below name := by
  have hempty : base.isEmpty = false := by
    rwa [Bool.eq_false_iff, ne_eq, String.isEmpty_iff]
  rw [join, hname, hempty, Bool.or_self, if_neg Bool.false_ne_true]
  split
  · rename_i hslash
    obtain ⟨front, rfl⟩ := eq_append_slash hslash
    -- the slash at the end is a segment without a name, which no component is made of
    by_cases hfront : front = ""
    · subst hfront
      obtain ⟨first, rest, hsegments⟩ := List.exists_cons_of_ne_nil (segments_ne_nil name)
      have hall : segments ("" ++ "/" ++ name) = "" :: segments name :=
        segments_append_slash "" name
      rw [parts_of_segments hall, isAbsolute_append (by decide)]
      rfl
    · have hroot := parts_append_slash hfront ""
      rw [show front ++ "/" ++ "" = front ++ "/" from String.append_empty,
        show below "" = [] from rfl, List.append_nil] at hroot
      rw [hroot, parts_append_slash hfront]
  · exact parts_append_slash hbase name

/-- An absolute name forgets the base. -/
theorem join_of_isAbsolute (base : String) (h : isAbsolute name = true) :
    join base name = name := by
  rw [join, h, Bool.true_or, if_pos rfl]

theorem parts_of_isAbsolute (h : isAbsolute path = true) : parts path = "/" :: below path := by
  obtain ⟨cs, hcs⟩ := List.head?_eq_some_iff.mp (beq_iff_eq.mp h)
  have hpath : path = "" ++ "/" ++ String.ofList cs := String.toList_injective (by
    rw [hcs, String.toList_append, String.toList_ofList]
    rfl)
  have hsegments : segments path = "" :: segments (String.ofList cs) := by
    rw [hpath]
    exact segments_append_slash "" _
  rw [parts_of_segments hsegments, if_pos rfl, h, if_pos rfl, below, hsegments]
  rfl

/-- A name without a slash, if it is one, adds itself. -/
theorem parts_join_single (base : String) (hslash : '/' ∉ name.toList) (hempty : name ≠ "")
    (hdot : name ≠ ".") : parts (join base name) = parts base ++ [name] := by
  have hsegments := segments_of_notMem hslash
  have hrelative : isAbsolute name = false := by
    rw [isAbsolute, beq_eq_false_iff_ne]
    intro h
    exact hslash (List.mem_of_mem_head? h)
  by_cases hbase : base = ""
  · subst hbase
    rw [join, show "".isEmpty = true from rfl, Bool.or_true, if_pos rfl,
      parts_of_segments hsegments, if_neg hempty]
    rfl
  · have hkept : below name = [name] := by
      rw [below, hsegments, List.filter_cons_of_pos, List.filter_nil]
      simp [hempty, hdot]
    rw [parts_join hbase hrelative, hkept]

/-- No component but the root's has a slash in it. -/
theorem slash_notMem_of_mem_parts (h : s ∈ parts path) (hroot : s ≠ "/") : '/' ∉ s.toList := by
  obtain ⟨first, rest, hsegments⟩ := List.exists_cons_of_ne_nil (segments_ne_nil path)
  rw [parts_of_segments hsegments] at h
  suffices hmem : s ∈ segments path from slash_notMem_of_mem_segments hmem
  rw [hsegments]
  rcases List.mem_append.mp h with h | h
  · split at h
    · split at h
      · exact absurd (List.mem_singleton.mp h) hroot
      · cases h
    · rw [List.mem_singleton.mp h]
      exact List.mem_cons_self
  · exact List.mem_cons_of_mem _ (List.mem_filter.mp h).1

end Path
end BlockTransfer
