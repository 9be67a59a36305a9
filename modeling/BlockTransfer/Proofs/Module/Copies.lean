import BlockTransfer.Module.Libraries
import Mathlib.Data.List.Nodup
/-!
# Opened copies

Every copy of a library is held by somebody and has a number of its own
(`Libraries.Sound`). Opening a library either takes hold of a copy that is there
or maps a new one (`Libraries.Opened`); closing it again undoes the first, and
of the second only the number that was taken stays.

Key definitions: `Libraries.Sound`, `Libraries.Opened`.
Key theorems: `Libraries.opened_openPath`, `Libraries.Sound.close_opened`.
-/

namespace BlockTransfer
namespace Libraries

variable {l l' : Libraries} {c : LibraryCopy} {n : Nat}

/-- Copies have distinct numbers, taken in order, and holders. -/
structure Sound (l : Libraries) : Prop where
  distinct : (l.copies.map (·.number)).Nodup
  below : ∀ c ∈ l.copies, c.number < l.nextNumber
  held : ∀ c ∈ l.copies, 1 ≤ c.holders

theorem sound_empty : Sound {} := ⟨List.nodup_nil, nofun, nofun⟩

/-- The number after the next is the next. -/
def skip (l : Libraries) : Libraries := { l with nextNumber := l.nextNumber + 1 }

/-- How a library is opened: somebody more holds a copy, or there is a new one. -/
inductive Opened (l : Libraries) : LibraryCopy → Libraries → Prop where
  | held (c : LibraryCopy) (mem : c ∈ l.copies) : Opened l c (l.hold c.number)
  | mapped (c : LibraryCopy) (number : c.number = l.nextNumber) (holders : c.holders = 1)
      (nextPool : c.nextPool = 1) : Opened l c { l.skip with copies := l.copies ++ [c] }

theorem opened_openPath {host : Host} {files : FileSystem} {path : String}
    (h : l.openPath host files path = .ok (c, l')) : Opened l c l' := by
  unfold openPath at h
  split at h
  · rename_i hfind
    cases h
    exact .held _ (List.mem_of_find?_eq_some hfind)
  · split at h
    · cases h
    split at h
    · cases h
    split at h
    · rename_i hfind
      cases h
      exact .held _ (List.mem_of_find?_eq_some hfind)
    · split at h <;> cases h
      exact .mapped _ rfl rfl rfl

/-- A library that nobody has opened is mapped. -/
theorem openPath_new {host : Host} {files : FileSystem} {path : String} {file : CanonicalPath}
    {image : ModuleImage} (hpath : l.copies.find? (·.path == path) = none)
    (hnul : path.toList.contains '\x00' = false) (hslash : path.toList.contains '/' = true)
    (hread : files.openRead path = .ok ⟨file⟩) (hfile : l.copies.find? (·.file == file) = none)
    (himage : ModuleImage.decode? (files.content ⟨file⟩) = some image) :
    l.openPath host files path = .ok (⟨l.nextNumber, path, file, image, 1, 1⟩,
      ⟨l.copies ++ [⟨l.nextNumber, path, file, image, 1, 1⟩], l.nextNumber + 1⟩) := by
  have hopen : openFile host files path = .ok ⟨file⟩ := by
    rw [openFile, locate?, if_pos hslash]
    exact hread
  unfold openPath
  rw [hpath]
  simp only [hnul, Bool.false_eq_true, ↓reduceIte, hopen, hfile, himage]

/-! ### What keeps the copies sound -/

/-- A change of copies that leaves their numbers and their holders sound. -/
theorem Sound.map (h : l.Sound) {f : LibraryCopy → LibraryCopy}
    (number : ∀ c, (f c).number = c.number) (holders : ∀ c, c.holders ≤ (f c).holders) :
    Sound { l with copies := l.copies.map f } := by
  refine ⟨?_, ?_, ?_⟩
  · rw [List.map_map, show (·.number) ∘ f = (·.number) from funext number]
    exact h.distinct
  · rintro _ hc
    obtain ⟨c₀, hc₀, rfl⟩ := List.mem_map.mp hc
    rw [number]
    exact h.below c₀ hc₀
  · rintro _ hc
    obtain ⟨c₀, hc₀, rfl⟩ := List.mem_map.mp hc
    exact Nat.le_trans (h.held c₀ hc₀) (holders c₀)

theorem Sound.hold (h : l.Sound) (n : Nat) : (l.hold n).Sound :=
  h.map (fun c => by split <;> rfl) (fun c => by split <;> simp)

theorem Sound.usePool (h : l.Sound) (n : Nat) : (l.usePool n).Sound :=
  h.map (fun c => by split <;> rfl) (fun c => by split <;> simp)

/-- What closing does to one copy. -/
def dropHolder? (n : Nat) (c : LibraryCopy) : Option LibraryCopy :=
  if c.number = n then
    if c.holders ≤ 1 then none else some { c with holders := c.holders - 1 }
  else some c

theorem close_eq (l : Libraries) (n : Nat) :
    l.close n = { l with copies := l.copies.filterMap (dropHolder? n) } := rfl

theorem dropHolder?_eq_some {c' : LibraryCopy} (h : dropHolder? n c = some c') :
    c'.number = c.number ∧ (1 ≤ c.holders → 1 ≤ c'.holders) := by
  unfold dropHolder? at h
  split at h
  · split at h <;> cases h
    exact ⟨rfl, fun _ => by dsimp only; omega⟩
  · cases h
    exact ⟨rfl, id⟩

theorem numbers_filterMap_sublist (cs : List LibraryCopy) (n : Nat) :
    ((cs.filterMap (dropHolder? n)).map (·.number)).Sublist (cs.map (·.number)) := by
  induction cs with
  | nil => exact .slnil
  | cons c cs ih =>
    rw [List.filterMap_cons, List.map_cons]
    split
    · exact ih.cons _
    · rename_i c' heq
      rw [List.map_cons, (dropHolder?_eq_some heq).1]
      exact ih.cons_cons _

theorem Sound.close (h : l.Sound) (n : Nat) : (l.close n).Sound := by
  rw [close_eq]
  refine ⟨h.distinct.sublist (numbers_filterMap_sublist _ n), fun c hc => ?_, fun c hc => ?_⟩ <;>
    obtain ⟨c₀, hc₀, heq⟩ := List.mem_filterMap.mp hc <;>
    obtain ⟨hnumber, hheld⟩ := dropHolder?_eq_some heq
  · rw [hnumber]
    exact h.below c₀ hc₀
  · exact hheld (h.held c₀ hc₀)

theorem Sound.skip (h : l.Sound) : l.skip.Sound :=
  ⟨h.distinct, fun c hc => Nat.lt_succ_of_lt (h.below c hc), h.held⟩

theorem Sound.opened (h : l.Sound) (ho : Opened l c l') : l'.Sound := by
  cases ho with
  | held => exact h.hold _
  | mapped number holders =>
    refine ⟨?_, fun c' hc' => ?_, fun c' hc' => ?_⟩
    · rw [List.map_append, List.nodup_append]
      refine ⟨h.distinct, List.nodup_singleton _, ?_⟩
      rintro _ hn _ hn' rfl
      obtain ⟨c₀, hc₀, heq⟩ := List.mem_map.mp hn
      have hlt := h.below c₀ hc₀
      rw [List.map_singleton, List.mem_singleton] at hn'
      omega
    · show c'.number < l.nextNumber + 1
      rcases List.mem_append.mp hc' with hc' | hc'
      · exact Nat.lt_succ_of_lt (h.below c' hc')
      · rw [List.mem_singleton.mp hc', number]
        exact Nat.lt_succ_self _
    · rcases List.mem_append.mp hc' with hc' | hc'
      · exact h.held c' hc'
      · rw [List.mem_singleton.mp hc']
        exact Nat.le_of_eq holders.symm

/-! ### Closing what was opened -/

theorem filterMap_eq_self {cs : List LibraryCopy} {f : LibraryCopy → Option LibraryCopy}
    (h : ∀ c ∈ cs, f c = some c) : cs.filterMap f = cs := by
  rw [List.filterMap_congr h, List.filterMap_some]

theorem Sound.close_hold (h : l.Sound) (n : Nat) : (l.hold n).close n = l := by
  have hkeep : ∀ c ∈ l.copies,
      dropHolder? n (if c.number = n then { c with holders := c.holders + 1 } else c) = some c := by
    intro c hc
    have hheld := h.held c hc
    unfold dropHolder?
    by_cases hn : c.number = n
    · have hmore : ¬ c.holders + 1 ≤ 1 := by omega
      simp [hn, hmore]
      simp [← hn]
    · simp [hn]
  have hcopies : ((l.hold n).close n).copies = l.copies := by
    refine (List.filterMap_map ..).trans ?_
    exact filterMap_eq_self hkeep
  calc (l.hold n).close n = ⟨((l.hold n).close n).copies, l.nextNumber⟩ := rfl
    _ = l := by rw [hcopies]

theorem Sound.close_mapped (h : l.Sound) (number : c.number = l.nextNumber)
    (holders : c.holders = 1) :
    Libraries.close { l.skip with copies := l.copies ++ [c] } c.number = l.skip := by
  have hkeep : ∀ c' ∈ l.copies, dropHolder? c.number c' = some c' := by
    intro c' hc'
    have hlt := h.below c' hc'
    exact if_neg (by omega)
  have hlast : dropHolder? c.number c = none := by simp [dropHolder?, holders]
  have hcopies : (l.copies ++ [c]).filterMap (dropHolder? c.number) = l.copies := by
    rw [List.filterMap_append, filterMap_eq_self hkeep, List.filterMap_cons_none hlast,
      List.filterMap_nil, List.append_nil]
  calc Libraries.close { l.skip with copies := l.copies ++ [c] } c.number
      = { l.skip with copies := (l.copies ++ [c]).filterMap (dropHolder? c.number) } := rfl
    _ = l.skip := by
      rw [hcopies]
      rfl

/-- Closing what was opened leaves the copies as they were; a number may be
lost. -/
theorem Sound.close_opened (h : l.Sound) (ho : Opened l c l') :
    l'.close c.number = l ∨ l'.close c.number = l.skip := by
  cases ho with
  | held => exact .inl (h.close_hold _)
  | mapped number holders => exact .inr (h.close_mapped number holders)

/-! ### Pool numbers -/

/-- Whether the copy of that number is open. -/
def Has (l : Libraries) (n : Nat) : Prop := ∃ c ∈ l.copies, c.number = n

theorem Has.lt (h : l.Sound) (hn : l.Has n) : n < l.nextNumber := by
  obtain ⟨c, hc, rfl⟩ := hn
  exact h.below c hc

theorem nextPool_usePool (hn : l.Has n) : (l.usePool n).nextPool n = l.nextPool n + 1 := by
  obtain ⟨copies, next⟩ := l
  obtain ⟨c, hc, rfl⟩ := hn
  simp only [nextPool, usePool]
  induction copies with
  | nil => cases hc
  | cons c' cs ih =>
    by_cases hc' : c'.number = c.number
    · simp [hc']
    · rcases List.mem_cons.mp hc with rfl | hc
      · exact absurd rfl hc'
      · simpa [List.find?_cons, hc'] using ih hc

theorem has_usePool {m : Nat} : (l.usePool m).Has n ↔ l.Has n := by
  simp only [Has, usePool, List.mem_map, exists_exists_and_eq_and]
  refine exists_congr fun c => and_congr_right fun _ => ?_
  split <;> rfl

theorem has_hold {m : Nat} : (l.hold m).Has n ↔ l.Has n := by
  simp only [Has, hold, List.mem_map, exists_exists_and_eq_and]
  refine exists_congr fun c => and_congr_right fun _ => ?_
  split <;> rfl

theorem nextPool_hold (l : Libraries) (n m : Nat) : (l.hold m).nextPool n = l.nextPool n := by
  have hkeep : ∀ c : LibraryCopy,
      (if c.number = m then { c with holders := c.holders + 1 } else c).number = c.number ∧
        (if c.number = m then { c with holders := c.holders + 1 } else c).nextPool = c.nextPool :=
    fun c => by split <;> exact ⟨rfl, rfl⟩
  simp only [nextPool, hold, List.find?_map, Option.map_map, Function.comp_def,
    fun c => (hkeep c).1, fun c => (hkeep c).2]

theorem Opened.has (h : l.Opened c l') : l'.Has c.number := by
  cases h with
  | held mem => exact has_hold.mpr ⟨c, mem, rfl⟩
  | mapped => exact ⟨c, List.mem_append_right _ (List.mem_singleton_self c), rfl⟩

/-- A copy that is there is not mapped again. -/
theorem Opened.eq_hold (h : l.Opened c l') (hs : l.Sound) (hc : l.Has c.number) :
    l' = l.hold c.number := by
  cases h with
  | held => rfl
  | mapped number =>
    have hlt := hc.lt hs
    omega

/-- Somebody else who held the copy gives it up after it was opened once more. -/
theorem Opened.close (h : l.Opened c l') (hs : l.Sound) (hc : l.Has c.number) :
    l'.close c.number = l := by
  rw [h.eq_hold hs hc, hs.close_hold]

theorem Opened.nextPool (h : l.Opened c l') (hs : l.Sound) (hc : l.Has c.number) :
    l'.nextPool c.number = l.nextPool c.number := by
  rw [h.eq_hold hs hc, nextPool_hold]

/-- A device that takes a pool number does so whether its library is given up
before or after by somebody else. -/
theorem close_usePool (l : Libraries) (n : Nat) :
    (l.usePool n).close n = (l.close n).usePool n := by
  simp only [close, usePool, List.filterMap_map, List.map_filterMap, Libraries.mk.injEq, and_true]
  congr 1
  funext c
  by_cases hn : c.number = n
  · by_cases hholders : c.holders ≤ 1 <;> simp [hn, hholders]
  · simp [hn]

end Libraries
end BlockTransfer
