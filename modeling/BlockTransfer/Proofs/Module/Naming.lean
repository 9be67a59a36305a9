import BlockTransfer.Module.Name
import BlockTransfer.Proofs.Path.Joining
/-!
# Names of module files and the types they name

Every nonempty device type has one file name, and a file name that names a type
names that one only (`ModuleName.decodeWith?_eq_some_iff`). So naming a file and
reading the name undo each other, whatever the type looks like: one that ends in
`_op`, in a dot or in the extension keeps all of it, because a file name is read
from its end and each ending is cut off once (`ModuleName.exact_encodeWith`). This
does not depend on the extension.

The file name of a type is a path like the type itself: as absolute, and with as
many slashes in it.

Key definitions: `ModuleName.Exact`.
Key theorems: `ModuleName.decodeWith?_eq_some_iff`, `ModuleName.encode_injective`,
`ModuleName.exact_encodeWith`.
-/

namespace BlockTransfer
namespace ModuleName

variable {extension file t u : String}

theorem toList_encodeWith (extension t : String) :
    (encodeWith extension t).toList =
      t.toList ++ ('_' :: 'o' :: 'p' :: '.' :: extension.toList) := by
  simp only [encodeWith, suffix, String.toList_append]
  rw [List.append_assoc, List.append_assoc]
  rfl

theorem toList_encode (t : String) :
    (encode t).toList = t.toList ++ ['_', 'o', 'p', '.', 's', 'o'] :=
  toList_encodeWith ..

theorem encodeWith_injective (h : encodeWith extension t = encodeWith extension u) : t = u := by
  have hlists := congrArg String.toList h
  rw [toList_encodeWith, toList_encodeWith] at hlists
  exact String.toList_injective (List.append_cancel_right hlists)

theorem encode_injective (h : encode t = encode u) : t = u := encodeWith_injective h

/-! ### Reading a name -/

theorem dropEnding?_eq_some_iff {ending cs front : List Char} :
    dropEnding? ending cs = some front ↔ cs = front ++ ending := by
  unfold dropEnding?
  split
  · rename_i h
    obtain ⟨rest, rfl⟩ := List.isSuffixOf_iff_suffix.mp h
    rw [List.length_append, Nat.add_sub_cancel, List.take_left, Option.some_inj,
      List.append_left_inj]
  · rename_i h
    simp only [reduceCtorEq, false_iff]
    rintro rfl
    exact h (List.isSuffixOf_iff_suffix.mpr (List.suffix_append ..))

/-- A file name names the type that it is the name of, if that is not empty. -/
theorem decodeWith?_eq_some_iff :
    decodeWith? extension file = some t ↔ file = encodeWith extension t ∧ t ≠ "" := by
  simp only [decodeWith?, Option.bind_eq_bind, Option.bind_eq_some_iff, dropEnding?_eq_some_iff]
  constructor
  · rintro ⟨_, hfile, _, rfl, cs, rfl, hcs⟩
    split at hcs
    · cases hcs
    · rename_i hne
      obtain rfl := Option.some.inj hcs
      refine ⟨String.toList_injective ?_, fun hempty => hne ?_⟩
      · rw [hfile, toList_encodeWith, String.toList_ofList, List.append_assoc, List.append_assoc]
        rfl
      · rw [← String.toList_ofList (l := cs), hempty]
        rfl
  · rintro ⟨rfl, hne⟩
    refine ⟨t.toList ++ suffix.toList ++ ['.'], ?_, _, rfl, t.toList, rfl, ?_⟩
    · simp only [encodeWith, String.toList_append]
      rfl
    · rw [if_neg, String.ofList_toList]
      rwa [List.isEmpty_iff, String.toList_eq_nil_iff]

theorem decode?_eq_some_iff : decode? file = some t ↔ file = encode t ∧ t ≠ "" :=
  decodeWith?_eq_some_iff

/-! ### Both ways -/

/-- File names and nonempty device types are one for one: `encode` names the file of
a type, and `decode?` tells which type a file name names. -/
structure Exact (encode : String → String) (decode? : String → Option String) : Prop where
  decode_encode : ∀ t, t ≠ "" → decode? (encode t) = some t
  /-- The empty type has a name, but no file of that name is a module. -/
  decode_encode_empty : decode? (encode "") = none
  encode_decode : ∀ file t, decode? file = some t → t ≠ "" ∧ encode t = file
  injective : Function.Injective encode
  /-- The names that are read are the names of the nonempty types. -/
  accepted : ∀ file, (decode? file).isSome = true ↔ ∃ t, t ≠ "" ∧ encode t = file

/-- Whatever the extension is, file names and nonempty device types are one for one. -/
theorem exact_encodeWith (extension : String) :
    Exact (encodeWith extension) (decodeWith? extension) where
  decode_encode t ht := decodeWith?_eq_some_iff.mpr ⟨rfl, ht⟩
  decode_encode_empty := by
    rw [Option.eq_none_iff_forall_ne_some]
    intro t h
    obtain ⟨heq, hne⟩ := decodeWith?_eq_some_iff.mp h
    exact hne (encodeWith_injective heq).symm
  encode_decode file t h := by
    obtain ⟨rfl, hne⟩ := decodeWith?_eq_some_iff.mp h
    exact ⟨hne, rfl⟩
  injective t u := encodeWith_injective
  accepted file := by
    rw [Option.isSome_iff_exists]
    constructor
    · rintro ⟨t, h⟩
      obtain ⟨rfl, hne⟩ := decodeWith?_eq_some_iff.mp h
      exact ⟨t, hne, rfl⟩
    · rintro ⟨t, hne, rfl⟩
      exact ⟨t, decodeWith?_eq_some_iff.mpr ⟨rfl, hne⟩⟩

/-- Types that look like file names, and names that are none of a type. -/
example : decode? "a_op.so_op.so" = some "a_op.so" ∧ decode? "_op_op.so" = some "_op" ∧
    decode? "._op.so" = some "." ∧ decode? "_op.so" = none ∧ decode? "a_op.so." = none := by
  decide +kernel

/-! ### The name as a path -/

theorem slash_mem_encode_iff (t : String) : '/' ∈ (encode t).toList ↔ '/' ∈ t.toList := by
  rw [toList_encode, List.mem_append]
  exact or_iff_left (by decide)

/-- No file name of a type is the root or the directory itself. -/
theorem length_encode (t : String) : 6 ≤ (encode t).toList.length := by
  rw [toList_encode, List.length_append]
  exact Nat.le_add_left 6 _

theorem encode_ne (t : String) {s : String} (h : s.toList.length < 6) : encode t ≠ s := by
  rintro rfl
  exact absurd (length_encode t) (Nat.not_le.mpr h)

/-- The file name of a type is a path as absolute as the type. -/
theorem isAbsolute_encode (t : String) : Path.isAbsolute (encode t) = Path.isAbsolute t := by
  by_cases h : t = ""
  · subst h
    rfl
  · rw [encode, encodeWith, String.append_assoc, String.append_assoc, Path.isAbsolute_append h]

end ModuleName

end BlockTransfer
