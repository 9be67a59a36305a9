import BlockTransfer.Proofs.Dispatcher.Opening
import BlockTransfer.Proofs.Loader.Registering
import BlockTransfer.Proofs.Text.ByteOrder
/-!
# What is listed is what is loaded

A loader lists the registered types and, of the types with a module file in the
plugins root, those that are not registered. Each listed type is loaded from the
source that it is listed with: the factory that was offered first, or the module
file (`Loader.agreement`).

A module file whose type is registered is hidden from the listing and from a
load of its type. A load of another type does not come to it either, unless the
other type has a slash in it: as loading does not ask for a device type, `./t`
leads to the module file of `t` (`Loader.not_hidden_roundabout`).

Key definition: `Loader.Agreement`.
Key theorem: `Loader.agreement`.
-/

namespace BlockTransfer

variable {W D : Type}

/-! ### Files in a directory -/

/-- What is listed are the entries right in the directory that are not
directories themselves. -/
theorem FileSystem.mem_listFiles {fs : FileSystem} {root name : String} :
    name ∈ fs.listFiles root ↔ ∃ directory e, fs.resolve .find root = .ok (.directory directory) ∧
      (directory ++ [name], e) ∈ fs.entries ∧ e ≠ .directory := by
  unfold listFiles
  split
  · rename_i directory hroot
    simp only [hroot, Except.ok.injEq, Found.directory.injEq, List.mem_filterMap]
    constructor
    · rintro ⟨⟨key, e⟩, hmem, hname⟩
      dsimp only at hname
      split at hname
      · rename_i he
        obtain rfl := he.2
        exact ⟨_, e, rfl, by rwa [List.dropLast_append_getLast? _ hname], he.1⟩
      · cases hname
    · rintro ⟨_, e, rfl, hmem, he⟩
      exact ⟨(directory ++ [name], e), hmem, by simp [he]⟩
  · rename_i hroot
    simp only [List.not_mem_nil, false_iff]
    rintro ⟨directory, e, h, -⟩
    exact hroot directory h

/-! ### Discovered types -/

namespace Discovery

variable {t u : String} {ts files : List String}

theorem mem_insertType : u ∈ insertType t ts ↔ u = t ∨ u ∈ ts := by
  induction ts with
  | nil => simp [insertType]
  | cons v ts ih =>
    rw [insertType]
    split_ifs with hlt heq
    · exact List.mem_cons
    · rw [← heq, List.mem_cons, ← or_assoc, or_self]
    · rw [List.mem_cons, ih, List.mem_cons, or_left_comm]

theorem pairwise_insertType (h : ts.Pairwise (· < ·)) : (insertType t ts).Pairwise (· < ·) := by
  induction ts with
  | nil => exact List.pairwise_singleton _ _
  | cons v ts ih =>
    obtain ⟨hv, hts⟩ := List.pairwise_cons.mp h
    rw [insertType]
    split_ifs with hlt heq
    · exact List.pairwise_cons.mpr
        ⟨List.forall_mem_cons.mpr ⟨hlt, fun u hu => lt_trans hlt (hv u hu)⟩, h⟩
    · exact h
    · refine List.pairwise_cons.mpr ⟨fun u hu => ?_, ih hts⟩
      rcases mem_insertType.mp hu with rfl | hu
      · exact lt_of_le_of_ne (not_lt.mp hlt) (Ne.symm heq)
      · exact hv u hu

theorem mem_ofFileNames : t ∈ ofFileNames files ↔ ModuleName.encode t ∈ files ∧ t ≠ "" := by
  have hsort (ts : List String) : t ∈ sortTypes ts ↔ t ∈ ts := by
    induction ts with
    | nil => rfl
    | cons u ts ih => rw [sortTypes, List.foldr_cons, mem_insertType, List.mem_cons, ← ih]; rfl
  simp only [ofFileNames, hsort, List.mem_filterMap, ModuleName.decode?_eq_some_iff]
  constructor
  · rintro ⟨_, hmem, rfl, hne⟩
    exact ⟨hmem, hne⟩
  · rintro ⟨hmem, hne⟩
    exact ⟨_, hmem, rfl, hne⟩

theorem pairwise_ofFileNames (files : List String) : (ofFileNames files).Pairwise (· < ·) :=
  List.foldrRecOn (files.filterMap ModuleName.decode?) insertType
    (motive := List.Pairwise (· < ·)) List.Pairwise.nil fun _ h _ _ => pairwise_insertType h

end Discovery

/-! ### The listing -/

namespace Loader

variable {P : Platform W D} {l : Loader W D} {w : W} {t : String} {a : AvailableDevice}

/-- The devices are in strictly increasing order of their types. -/
def Increasing (as : List AvailableDevice) : Prop :=
  as.Pairwise fun a b => a.deviceType < b.deviceType

theorem insertAvailable_eq (a : AvailableDevice) (as : List AvailableDevice) :
    insertAvailable a as = as.orderedInsert (fun a b => a.deviceType < b.deviceType) a := by
  induction as with
  | nil => rfl
  | cons b as ih => rw [insertAvailable, ih, List.orderedInsert_cons]

/-- Devices that are put in one by one are all there. -/
theorem mem_foldl_insertAvailable {as bs : List AvailableDevice} :
    a ∈ as.foldl (fun all a => insertAvailable a all) bs ↔ a ∈ as ∨ a ∈ bs := by
  induction as generalizing bs with
  | nil => simp
  | cons b as ih =>
    rw [List.foldl_cons, ih, insertAvailable_eq, List.mem_orderedInsert, List.mem_cons,
      or_left_comm, or_assoc]

/-- Devices of new and different types can be put in one by one. -/
theorem increasing_foldl_insertAvailable {as bs : List AvailableDevice} (hbs : Increasing bs)
    (has : (as.map (·.deviceType)).Nodup)
    (hnew : ∀ a ∈ as, ∀ b ∈ bs, b.deviceType ≠ a.deviceType) :
    Increasing (as.foldl (fun all a => insertAvailable a all) bs) := by
  induction as generalizing bs with
  | nil => exact hbs
  | cons a as ih =>
    obtain ⟨hfirst, hrest⟩ := List.forall_mem_cons.mp hnew
    obtain ⟨ha, has⟩ := List.nodup_cons.mp has
    rw [List.foldl_cons, insertAvailable_eq]
    refine ih (pairwise_orderedInsert hbs hfirst) has fun c hc b hb heq => ?_
    rcases (List.mem_orderedInsert _).mp hb with rfl | hb
    · exact ha (List.mem_map.mpr ⟨c, hc, heq.symm⟩)
    · exact hrest c hc b hb heq

/-- A type is listed as builtin if it is registered. -/
theorem builtin_mem_available : ⟨t, none⟩ ∈ l.available P w ↔
    (l.registry.get? t).isSome = true := by
  simp [available, mem_foldl_insertAvailable, Registry.mem_types_iff]

/-- A type is listed as a module if it is not registered and its file is in the root. -/
theorem module_mem_available {path : String} : ⟨t, some path⟩ ∈ l.available P w ↔
    l.registry.get? t = none ∧ t ≠ "" ∧ ModuleName.encode t ∈ P.listFiles l.root w ∧
      path = l.modulePath t := by
  simp only [available, mem_foldl_insertAvailable, List.mem_map, List.mem_filter, discovered,
    Discovery.mem_ofFileNames, Registry.contains, Bool.not_eq_true', Option.isSome_eq_false_iff,
    Option.isNone_iff_eq_none, AvailableDevice.mk.injEq, Option.some.injEq, reduceCtorEq, and_false,
    exists_false, or_false]
  constructor
  · rintro ⟨_, ⟨⟨hmem, hne⟩, hget⟩, rfl, rfl⟩
    exact ⟨hget, hne, hmem, rfl⟩
  · rintro ⟨hget, hne, hmem, rfl⟩
    exact ⟨t, ⟨⟨hmem, hne⟩, hget⟩, rfl, rfl⟩

theorem increasing_available (h : l.registry.Ordered) : Increasing (l.available P w) := by
  refine increasing_foldl_insertAvailable ?_ ?_ ?_
  · rw [Increasing, List.pairwise_map]
    exact h
  · have hnodup : (l.discovered P w).Nodup := (Discovery.pairwise_ofFileNames _).imp ne_of_lt
    rw [List.map_map]
    exact (hnodup.filter _).map fun _ _ => id
  · simp only [List.mem_map, List.mem_filter, Registry.mem_types_iff, Registry.contains,
      Bool.not_eq_true']
    rintro _ ⟨t, ⟨-, ht⟩, rfl⟩ _ ⟨u, hu, rfl⟩ rfl
    rw [ht] at hu
    cases hu

/-! ### Listing and loading -/

/-- A loader whose registry was built by offering factories to it in order. -/
def ofOffers (root : String) (offers : List (String × Factory W D)) (settings : DeviceSettings) :
    Loader W D := ⟨root, Registry.registerAll offers, settings⟩

/-- A registered type is loaded by its factory, and no library is opened. -/
theorem load_of_get? {create : Factory W D} (h : l.registry.get? t = some create) (w : W) :
    l.load P t w = ((instantiate create t l.settings w).1.map fun device => ⟨device, t, .builtin⟩,
      (instantiate create t l.settings w).2) ∧ l.opened P t w = [] := by
  constructor
  · unfold load
    simp only [h]
    rcases instantiate create t l.settings w with ⟨_ | _, w'⟩ <;> rfl
  · refine List.eq_nil_iff_forall_not_mem.mpr fun path hpath => ?_
    rw [mem_opened_iff, h] at hpath
    cases hpath.1

/-- A type with `./` before it leads to the module of the type. -/
theorem parts_modulePath_roundabout (hroot : l.root ≠ "") (ht : '/' ∉ t.toList) :
    Path.parts (l.modulePath ("./" ++ t)) = Path.parts (l.modulePath t) := by
  have hencode : ModuleName.encode ("./" ++ t) = "." ++ "/" ++ ModuleName.encode t := by
    simp only [ModuleName.encode, ModuleName.encodeWith, String.append_assoc]
    rfl
  have hsegments : Path.segments (ModuleName.encode t) = [ModuleName.encode t] :=
    Path.segments_of_notMem (mt (ModuleName.slash_mem_encode_iff t).mp ht)
  have hbelow : Path.below (ModuleName.encode ("./" ++ t)) = [ModuleName.encode t] := by
    rw [Path.below, hencode, Path.segments_append_slash, hsegments]
    simp [show Path.segments "." = ["."] from rfl, ModuleName.encode_ne]
  rw [parts_modulePath_iff.mpr ht, parts_modulePath_of_relative hroot, hbelow]
  exact Path.isAbsolute_append (by decide) t

/-- Listing and loading agree. Devices are listed in increasing byte order of their
types; the builtin ones are those that were registered, which are the device types
that were offered; the others are those with a module file in the root. What is
listed is what is loaded. No type without a slash has the module file of a
registered type opened; a registered type with `./` before it has, as far as paths
go. -/
structure Agreement (P : Platform W D) (root : String) (offers : List (String × Factory W D))
    (settings : DeviceSettings) (w : W) : Prop where
  increasing : (((ofOffers root offers settings).available P w).map fun a =>
    Utf8.bytes a.deviceType).Pairwise (· < ·)
  builtin : ∀ t, ⟨t, none⟩ ∈ (ofOffers root offers settings).available P w ↔
    Registry.Accepts offers t
  accepted : ∀ t, Registry.Accepts offers t ↔
    (t ≠ "" ∧ ∀ c ∈ t.toList, ('a' ≤ c ∧ c ≤ 'z') ∨ ('0' ≤ c ∧ c ≤ '9') ∨ c = '_') ∧
      ∃ f, (t, f) ∈ offers
  module : ∀ t path, ⟨t, some path⟩ ∈ (ofOffers root offers settings).available P w ↔
    ¬Registry.Accepts offers t ∧ t ≠ "" ∧ ModuleName.encode t ∈ P.listFiles root w ∧
      path = Path.join root (ModuleName.encode t)
  files : ∀ files : W → FileSystem, (∀ w, P.listFiles root w = (files w).listFiles root) →
    ∀ name, name ∈ P.listFiles root w ↔ ∃ directory e,
      (files w).resolve .find root = .ok (.directory directory) ∧
        (directory ++ [name], e) ∈ (files w).entries ∧ e ≠ .directory
  loadBuiltin : ∀ t, ⟨t, none⟩ ∈ (ofOffers root offers settings).available P w →
    ∃ earlier create later, offers = earlier ++ (t, create) :: later ∧
      (∀ x ∈ earlier, x.1 ≠ t) ∧ ∀ w',
      (ofOffers root offers settings).load P t w' =
        ((instantiate create t settings w').1.map fun device => ⟨device, t, .builtin⟩,
          (instantiate create t settings w').2) ∧
      (ofOffers root offers settings).opened P t w' = []
  loadModule : ∀ t path, ⟨t, some path⟩ ∈ (ofOffers root offers settings).available P w →
    ∀ w', (ofOffers root offers settings).load P t w' = loadModule P settings t path w' ∧
      ∀ path' ∈ (ofOffers root offers settings).opened P t w', path' = path
  hidden : ∀ t, Registry.Accepts offers t → ∀ u, '/' ∉ u.toList → ∀ w',
    ∀ path ∈ (ofOffers root offers settings).opened P u w',
      Path.parts path ≠ Path.parts ((ofOffers root offers settings).modulePath t)
  roundabout : root ≠ "" → ∀ t, Registry.Accepts offers t →
    Path.parts ((ofOffers root offers settings).modulePath ("./" ++ t)) =
        Path.parts ((ofOffers root offers settings).modulePath t) ∧
      ¬Registry.Accepts offers ("./" ++ t)

theorem slash_notMem_of_accepts {offers : List (String × Factory W D)}
    (h : Registry.Accepts offers t) : '/' ∉ t.toList := by
  intro hslash
  rcases (Registry.isValidType_iff.mp (Registry.accepts_iff.mp h).1).2 '/' hslash with h | h | h
  · exact absurd h.1 (by decide)
  · exact absurd h.1 (by decide)
  · cases h

theorem agreement (P : Platform W D) (root : String) (offers : List (String × Factory W D))
    (settings : DeviceSettings) (w : W) : Agreement P root offers settings w where
  increasing := by
    rw [List.pairwise_map]
    exact (increasing_available (l := ofOffers root offers settings)
      (Registry.ordered_registerAll offers)).imp Utf8.lt_iff_bytes_lt.mp
  builtin t := by rw [builtin_mem_available, ← Registry.isSome_get?_registerAll]; rfl
  accepted t := by rw [Registry.accepts_iff, Registry.isValidType_iff]
  module t path := by
    rw [module_mem_available, ← Registry.isSome_get?_registerAll, Option.not_isSome_iff_eq_none]
    rfl
  files files hfiles name := by rw [hfiles, FileSystem.mem_listFiles]
  loadBuiltin t ht := by
    obtain ⟨create, hget⟩ := Option.isSome_iff_exists.mp (builtin_mem_available.mp ht)
    have hlookup : offers.lookup t = some create := by
      have hheld := Registry.get?_registerAll offers t
      rw [show (Registry.registerAll offers).get? t = some create from hget] at hheld
      split at hheld
      · exact hheld.symm
      · cases hheld
    obtain ⟨earlier, later, hoffers, hearlier⟩ := List.lookup_eq_some_iff.mp hlookup
    exact ⟨earlier, create, later, hoffers,
      fun x hx => Ne.symm (bne_iff_ne.mp (hearlier x hx)), load_of_get? hget⟩
  loadModule t path ht w' := by
    obtain ⟨hget, -, -, rfl⟩ := module_mem_available.mp ht
    refine ⟨?_, fun path' hpath' => (mem_opened_iff.mp hpath').2.1⟩
    unfold load
    rw [hget]
    rfl
  hidden t ht u hu w' path hpath := by
    obtain ⟨hget, rfl, -⟩ := mem_opened_iff.mp hpath
    rw [parts_modulePath_iff.mpr hu, parts_modulePath_iff.mpr (slash_notMem_of_accepts ht)]
    intro heq
    obtain rfl := ModuleName.encode_injective (List.singleton_inj.mp (List.append_cancel_left heq))
    rw [← Registry.isSome_get?_registerAll] at ht
    rw [show (ofOffers root offers settings).registry = Registry.registerAll offers from rfl]
      at hget
    rw [hget] at ht
    cases ht
  roundabout hroot t ht := by
    have hslash := slash_notMem_of_accepts ht
    refine ⟨parts_modulePath_roundabout hroot hslash, fun h => slash_notMem_of_accepts h ?_⟩
    rw [String.toList_append]
    exact List.mem_append_left _ (by decide)

/-! ### The module file of a registered type

The posix backend is registered, and a module of its type stands in the root. -/

namespace HiddenModule

def files : FileSystem :=
  { entries := [(["plugins"], .directory),
      (["plugins", "posix_op.so"], .file Custody.TwoCopies.image.encode)] }

def world : World := { storage := { files }, nextPool := 1 }

def loader : Loader World Device :=
  ofOffers "plugins" [(PosixDevice.typeName, Device.createPosix)] {}

end HiddenModule

/-- The type `posix` is registered and its module is not listed, but loading the
type `./posix` opens the module file of `posix` and takes the device from it. -/
theorem not_hidden_roundabout :
    HiddenModule.loader.available Device.platform HiddenModule.world = [⟨"posix", none⟩] ∧
      (HiddenModule.loader.load Device.platform "./posix" HiddenModule.world).1.toOption.map
        (·.origin.path?) = some (some "plugins/./posix_op.so") ∧
      "plugins/./posix_op.so" ∈
        HiddenModule.loader.opened Device.platform "./posix" HiddenModule.world ∧
      Path.parts "plugins/./posix_op.so" =
        Path.parts (HiddenModule.loader.modulePath "posix") ∧
      HiddenModule.files.resolve .find "plugins/./posix_op.so" =
        HiddenModule.files.resolve .find (HiddenModule.loader.modulePath "posix") := by
  have hpath : HiddenModule.loader.modulePath "./posix" = "plugins/./posix_op.so" := by
    decide +kernel
  have hloaded := Dispatcher.load_image (l := HiddenModule.loader) (t := "./posix")
    (w := HiddenModule.world) (p := ["plugins", "posix_op.so"]) rfl rfl rfl rfl
    (by decide +kernel) (by decide +kernel) (by decide +kernel) rfl
  rw [hpath] at hloaded
  exact ⟨by decide +kernel, hloaded.1, hloaded.2, by decide +kernel, by decide +kernel⟩

end Loader
end BlockTransfer
