import BlockTransfer.Proofs.Config.Complete
import BlockTransfer.Proofs.Config.Writing
/-!
# Reading a configuration that was written

A configuration that is written as a document and read again keeps its plugins root, its
settings, its policy and a default type, be that one empty or not. A missing default type
is not written, and a section that does not give one has the type `posix`: a configuration
that loads no device at the start becomes one that loads that device
(`Config.written_then_read`).

Key definitions: `Config.ofToml?`, `Config.reread`.
Key theorem: `Config.written_then_read`.
-/

namespace BlockTransfer
namespace Config

variable {c : Config}

/-- Reads a configuration from the text of a document. -/
def ofToml? (text : String) : Option Config := (Toml.read? text).bind (ofValue? .toml)

/-- A configuration with a missing default type given the default. -/
def reread (c : Config) : Config := { c with defaultType := c.defaultType.or (some "posix") }

theorem reread_eq_self_iff : c.reread = c ↔ c.defaultType ≠ none := by
  constructor
  · intro h htype
    have hsame : c.defaultType.or (some "posix") = c.defaultType := congrArg Config.defaultType h
    rw [htype] at hsame
    cases hsame
  · intro htype
    obtain ⟨t, ht⟩ := Option.ne_none_iff_exists'.mp htype
    rw [reread, ht, Option.some_or, ← ht]

/-- The device that is loaded at the start changes only from none to the default. -/
theorem defaultDevice?_reread : c.reread.defaultDevice? =
    if c.defaultType = none then some "posix" else c.defaultDevice? := by
  unfold defaultDevice? reread
  cases c.defaultType <;> rfl

theorem natural_int {n : Nat} (h : n < Word.signedLimit) :
    ReadingRules.toml.natural (.int n) = some n := by
  refine if_pos ⟨Int.natCast_nonneg n, ?_⟩
  rw [Int.toNat_natCast]
  simp only [ReadingRules.maxNatural, Word.max, Word.count, Word.signedLimit] at h ⊢
  omega

/-- A document is read as the configuration that it was written for, with the default for a
missing default type. -/
theorem ofValue?_document (h : c.Printable) : ofValue? .toml c.document = some c.reread := by
  have hsettings : DeviceSettings.ofValue? .toml (settingsValue c.settings) = some c.settings :=
    DeviceSettings.ofValue?_table_iff.mpr ⟨natural_int h.blockSize, natural_int h.queueDepth,
      rfl, rfl, natural_int h.threadCount⟩
  have hpolicy : readPolicy .toml (.text c.lockedBuffers.name) = some c.lockedBuffers := by
    cases c.lockedBuffers <;> rfl
  have hdevice : readField (some "posix", {}) (readDevice .toml)
      ((Layer.entriesOf c.document).lookup "device") = some (c.reread.defaultType, c.settings) := by
    unfold document reread
    cases c.defaultType with
    | none => exact readDevice_table_iff.mpr ⟨rfl, hsettings⟩
    | some t => exact readDevice_table_iff.mpr ⟨rfl, hsettings⟩
  exact ofValue?_table_iff.mpr ⟨rfl, hdevice, (readLifecycle_table _ _).trans hpolicy⟩

/-- A configuration that was written is read as it was, except that a missing default type
has become the default; and only then another device is loaded at the start. -/
theorem written_then_read (h : c.Printable) : ∃ text, Toml.render? c.toValue = some text ∧
    ofToml? text = some c.reread ∧ (c.reread = c ↔ c.defaultType ≠ none) ∧
    (c.reread.defaultDevice? = c.defaultDevice? ↔ c.defaultType ≠ none) := by
  obtain ⟨text, hrender, hread, -⟩ := read?_render? h
  refine ⟨text, hrender, ?_, reread_eq_self_iff, ?_⟩
  · rw [ofToml?, hread]
    exact ofValue?_document h
  · rw [defaultDevice?_reread]
    split
    case isTrue htype =>
      refine ⟨fun hsame => ?_, fun hne => absurd htype hne⟩
      rw [defaultDevice?, htype] at hsame
      cases hsame
    case isFalse htype => exact ⟨fun _ => htype, fun _ => rfl⟩

/-- A root that no style quotes without an escape, an empty default type, and the greatest
number of a document. -/
def strange : Config where
  pluginsRoot := "a'\"\\b\t\x07é"
  defaultType := some ""
  settings := { blockSize := 0, queueDepth := Word.signedLimit - 1 }
  lockedBuffers := .warn

theorem written_then_read_strange : strange.Printable ∧ strange.reread = strange ∧
    ∃ text, Toml.render? strange.toValue = some text ∧ ofToml? text = some strange := by
  have hprintable : strange.Printable := ⟨by decide, by decide, by decide⟩
  obtain ⟨text, hrender, hread, hsame, -⟩ := written_then_read hprintable
  have hself : strange.reread = strange := hsame.mpr (by decide)
  exact ⟨hprintable, hself, text, hrender, hself ▸ hread⟩

/-! ### A configuration without a default type -/

def noDevice : Config := { defaultType := none }

def noDeviceText : String :=
  "[plugins]\nroot = \"plugins\"\n\n[device.settings]\nblock_size = 1048576\n" ++
    "queue_depth = 128\nsingle_submit = false\noverlap_events = true\nthread_count = 1\n\n" ++
    "[lifecycle]\nlocked_buffers = \"refuse\"\n"

/-- What is written without a default type is read as the default configuration, which asks
for a device. -/
theorem not_kept_without_default_type :
    noDevice.Printable ∧ Toml.render? noDevice.toValue = some noDeviceText ∧
      ofToml? noDeviceText = some {} ∧ noDevice ≠ {} ∧
      noDevice.defaultDevice? = none ∧ defaultDevice? {} = some "posix" :=
  ⟨⟨by decide, by decide, by decide⟩, by decide +kernel, by decide +kernel, by decide, by decide,
    by decide⟩

end Config
end BlockTransfer
