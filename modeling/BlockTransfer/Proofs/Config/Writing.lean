import BlockTransfer.Config.Basic
import BlockTransfer.Toml.Printer
import BlockTransfer.Proofs.Toml.Lines
/-!
# The document of a configuration

A configuration is written in paragraphs, one for each section, and read back as the
table of its sections (`Config.read?_render?`). Only a missing default type is not
written; a configuration that has one is read back as the very table that was written
(`Config.document_eq_toValue`).

Key definitions: `Config.paragraphs`, `Config.document`, `Config.Printable`.
Key theorems: `Config.render?_toValue`, `Config.read?_render?`.
-/

namespace BlockTransfer

open Toml (Line quote)

namespace Config

variable {c : Config}

/-- The paragraphs of a configuration's document. -/
def paragraphs (c : Config) : List (List Line) :=
  [[.header ["plugins"], .entry "root" (quote c.pluginsRoot) (.text c.pluginsRoot)]] ++
  (match c.defaultType with
    | some t => [[.header ["device"], .entry "default_type" (quote t) (.text t)]]
    | none => []) ++
  [[.header ["device", "settings"],
    .entry "block_size" (toString (c.settings.blockSize : Int)) (.int c.settings.blockSize),
    .entry "queue_depth" (toString (c.settings.queueDepth : Int)) (.int c.settings.queueDepth),
    .entry "single_submit" (if c.settings.singleSubmit then "true" else "false")
      (.bool c.settings.singleSubmit),
    .entry "overlap_events" (if c.settings.overlapEvents then "true" else "false")
      (.bool c.settings.overlapEvents),
    .entry "thread_count" (toString (c.settings.threadCount : Int)) (.int c.settings.threadCount)],
  [.header ["lifecycle"],
    .entry "locked_buffers" (quote c.lockedBuffers.name) (.text c.lockedBuffers.name)]]

/-- The lines of a configuration's document. -/
def lines (c : Config) : List Line := List.intercalate [.blank] c.paragraphs

theorem readable_lines (c : Config) : ∀ l ∈ c.lines, l.Readable := by
  have hbare : ∀ k ∈ ["plugins", "root", "device", "default_type", "settings", "block_size",
      "queue_depth", "single_submit", "overlap_events", "thread_count", "lifecycle",
      "locked_buffers"], Toml.Bare k := by
    simp [Toml.Bare, Toml.isBareKeyChar]
  cases htype : c.defaultType <;>
    simp [lines, paragraphs, List.intercalate, htype, Line.Readable, Toml.reads_quote,
      Toml.reads_bool, hbare]
  all_goals exact ⟨Toml.reads_natural _, Toml.reads_natural _, Toml.reads_natural _⟩

/-- The document of a configuration: nothing is written for a missing default type. -/
def document (c : Config) : Value :=
  let defaultType := match c.defaultType with
    | some t => [("default_type", .text t)]
    | none => []
  .table [
    ("plugins", .table [("root", .text c.pluginsRoot)]),
    ("device", .table (defaultType ++ [("settings", settingsValue c.settings)])),
    ("lifecycle", .table [("locked_buffers", .text c.lockedBuffers.name)])]

/-- A default type that is there is written. -/
theorem document_eq_toValue (h : c.defaultType ≠ none) : c.document = c.toValue := by
  unfold document toValue
  cases htype : c.defaultType with
  | none => exact absurd htype h
  | some t => rfl

theorem document?_lines (c : Config) : Toml.document? c.lines = some c.document := by
  unfold lines paragraphs document
  cases c.defaultType <;> rfl

/-- The numbers of the configuration are numbers of a document. -/
structure Printable (c : Config) : Prop where
  blockSize : c.settings.blockSize < Word.signedLimit
  queueDepth : c.settings.queueDepth < Word.signedLimit
  threadCount : c.settings.threadCount < Word.signedLimit

theorem plain?_natural {n : Nat} (h : n < Word.signedLimit) :
    Toml.plain? (.int n) = some (toString (n : Int)) := by
  refine if_pos ⟨?_, ?_⟩
  · simp only [Toml.minInteger, Word.signedLimit]
    omega
  · simp only [Toml.maxInteger, Word.max, Word.count, Word.signedLimit] at h ⊢
    omega

theorem sections?_toValue (h : c.Printable) :
    Toml.sections? [] c.toValue = some (c.paragraphs.map fun lines => lines.map Line.text) := by
  have hblock := plain?_natural h.blockSize
  have hdepth := plain?_natural h.queueDepth
  have hthreads := plain?_natural h.threadCount
  unfold toValue settingsValue paragraphs
  cases c.defaultType <;>
    simp only [Toml.sections?, Toml.subsections?, Toml.section?, Toml.plainLines?, hblock, hdepth,
      hthreads] <;>
    rfl

/-- Empty lines between paragraphs are lines too. -/
theorem intercalate_paragraphs (paragraphs : List (List Line)) :
    "\n".intercalate (paragraphs.map fun lines => String.join (lines.map fun l => l.text ++ "\n")) =
      String.join ((List.intercalate [.blank] paragraphs).map fun l => l.text ++ "\n") := by
  induction paragraphs with
  | nil => rfl
  | cons lines paragraphs ih =>
    cases paragraphs with
    | nil => rw [List.map_singleton, String.intercalate_singleton, List.intercalate_singleton]
    | cons lines' paragraphs =>
      have hblank : String.join ([Line.blank].map fun l => l.text ++ "\n") = "\n" := rfl
      rw [List.intercalate_cons_cons, List.map_append, List.map_append, String.join_append,
        String.join_append, ← ih, hblank, List.map_cons, List.map_cons,
        String.intercalate_cons_cons]

/-- The document of a configuration is written if its numbers allow it. -/
theorem render?_toValue (h : c.Printable) :
    Toml.render? c.toValue = some (String.join (c.lines.map fun l => l.text ++ "\n")) := by
  rw [Toml.render?, sections?_toValue h, lines, ← intercalate_paragraphs]
  simp only [Option.bind_eq_bind, Option.bind_some, List.map_map, Function.comp_def]

/-- What is written of a configuration is read as its document, also with another line
break at the end. -/
theorem read?_render? (h : c.Printable) : ∃ text, Toml.render? c.toValue = some text ∧
    Toml.read? text = some c.document ∧ Toml.read? (text ++ "\n") = some c.document := by
  have hdocument := document?_lines c
  refine ⟨_, render?_toValue h, ?_, ?_⟩
  · rw [Toml.read?_lines (readable_lines c), hdocument]
  · have htext : String.join (c.lines.map fun l => l.text ++ "\n") ++ "\n" =
        String.join ((c.lines ++ [Line.blank]).map fun l => l.text ++ "\n") := by
      rw [List.map_append, String.join_append]
      rfl
    have hreadable : ∀ l ∈ c.lines ++ [Line.blank], l.Readable := by
      intro l hl
      rcases List.mem_append.mp hl with hl | hl
      · exact readable_lines c l hl
      · exact List.mem_singleton.mp hl ▸ trivial
    have hlines : Toml.document? (c.lines ++ [Line.blank]) = Toml.document? c.lines := by
      have hstatements : (c.lines ++ [Line.blank]).filterMap Line.statement? =
          c.lines.filterMap Line.statement? := by
        rw [List.filterMap_append]
        exact List.append_nil _
      rw [Toml.document?, hstatements]
      rfl
    rw [htext, Toml.read?_lines hreadable, hlines, hdocument]

end Config
end BlockTransfer
