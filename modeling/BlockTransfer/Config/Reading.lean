import BlockTransfer.Config.Basic
import BlockTransfer.Word
/-!
# Reading a configuration from a value

A section is a table, whose unknown keys are ignored, or a list, whose items
are the section's fields in order; a field that is not given has its default.
What counts as a number, a switch, a text or a choice differs between the
sources: a document is read strictly, and what comes out of several layers is
read leniently, because the environment knows only texts. The differences are
one record, `ReadingRules`.

Key definitions: `ReadingRules`, `ReadingRules.json`, `ReadingRules.toml`,
`ReadingRules.lenient`, `Config.ofValue?`.
-/

namespace BlockTransfer

/-- What counts as a value of which type. -/
structure ReadingRules where
  natural : Value → Option Nat
  switch : Value → Option Bool
  text : Value → Option String
  /-- A text that may be given as nothing. -/
  optionalText : Value → Option (Option String)
  /-- The name of one of several alternatives. -/
  choice : Value → Option String
  /-- Whether a list for a section may have more items than the section has
  fields. -/
  surplus : Bool

namespace ReadingRules

/-- The greatest number of a field. -/
def maxNatural : Nat := Word.max

/-- A whole number of a field's range. -/
def strictNatural : Value → Option Nat
  | .int i => if 0 ≤ i ∧ i.toNat ≤ maxNatural then some i.toNat else none
  | _ => none

def strictSwitch : Value → Option Bool
  | .bool b => some b
  | _ => none

def strictText : Value → Option String
  | .text s => some s
  | _ => none

/-- JSON: an alternative may be the key of a table whose only value is null. -/
def json : ReadingRules where
  natural := strictNatural
  switch := strictSwitch
  text := strictText
  optionalText
    | .nil => some none
    | v => (strictText v).map some
  choice
    | .text s => some s
    | .table [(k, .nil)] => some k
    | _ => none
  surplus := false

/-- TOML: an alternative may be the key of a table whose only value is empty. -/
def toml : ReadingRules where
  natural := strictNatural
  switch := strictSwitch
  text := strictText
  optionalText v := (strictText v).map some
  choice
    | .text s => some s
    | .table [(k, .table [])] => some k
    | .table [(k, .list [])] => some k
    | _ => none
  surplus := true

/-- A word in lower case that stands for yes or no. -/
def word? (s : String) : Option Bool :=
  match s.map Char.toLower with
  | "true" | "on" | "yes" => some true
  | "false" | "off" | "no" => some false
  | _ => none

def naturalOfText (s : String) : Option Nat :=
  match word? s with
  | some b => some b.toNat
  | none => Literal.natural? maxNatural s.toList

def switchOfText (s : String) : Option Bool :=
  if s == "1" then some true else if s == "0" then some false else word? s

/-- The text of a value that is written in one piece. -/
def textOf : Value → Option String
  | .text s | .datetime s => some s
  | .bool b => some (if b then "true" else "false")
  | .int i => some (toString i)
  | .float x => some x.render
  | _ => none

/-- Layers: numbers, truth values and texts stand for one another where that
makes sense. -/
def lenient : ReadingRules where
  natural
    | .int i => if 0 ≤ i then some i.toNat else none
    | .bool b => some b.toNat
    | .float x => some (x.toNatClamped maxNatural)
    | .text s | .datetime s => naturalOfText s
    | _ => none
  switch
    | .bool b => some b
    | .int i => some (i != 0)
    | .float x => some (!x.isZero)
    | .text s | .datetime s => switchOfText s
    | _ => none
  text := textOf
  optionalText
    | .nil => some none
    | v => (textOf v).map some
  choice
    | .text s | .datetime s => some s
    | .table [(k, _)] => some k
    | _ => none
  surplus := true

/-- The values given for a section's fields, in the order of their names. -/
def fields? (rules : ReadingRules) (names : List String) (v : Value) :
    Option (List (Option Value)) :=
  match v with
  | .table entries => some (names.map fun name => entries.lookup name)
  | .list items =>
    if items.length ≤ names.length ∨ rules.surplus then
      some ((List.range names.length).map fun i => items[i]?)
    else none
  | _ => none

end ReadingRules

/-- The value of a field: the default if it is not given. -/
def readField {α : Type} (default : α) (read : Value → Option α) : Option Value → Option α
  | none => some default
  | some v => read v

/-- Reads device settings. -/
def DeviceSettings.ofValue? (rules : ReadingRules) (v : Value) : Option DeviceSettings := do
  let defaults : DeviceSettings := {}
  let names := ["block_size", "queue_depth", "single_submit", "overlap_events", "thread_count"]
  match ← rules.fields? names v with
  | [block, depth, single, overlap, threads] =>
    let blockSize ← readField defaults.blockSize rules.natural block
    let queueDepth ← readField defaults.queueDepth rules.natural depth
    let singleSubmit ← readField defaults.singleSubmit rules.switch single
    let overlapEvents ← readField defaults.overlapEvents rules.switch overlap
    let threadCount ← readField defaults.threadCount rules.natural threads
    some { blockSize, queueDepth, singleSubmit, overlapEvents, threadCount }
  | _ => none

namespace Config

/-- Reads the plugins section. -/
def readPlugins (rules : ReadingRules) (v : Value) : Option String := do
  match ← rules.fields? ["root"] v with
  | [root] => readField ({} : Config).pluginsRoot rules.text root
  | _ => none

/-- Reads the device section. -/
def readDevice (rules : ReadingRules) (v : Value) : Option (Option String × DeviceSettings) := do
  match ← rules.fields? ["default_type", "settings"] v with
  | [defaultType, settings] =>
    let defaultType ← readField ({} : Config).defaultType rules.optionalText defaultType
    let settings ← readField {} (DeviceSettings.ofValue? rules) settings
    some (defaultType, settings)
  | _ => none

/-- Reads the name of a policy. -/
def readPolicy (rules : ReadingRules) (v : Value) : Option LockedBufferPolicy := do
  let name ← rules.choice v
  LockedBufferPolicy.ofName? name

/-- Reads the lifecycle section. -/
def readLifecycle (rules : ReadingRules) (v : Value) : Option LockedBufferPolicy := do
  match ← rules.fields? ["locked_buffers"] v with
  | [policy] => readField ({} : Config).lockedBuffers (readPolicy rules) policy
  | _ => none

/-- Reads a configuration. -/
def ofValue? (rules : ReadingRules) (v : Value) : Option Config := do
  let defaults : Config := {}
  match ← rules.fields? ["plugins", "device", "lifecycle"] v with
  | [plugins, device, lifecycle] =>
    let pluginsRoot ← readField defaults.pluginsRoot (readPlugins rules) plugins
    let (defaultType, settings) ←
      readField (defaults.defaultType, defaults.settings) (readDevice rules) device
    let lockedBuffers ← readField defaults.lockedBuffers (readLifecycle rules) lifecycle
    some { pluginsRoot, defaultType, settings, lockedBuffers }
  | _ => none

end Config
end BlockTransfer
