import BlockTransfer.Dispatcher
import BlockTransfer.Value
/-!
# Configurations

Where modules are looked for, which device is loaded at the start and with which
settings, and what a switch does about locked buffers. An empty default type
asks for no device, as a missing one does.

Key definitions: `Config`, `Config.defaultDevice?`, `Config.resolvePaths`,
`Config.check`, `Config.toValue`.
-/

namespace BlockTransfer

/-- A configuration. -/
structure Config where
  /-- The directory of the device modules. -/
  pluginsRoot : String := "plugins"
  /-- The device type to load at the start. -/
  defaultType : Option String := some "posix"
  settings : DeviceSettings := {}
  lockedBuffers : LockedBufferPolicy := .refuse
  deriving DecidableEq, Repr

/-- Why there is no usable configuration. -/
inductive ConfigError where
  /-- A file does not parse. -/
  | build
  /-- A value is of the wrong type. -/
  | conversion
  /-- The values are of the right types and break a rule. -/
  | invalid (text : String)
  /-- The user's directories are not known. -/
  | userDirectory (text : String)
  deriving DecidableEq, Repr

/-- The wording of the error. -/
def ConfigError.message : ConfigError → String
  | build => "Failed to build configuration"
  | conversion => "Failed to deserialize configuration"
  | invalid text => s!"Invalid configuration: {text}"
  | userDirectory text => s!"XDG directory error: {text}"

namespace Config

/-- The device type to load at the start, if there is one. -/
def defaultDevice? (c : Config) : Option String := c.defaultType.filter (!·.isEmpty)

/-- The configuration with a relative plugins root taken from a directory. -/
def resolvePaths (c : Config) (base : String) : Config :=
  if Path.isAbsolute c.pluginsRoot then c
  else { c with pluginsRoot := Path.join base c.pluginsRoot }

/-- Whether the device settings break a rule. -/
def check (c : Config) : Except ConfigError Unit :=
  match c.settings.check with
  | .ok () => .ok ()
  | .error fault =>
    let text := (DeviceError.invalidSettings fault).message
    .error (.invalid s!"[device.settings] {text}")

/-- The dispatcher that a configuration asks for, with its default device
loaded. -/
def dispatcher {W D : Type} (P : Platform W D) (registry : Registry W D) (c : Config) (w : W) :
    Except DispatchError (Dispatcher W D) × W :=
  let d : Dispatcher W D :=
    { loader := ⟨c.pluginsRoot, registry, c.settings⟩, policy := c.lockedBuffers }
  match c.defaultDevice? with
  | none => (.ok d, w)
  | some t =>
    match d.load P t w with
    | (.error e, _, w) => (.error e, w)
    | (.ok (), d, w) => (.ok d, w)

/-- The settings as a table. -/
def settingsValue (s : DeviceSettings) : Value :=
  .table [
    ("block_size", .int s.blockSize),
    ("queue_depth", .int s.queueDepth),
    ("single_submit", .bool s.singleSubmit),
    ("overlap_events", .bool s.overlapEvents),
    ("thread_count", .int s.threadCount)]

/-- The configuration as a table of sections. -/
def toValue (c : Config) : Value :=
  let defaultType := match c.defaultType with
    | some t => .text t
    | none => .nil
  .table [
    ("plugins", .table [("root", .text c.pluginsRoot)]),
    ("device", .table [("default_type", defaultType), ("settings", settingsValue c.settings)]),
    ("lifecycle", .table [("locked_buffers", .text c.lockedBuffers.name)])]

end Config
end BlockTransfer
