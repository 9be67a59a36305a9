import BlockTransfer.Cli.Arguments
import BlockTransfer.Config.Layers
import BlockTransfer.Device
import BlockTransfer.Json.Printer
import BlockTransfer.Text.Table
import BlockTransfer.Toml.Printer
/-!
# The program

Every command works on the `World` and on the environment, and leaves a world
behind: what it printed, and either success or the message of what went wrong. A
transfer's running time stands in the output as a gap (`Piece.elapsed`), because
it is not known here.

Key definitions: `Program.run`, `Program.Report`.
-/

namespace BlockTransfer
namespace Program

/-- The version of the program. -/
def version : String := "0.3.0"

/-- A piece of output. -/
inductive Piece where
  | text (s : String)
  /-- The running time of a transfer, in seconds. -/
  | elapsed
  deriving DecidableEq, Repr

/-- The output with the running time filled in. -/
def fillIn (seconds : String) (pieces : List Piece) : String :=
  String.join (pieces.map fun
    | .text s => s
    | .elapsed => seconds)

/-- What a command prints, or the message of what went wrong. -/
abbrev Report := Except String (List Piece)

/-- The exit status of a run, what it printed, and the message of its error. -/
structure Outcome where
  status : Nat
  output : List Piece
  error : Option String
  deriving DecidableEq, Repr

/-! ### Styles -/

/-- A text between a style's code and the one that ends it, unless colours are
off. -/
def styled (noColor : Bool) (code text : String) : String :=
  if noColor then text else "\x1b[" ++ code ++ "m" ++ text ++ "\x1b[0m"

/-- The mark before a line that reports a success. -/
def tick (noColor : Bool) : String := styled noColor "32;1" "✓"

/-- The line of a hint. -/
def hint (noColor : Bool) (text : String) : String :=
  styled noColor "2" "→" ++ " " ++ styled noColor "2" text ++ "\n"

/-! ### The configuration and the device of a command -/

/-- Where the configuration of a command comes from. -/
def sources (i : Invocation) (env : Variables) (w : World) : ConfigSources where
  files := w.storage.files
  environment := env
  projectDirectory := i.project
  arrangement := w.host.arrangement
  userDirectory? := ConfigFile.userDirectory? w.host.home?

/-- The configuration of the project. -/
def config (i : Invocation) (env : Variables) (w : World) :
    Except String Config :=
  match (sources i env w).load with
  | .ok c => .ok c
  | .error _ => .error s!"Failed to load configuration from {i.project}"

/-- The dispatcher with the selected device loaded. -/
def dispatcher (i : Invocation) (env : Variables) (w : World) :
    Except String (Dispatcher World Device) × World :=
  match config i env w with
  | .error message => (.error message, w)
  | .ok c =>
    let c := match i.device with
      | some t => { c with defaultType := some t }
      | none => c
    match c.dispatcher Device.platform Device.registry w with
    | (.error _, w) => (.error "Failed to load device", w)
    | (.ok d, w) =>
      if d.isLoaded then (.ok d, w)
      else (.error "No device selected. Pass --device or set [device] default_type.", w)

/-- Puts calls to the active device, one after the other, as long as they
succeed; the answers are collected. -/
def forwardAll : List Call → Dispatcher World Device → World →
    Except String (List Answer) × Dispatcher World Device × World
  | [], d, w => (.ok [], d, w)
  | c :: cs, d, w =>
    match d.forward Device.platform c w with
    | (.error e, d, w) => (.error e.message, d, w)
    | (.ok answer, d, w) =>
      let (answers, d, w) := forwardAll cs d w
      (answers.map (answer :: ·), d, w)

/-- How an answer is shown. -/
def showAnswer : Answer → String
  | .number n => toString n
  | .switch on => if on then "true" else "false"
  | .buffer b => b.describe
  | .done => ""

/-! ### Commands -/

/-- The lines of the version command. -/
def versionLines : List String := [
  s!"blockio-cli {version}",
  "",
  "Backend-agnostic block I/O with runtime-loadable devices.",
  "",
  "Build info:",
  s!"  Device ABI:   {abiVersion}",
  s!"  Contract:     {contractVersion}",
  "  Default type: " ++ ({} : Config).defaultDevice?.getD "none",
  s!"  Module ext:   {ModuleName.extension}",
  "  Target:       x86_64",
  "  OS:           linux"]

/-- Lines, each with its line break. -/
def ofLines (lines : List String) : List Piece := [.text (String.join (lines.map (· ++ "\n")))]

/-- Lists the devices that can be loaded. -/
def plugins (i : Invocation) (env : Variables) (w : World) : Report := do
  let c ← config i env w
  let loader : Loader World Device := ⟨c.pluginsRoot, Device.registry, c.settings⟩
  let devices := loader.available Device.platform w
  if devices.isEmpty then
    let text := s!"Install modules as {c.pluginsRoot}/<type>_op.{ModuleName.extension}"
    .ok [.text ("No devices available.\n" ++ hint i.noColor text)]
  else
    let rows := devices.map fun a =>
      [a.deviceType, (if a.module?.isSome then "module" else "builtin"), a.source,
        if some a.deviceType = c.defaultDevice? then "*" else ""]
    let table : Table := ⟨some ["Device", "Kind", "Source", "Default"], rows⟩
    .ok [.text (table.render ++ "\n")]

/-- Shows the active device. -/
def info (i : Invocation) (env : Variables) (w : World) : Report × World :=
  match dispatcher i env w with
  | (.error message, w) => (.error message, w)
  | (.ok d, w) =>
    let calls : List Call :=
      [.getBlockSize, .getQueueDepth, .getSingleSubmit, .getOverlapEvents, .getThreadCount]
    let (answers, d, w) := forwardAll calls d w
    let report := answers.map fun answers =>
      let labels := ["Block size", "Queue depth", "Single submit", "Overlap events", "Threads"]
      let rows := [["Device", d.deviceType?.getD ""]] ++
        (labels.zip answers).map (fun (label, answer) => [label, showAnswer answer]) ++
        [["Locked buffers", d.policy.name], ["Plugins root", d.loader.root]]
      let table : Table := ⟨none, rows⟩
      [Piece.text (table.render ++ "\n")]
    (report, d.close Device.platform w)

/-- The text form of a configuration. -/
def configLines (c : Config) : List String := [
  "blockio Configuration",
  "=====================",
  "",
  "Plugins:",
  s!"  Root: {c.pluginsRoot}",
  "",
  "Device:",
  "  Default type: " ++ c.defaultDevice?.getD "none",
  s!"  Block size: {c.settings.blockSize}",
  s!"  Queue depth: {c.settings.queueDepth}",
  s!"  Single submit: {c.settings.singleSubmit}",
  s!"  Overlap events: {c.settings.overlapEvents}",
  s!"  Threads: {c.settings.threadCount}",
  "",
  "Lifecycle:",
  s!"  Locked buffers: {c.lockedBuffers.name}"]

/-- Shows the merged configuration. -/
def showConfig (i : Invocation) (format : OutputFormat) (env : Variables)
    (w : World) : Report := do
  let c ← config i env w
  match format with
  | .text => .ok (ofLines (configLines c))
  | .json => .ok [.text (Json.render c.toValue ++ "\n")]
  | .toml =>
    match Toml.render? c.toValue with
    | some text => .ok [.text (text ++ "\n")]
    | none => .error "out-of-range value for u64 type"

/-- The number of elements of a given type in a number of bytes. -/
def elementCount (bytes : Nat) (type : ElementType) : Except String Nat :=
  if bytes % type.size = 0 then .ok (bytes / type.size)
  else .error (BufferFault.ragged bytes type).message

/-- The byte at each place of a written file. -/
def pattern (len : Nat) : Bytes := (List.range len).map fun i => UInt8.ofNat (i % 251)

/-- The calls of a transfer: the transfer itself, and waiting for it if it is
asynchronous. -/
def transferCalls (direction : Direction) (b : Buffer) (file : String) (o : TransferOptions) :
    List Call :=
  let mode := if o.async then Mode.async else Mode.sync
  let first := match direction with
    | .read => Call.pread b file o.validate mode
    | .write => Call.pwrite b file o.validate mode
  first :: (if o.async then [.wait] else [])

/-- A buffer of `count` elements in a world, with given content if there is some. -/
def makeBuffer (type : ElementType) (count : Nat) (content : Nat → Option Bytes) (w : World) :
    Except TransferError (Buffer × World) := do
  let (b, memory) ← w.storage.memory.zeroed? type count
  let memory ← match content b.len with
    | some data => memory.fill b data
    | none => .ok memory
  .ok (b, { w with storage := { w.storage with memory } })

/-- Moves a whole buffer to or from a file through the selected device. -/
def transfer (i : Invocation) (direction : Direction) (file : String) (count : Nat)
    (o : TransferOptions) (content : Nat → Option Bytes) (env : Variables)
    (w : World) : Except String Buffer × World :=
  match dispatcher i env w with
  | (.error message, w) => (.error message, w)
  | (.ok d, w) =>
    match makeBuffer o.elementType count content w with
    | .error e => (.error e.message, d.close Device.platform w)
    | .ok (b, w) =>
      let (answers, d, w) := forwardAll (transferCalls direction b file o) d w
      (answers.map fun _ => b, d.close Device.platform w)

/-- Writes a file of a given size. -/
def write (i : Invocation) (file : String) (size : Nat) (o : TransferOptions)
    (env : Variables) (w : World) : Report × World :=
  match elementCount size o.elementType with
  | .error message => (.error message, w)
  | .ok count =>
    let (b, w) := transfer i .write file count o (fun len => some (pattern len)) env w
    (b.map fun b =>
      [.text s!"{tick i.noColor} Wrote {b.len} bytes to {file} in ", .elapsed, .text "s\n"], w)

/-- Reads a whole file. -/
def read (i : Invocation) (file : String) (o : TransferOptions)
    (env : Variables) (w : World) : Report × World :=
  match w.storage.files.openRead file with
  | .error _ => (.error s!"Cannot stat {file}", w)
  | .ok h =>
    match elementCount (w.storage.files.length h) o.elementType with
    | .error message => (.error message, w)
    | .ok count =>
      let (b, w) := transfer i .read file count o (fun _ => none) env w
      (b.map fun b =>
        [.text s!"{tick i.noColor} Read {b.len} bytes ({count} x {o.elementType.name}) from ",
          .text s!"{file} in ", .elapsed, .text "s\n"], w)

/-- Carries out a command. -/
def perform (i : Invocation) (env : Variables) (w : World) : Report × World :=
  match i.command with
  | .version => (.ok (ofLines versionLines), w)
  | .plugins => (plugins i env w, w)
  | .info => info i env w
  | .write file size o => write i file size o env w
  | .read file o => read i file o env w
  | .showConfig format => (showConfig i format env w, w)

/-- Runs the program on its arguments, which `parse` takes apart. -/
def runWith (parse : List String → Except Arguments.Stop Invocation) (args : List String)
    (env : Variables) (w : World) : Outcome × World :=
  match parse args with
  | .error .usage => (⟨2, [], none⟩, w)
  | .error .help => (⟨0, ofLines ["Usage: blockio [OPTIONS] <COMMAND>"], none⟩, w)
  | .error (.version name) => (⟨0, ofLines [s!"{name} {version}"], none⟩, w)
  | .ok i =>
    match perform i env w with
    | (.ok pieces, w) => (⟨0, pieces, none⟩, w)
    | (.error message, w) => (⟨1, [], some ("Error: " ++ message)⟩, w)

/-- Runs the program on its arguments. -/
def run : List String → Variables → World → Outcome × World := runWith Arguments.parse

end Program
end BlockTransfer
