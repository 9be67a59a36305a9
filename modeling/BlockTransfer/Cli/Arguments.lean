import BlockTransfer.ElementType
import BlockTransfer.Size
/-!
# The command line's arguments

The arguments are read level by level: the program's own options, a command, its
options and operands, and so on. The project, the device and the switch against
colours may stand at every level, and the deepest one counts. An option may be
given once per level; its value is checked when it is met.

What a level takes is one record (`Level`), and `scan` reads any level.

Key definitions: `Invocation`, `Command`, `Arguments.parse`.
-/

namespace BlockTransfer

/-- How a configuration is shown. -/
inductive OutputFormat where
  | text | json | toml
  deriving DecidableEq, Repr

namespace OutputFormat

def name : OutputFormat → String
  | text => "text"
  | json => "json"
  | toml => "toml"

def ofName? (s : String) : Option OutputFormat := [text, json, toml].find? (·.name == s)

end OutputFormat

/-- How a file is written or read. -/
structure TransferOptions where
  elementType : ElementType := .u8
  validate : Bool := false
  async : Bool := false
  deriving DecidableEq, Repr

/-- What the program is asked to do. -/
inductive Command where
  | version
  | plugins
  | info
  | write (file : String) (size : Nat) (options : TransferOptions)
  | read (file : String) (options : TransferOptions)
  | showConfig (format : OutputFormat)
  deriving DecidableEq, Repr

/-- The file that a command writes or reads. -/
def Command.file? : Command → Option String
  | .write file _ _ | .read file _ => some file
  | _ => none

/-- A command with what holds for every command. -/
structure Invocation where
  project : String := "."
  device : Option String := none
  noColor : Bool := false
  command : Command
  deriving DecidableEq, Repr

namespace Arguments

/-- Why no command runs. -/
inductive Stop where
  /-- The arguments are wrong. -/
  | usage
  /-- Help was asked for. -/
  | help
  /-- The version of the program or of a command was asked for. -/
  | version (name : String)
  deriving DecidableEq, Repr

/-- An option of a level. -/
structure OptionSpec where
  long : String
  short : Option Char
  /-- Whether the option has a value, and which values it takes. -/
  accepts : Option (String → Bool)

/-- What a level takes. -/
structure Level where
  /-- The name that the version is shown under. -/
  name : String
  options : List OptionSpec
  /-- Whether the level takes a file as its operand. -/
  operand : Bool
  subcommands : List String

/-- What was found at a level. -/
structure Found where
  /-- The options given, with their values; a switch has an empty one. -/
  given : List (String × String) := []
  operand : Option String := none
  deriving DecidableEq, Repr

namespace Found

/-- The value of an option. -/
def value? (f : Found) (long : String) : Option String := f.given.lookup long

def has (f : Found) (long : String) : Bool := (f.value? long).isSome

/-- Notes an option, which must not have been given before. -/
def give (f : Found) (long value : String) : Except Stop Found :=
  if f.has long then .error .usage else .ok { f with given := f.given ++ [(long, value)] }

/-- Notes an option's value if the option takes it. -/
def giveValue (f : Found) (o : OptionSpec) (value : String) : Except Stop Found :=
  match o.accepts with
  | none => .error .usage
  | some accepts => if accepts value then f.give o.long value else .error .usage

/-- Notes an operand. -/
def giveOperand (level : Level) (f : Found) (value : String) : Except Stop Found :=
  if level.operand && f.operand.isNone && !value.isEmpty then .ok { f with operand := some value }
  else .error .usage

end Found

/-- What is left to do after an argument: go on with what was found, and maybe
with an option that waits for its value. -/
abbrev Progress := Found × Option OptionSpec

/-- Reads an option with a long name, without its dashes. -/
def long (level : Level) (f : Found) (body : List Char) : Except Stop Progress :=
  let name := String.ofList (body.takeWhile (· != '='))
  let value := (body.dropWhile (· != '=')).tail?.map String.ofList
  if name == "help" && value.isNone then .error .help
  else if name == "version" && value.isNone then .error (.version level.name)
  else match level.options.find? (·.long == name) with
    | none => .error .usage
    | some o =>
      match o.accepts, value with
      | none, none => (f.give o.long "").map fun f => (f, none)
      | none, some _ => .error .usage
      | some _, some v => (f.giveValue o v).map fun f => (f, none)
      | some _, none => .ok (f, some o)

/-- Reads options with short names, without their dash. What follows the name of
an option with a value is the value, after an equals sign if there is one. -/
def short (level : Level) (f : Found) : List Char → Except Stop Progress
  | [] => .ok (f, none)
  | c :: rest =>
    if c = 'h' then .error .help
    else if c = 'V' then .error (.version level.name)
    else match level.options.find? (·.short == some c) with
      | none => .error .usage
      | some o =>
        match o.accepts with
        | none => do
          let f ← f.give o.long ""
          short level f rest
        | some _ =>
          match rest with
          | [] => .ok (f, some o)
          | '=' :: value => (f.giveValue o (String.ofList value)).map fun f => (f, none)
          | value => (f.giveValue o (String.ofList value)).map fun f => (f, none)

/-- Reads the arguments of a level up to a subcommand; `waiting` is an option
without its value yet, and after two dashes (`escaped`) only operands follow. -/
def scan (level : Level) : Option OptionSpec → Bool → Found → List String →
    Except Stop (Found × Option (String × List String))
  | waiting, _, f, [] => if waiting.isSome then .error .usage else .ok (f, none)
  | some o, escaped, f, arg :: rest =>
    match arg.toList with
    | '-' :: _ :: _ => .error .usage
    | _ => do
      let f ← f.giveValue o arg
      scan level none escaped f rest
  | none, true, f, arg :: rest => do
    let f ← f.giveOperand level arg
    scan level none true f rest
  | none, false, f, arg :: rest =>
    match arg.toList with
    | ['-', '-'] => scan level none true f rest
    | '-' :: '-' :: body => do
      let (f, waiting) ← long level f body
      scan level waiting false f rest
    | '-' :: c :: body => do
      let (f, waiting) ← short level f (c :: body)
      scan level waiting false f rest
    | _ =>
      if level.subcommands.contains arg then .ok (f, some (arg, rest))
      else do
        let f ← f.giveOperand level arg
        scan level none false f rest

/-! ### The program's levels -/

/-- The options of every level. -/
def common : List OptionSpec := [
  ⟨"project", some 'p', some fun v => !v.isEmpty⟩,
  ⟨"device", some 'd', some fun _ => true⟩,
  ⟨"no-color", none, none⟩]

/-- The options of a transfer. -/
def transferOptions : List OptionSpec := [
  ⟨"element-type", some 'e', some fun v => (ElementType.ofName? v).isSome⟩,
  ⟨"validate", none, none⟩,
  ⟨"async", none, none⟩]

def sizeOption : OptionSpec := ⟨"size", some 's', some fun v => (Size.parse v).isOk⟩

def formatOption : OptionSpec := ⟨"format", some 'f', some fun v => (OutputFormat.ofName? v).isSome⟩

def root : Level :=
  ⟨"blockio", common, false, ["version", "plugins", "info", "write", "read", "config", "help"]⟩

def leaf (name : String) (options : List OptionSpec) (operand : Bool) : Level :=
  ⟨"blockio-" ++ name, common ++ options, operand, []⟩

def config : Level := ⟨"blockio-config", common, false, ["show", "help"]⟩

/-- How a transfer is to be done. -/
def transferOf (f : Found) : TransferOptions :=
  { elementType := ((f.value? "element-type").bind ElementType.ofName?).getD .u8
    validate := f.has "validate"
    async := f.has "async" }

/-- What holds for every command, the outermost level first. -/
def invocation (levels : List Found) (command : Command) : Invocation :=
  let deepest := fun name => levels.reverse.findSome? (·.value? name)
  { project := (deepest "project").getD "."
    device := deepest "device"
    noColor := levels.any (·.has "no-color")
    command }

/-- Reads a level without subcommands. -/
def scanLeaf (level : Level) (args : List String) : Except Stop Found :=
  (scan level none false {} args).map Prod.fst

/-- Help on a command, named by the words after `help`. -/
def helpOn (known : List String) : List String → Stop
  | [] => .help
  | word :: _ => if known.contains word then .help else .usage

/-- Reads the arguments of a command. -/
def command (outer : Found) (name : String) (args : List String) : Except Stop Invocation :=
  match name with
  | "version" | "plugins" | "info" => do
    let f ← scanLeaf (leaf name [] false) args
    let c := match name with
      | "version" => Command.version
      | "plugins" => Command.plugins
      | _ => Command.info
    .ok (invocation [outer, f] c)
  | "write" => do
    let f ← scanLeaf (leaf name (sizeOption :: transferOptions) true) args
    match f.operand, (f.value? "size").bind fun v => (Size.parse v).toOption with
    | some file, some size => .ok (invocation [outer, f] (.write file size (transferOf f)))
    | _, _ => .error .usage
  | "read" => do
    let f ← scanLeaf (leaf name transferOptions true) args
    match f.operand with
    | some file => .ok (invocation [outer, f] (.read file (transferOf f)))
    | none => .error .usage
  | "config" => do
    let (f, sub) ← scan config none false {} args
    match sub with
    | some ("show", args) => do
      let g ← scanLeaf (leaf "config-show" [formatOption] false) args
      let format := ((g.value? "format").bind OutputFormat.ofName?).getD .text
      .ok (invocation [outer, f, g] (.showConfig format))
    | some (_, args) => .error (helpOn config.subcommands args)
    | none => .error .usage
  | _ => .error (helpOn root.subcommands args)

/-- Reads the program's arguments. -/
def parse (args : List String) : Except Stop Invocation := do
  let (f, sub) ← scan root none false {} args
  match sub with
  | some (name, args) => command f name args
  | none => .error .usage

end Arguments
end BlockTransfer
