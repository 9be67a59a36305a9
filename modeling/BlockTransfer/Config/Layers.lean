import BlockTransfer.Toml.Document
import BlockTransfer.Config.Reading
import BlockTransfer.Host
import BlockTransfer.Text.Lowercase
import BlockTransfer.Text.Utf8
import BlockTransfer.Word
/-!
# Loading a configuration from layers

A configuration is put together from the built-in defaults, the user's file, the
project's file, the local file and the environment, each laid over those before.
Tables are merged key by key, any other value replaces what is below it. The
result is read leniently, its device settings are checked, and a relative plugins
root is taken from the project directory.

The key of a layer is a path: names joined by points, with indices of list items
in brackets; a key that is no such path stands for itself. The variables of the
environment that start with the prefix are matched without case, and two
underscores in them separate names; of two that set one key the later counts.

The entries of one layer come in any order (`Arrangement`). How a TOML document is
read and where the user's files are is left open by `ConfigSources`, which has the
program's own ways by default.

Key definitions: `Variables`, `Layer.set`, `Layer.mergeInto`,
`Layer.ofEnvironment`, `ConfigSources`, `ConfigSources.load`.
-/

namespace BlockTransfer

/-- The variables of an environment, each a name and a text. -/
abbrev Variables := List (String × String)

namespace Layer

/-! ### Keys -/

/-- A step of a key. -/
inductive Step where
  | name (key : String)
  | index (i : Int)
  deriving DecidableEq, Repr

def isNameChar (c : Char) : Bool := c.isAlphanum || c == '_' || c == '-'

/-- One or more characters of a name. -/
def name? (cs : List Char) : Option (String × List Char) :=
  let run := cs.takeWhile isNameChar
  if run.isEmpty then none else some (String.ofList run, cs.drop run.length)

/-- The steps after the first name, at most `fuel` of them. -/
def stepsFuel? : Nat → List Char → Option (List Step)
  | 0, _ => none
  | _ + 1, [] => some []
  | fuel + 1, '.' :: rest => do
    let (k, rest) ← name? rest
    (stepsFuel? fuel rest).map (Step.name k :: ·)
  | fuel + 1, '[' :: rest => do
    let body := rest.takeWhile (· != ']')
    let blank := fun c => c == ' ' || c == '\t'
    let digits := ((body.dropWhile blank).reverse.dropWhile blank).reverse
    let i ← if digits.head? = some '+' then none else Literal.integer? Word.signedLimit digits
    match rest.drop body.length with
    | ']' :: rest => (stepsFuel? fuel rest).map (Step.index i :: ·)
    | _ => none
  | _ + 1, _ => none

/-- The first name and the further steps of a key. -/
def steps (key : String) : String × List Step :=
  let parsed := do
    let (k, rest) ← name? key.toList
    let more ← stepsFuel? (rest.length + 1) rest
    some (k, more)
  parsed.getD (key, [])

/-! ### Merging -/

/-- The entries of a value; any value but a table has none. -/
def entriesOf : Value → List (String × Value)
  | .table entries => entries
  | _ => []

/-- The items of a value; any value but a list has none. -/
def itemsOf : Value → List Value
  | .list items => items
  | _ => []

/-- Where an index points in a list of some length: counted from the end if
negative. The second number says how many items have to be put in front. -/
def position (i : Int) (length : Nat) : Nat × Nat :=
  if 0 ≤ i then (i.toNat, 0)
  else if (-i).toNat ≤ length then (length - (-i).toNat, 0)
  else (0, (-i).toNat - length)

/-- Changes the value that steps lead to. On the way, a value that is no table
or no list where one is needed is replaced by an empty one, and missing values
are made. -/
def update (f : Value → Value) : List Step → Value → Value
  | [], v => f v
  | .name k :: rest, v =>
    let entries := entriesOf v
    .table (Value.setEntry k (update f rest ((entries.lookup k).getD .nil)) entries)
  | .index i :: rest, v =>
    let items := itemsOf v
    let (at_, before) := position i items.length
    let items := List.replicate before .nil ++ items
    let items := items ++ List.replicate (at_ + 1 - items.length) .nil
    .list (items.set at_ (update f rest (items[at_]?.getD .nil)))

mutual

/-- The value `incoming` laid over `target`. -/
def mergeInto (target : Value) : Value → Value
  | .table entries => mergeEntries (.table (entriesOf target)) entries
  | incoming => incoming

/-- The entries of a table laid over `target`, each under its key as it is. -/
def mergeEntries (target : Value) : List (String × Value) → Value
  | [] => target
  | (k, v) :: rest =>
    let entries := entriesOf target
    let merged := mergeInto ((entries.lookup k).getD .nil) v
    mergeEntries (.table (Value.setEntry k merged entries)) rest

end

/-- The value with `incoming` laid over what a key leads to. -/
def set (root : Value) (key : String) (incoming : Value) : Value :=
  let (first, rest) := steps key
  update (fun target => mergeInto target incoming) (.name first :: rest) root

/-- The value with a layer laid over it. -/
def apply (root : Value) (layer : List (String × Value)) : Value :=
  layer.foldl (fun root (k, v) => set root k v) root

/-! ### The environment -/

/-- The value of a variable: a truth value, a whole number of 64 bits, a
number, or the text itself. -/
def variableValue (text : String) : Value :=
  let lower := Lowercase.ofString text
  if lower == "true" then .bool true
  else if lower == "false" then .bool false
  else match Literal.integer? Word.signedLimit text.toList with
    | some i => .int i
    | none =>
      match Binary64.parse? text with
      | some x => .float x
      | none => .text text

/-- The text with a point for every two underscores. -/
def separate : List Char → List Char
  | '_' :: '_' :: rest => '.' :: separate rest
  | c :: rest => c :: separate rest
  | [] => []

/-- The key that a variable sets, if it starts with the prefix. -/
def variableKey? (envPrefix name : String) : Option String :=
  let start := (Lowercase.ofString (envPrefix ++ "_")).toList
  let name := (Lowercase.ofString name).toList
  if start.isPrefixOf name then some (String.ofList (separate (name.drop start.length)))
  else none

/-- The layer with what a variable sets. -/
def setVariable (envPrefix : String) (layer : List (String × Value)) :
    String × String → List (String × Value)
  | (name, text) =>
    match variableKey? envPrefix name with
    | some k => Value.setEntry k (variableValue text) layer
    | none => layer

/-- The layer that the environment makes. -/
def ofEnvironment (envPrefix : String) (env : Variables) : List (String × Value) :=
  env.foldl (setVariable envPrefix) []

end Layer

/-! ### Files -/

namespace ConfigFile

/-- The name of the project's file, which is shared. -/
def projectName : String := "blockio.toml"

/-- The name of the local file, which lies over the project's. -/
def localName : String := "blockio.local.toml"

def project (directory : String) : String := Path.join directory projectName

def «local» (directory : String) : String := Path.join directory localName

/-- The home directory: what `HOME` says, or else what the register of users says. -/
def home? (registered? : Option String) (env : Variables) : Option String :=
  ((env.lookup "HOME").filter (· ≠ "")).or registered?

/-- The directory of a user's files, for a user with a home: under `XDG_CONFIG_HOME` if
that is an absolute path, under `.config` in the home directory otherwise. -/
def userDirectory? (registered? : Option String) (env : Variables) : Option String :=
  (home? registered? env).map fun home =>
    let base := ((env.lookup "XDG_CONFIG_HOME").filter Path.isAbsolute).getD
      (Path.join home ".config")
    Path.join base "blockio"

/-- The user's file in that directory. -/
def user (directory : String) : String := Path.join directory "config.toml"

/-- The content of a configuration file. A path that exists and is no regular
file stands for the file with one more extension. -/
def content? (files : FileSystem) (path : String) : Option Bytes :=
  match files.view path with
  | .missing => none
  | .file data => some data
  | .directory => files.read? (path ++ ".toml")

/-- The layer that a file makes; a file that cannot be read makes none. -/
def layer (readToml : String → Option Value) (files : FileSystem) (path : String) :
    Except ConfigError (List (String × Value)) :=
  match content? files path with
  | none => .ok []
  | some data =>
    match readToml (Utf8.decode data) with
    | some (.table entries) =>
      if Value.entriesBetween (-Word.signedLimit) (Word.signedLimit - 1) entries then .ok entries
      else .error .build
    | _ => .error .build

end ConfigFile

/-- Where a configuration comes from. -/
structure ConfigSources where
  files : FileSystem
  environment : Variables
  projectDirectory : String := "."
  envPrefix : String := "BLOCKIO"
  /-- Whether the user's file counts. -/
  includeUser : Bool := true
  /-- The order in which the entries of each layer come. -/
  arrangement : Arrangement := .asWritten
  /-- The table that a TOML document is. -/
  readToml : String → Option Value := Toml.read?
  /-- The directory of the user's files. -/
  userDirectory? : Variables → Option String := ConfigFile.userDirectory? none

namespace ConfigSources

/-- The files that count, the lowest first. -/
def paths (s : ConfigSources) : List String :=
  let user? := (s.userDirectory? s.environment).map ConfigFile.user
  (if s.includeUser then user?.toList else []) ++
    [ConfigFile.project s.projectDirectory, ConfigFile.local s.projectDirectory]

/-- What is set if no one else sets it. -/
def builtin : List (String × Value) := Layer.entriesOf ({} : Config).toValue

/-- The built-in layer, as it is laid. -/
def defaults (s : ConfigSources) : List (String × Value) := s.arrangement.arrange .defaults builtin

/-- The environment's layer, as it is laid. -/
def variableLayer (s : ConfigSources) : List (String × Value) :=
  s.arrangement.arrange .environment (Layer.ofEnvironment s.envPrefix s.environment)

/-- The layer of a file, as it is laid. -/
def readLayer (s : ConfigSources) (path : String) : Except ConfigError (List (String × Value)) :=
  (ConfigFile.layer s.readToml s.files path).map (s.arrangement.arrange (.file path))

/-- All layers merged. -/
def merge (s : ConfigSources) : Except ConfigError Value := do
  let files ← s.paths.mapM s.readLayer
  .ok ((s.defaults :: files ++ [s.variableLayer]).foldl Layer.apply (.table []))

/-- Loads the configuration. -/
def load (s : ConfigSources) : Except ConfigError Config := do
  let merged ← s.merge
  match Config.ofValue? .lenient merged with
  | none => .error .conversion
  | some c =>
    let _ ← c.check
    .ok (c.resolvePaths s.projectDirectory)

end ConfigSources
end BlockTransfer
