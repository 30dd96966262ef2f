import PartyGraph.Section.Reading
import PartyGraph.Section.Resolution
import PartyGraph.Store.Path
import PartyGraph.Text.Blank
import PartyGraph.Toml.Document

/-!
# Configuration of an identity

An identity is configured by the section of its root, which holds all others, by the time between
two heartbeats and by the place of its store. A configuration is written as the table of the root
section with two more keys.

What a configuration text says may be overridden by variables of the environment, and without a
text everything has its default.

## Main definitions

* `IdentityConfiguration`: the configuration, with `period`, `storeRoot` and `resolve`.
* `IdentityConfiguration.parse?`: the configuration that a text describes.
* `ConfigurationSource.load`: the configuration of a text that may be missing and of variables.
-/

namespace PartyGraph

/-- The configuration of an identity. -/
structure IdentityConfiguration where
  /-- Place of the store, if it is not to be the default. -/
  storeRootPath : Option String
  /-- Milliseconds between two heartbeats, none when zero. -/
  heartbeatMs : Nat
  root : PartySection

/-- What the surroundings say about the place of data. -/
structure DataPlace where
  home : String
  /-- Place of data, if it is not to be below the home. -/
  dataHome : Option String

namespace DataPlace

/-- The place of data. -/
def path (place : DataPlace) : String :=
  let below := Path.joined place.home ".local/share"
  match place.dataHome with
  | some given => if Path.isAbsolute given then given else below
  | none => below

/-- The place of the store when the configuration names none. -/
def defaultStoreRoot (place : DataPlace) : String := Path.joined place.path "appid"

end DataPlace

namespace IdentityConfiguration

/-- The configuration that says nothing: a heartbeat every second. -/
def default : IdentityConfiguration := ⟨none, 1000, PartySection.blank⟩

instance : Inhabited IdentityConfiguration := ⟨default⟩

/-- Whether the configuration says nothing. -/
def isDefault (c : IdentityConfiguration) : Bool :=
  c.storeRootPath.isNone && c.heartbeatMs = default.heartbeatMs && c.root.isBlank

/-- The milliseconds between two heartbeats: none at all, or a number within bounds. -/
def period (c : IdentityConfiguration) : Except ConfigError (Option Nat) :=
  if c.heartbeatMs = 0 then .ok none
  else if 20 ≤ c.heartbeatMs ∧ c.heartbeatMs ≤ 1000 then .ok (some c.heartbeatMs)
  else .error (.invalidHeartbeat c.heartbeatMs)

/-- The place of the store, which has to be absolute. -/
def storeRoot (c : IdentityConfiguration) (place : DataPlace) : Except ConfigError String :=
  let path := c.storeRootPath.getD place.defaultStoreRoot
  if Path.isAbsolute path then .ok path
  else .error (.invalidStoreRoot path "path must be absolute")

/-- The parties of the configuration. The heartbeat is looked at first. -/
def resolve (c : IdentityConfiguration) : Except ConfigError ResolvedRoot := do
  let _ ← c.period
  resolveRoot c.root

/-! ### Reading -/

/-- The keys that do not belong to the root section. -/
def ownKeys : List String := ["store_root_path", "heartbeat_ms"]

/-- A number of milliseconds, if the value is one. -/
def millisOf? : Toml.Value → Option Nat
  | .integer n => if 0 ≤ n then some n.toNat else none
  | _ => none

/-- What a value under a key says, if there is one; it must be of the right kind. -/
def entry? {α : Type} (t : Toml.Table) (key : String) (read : Toml.Value → Option α) :
    Option (Option α) :=
  match t.get? key with
  | none => some none
  | some v => (read v).map some

/-- The configuration that a table describes. -/
def ofTable? (t : Toml.Table) : Option IdentityConfiguration := do
  let storeRootPath ← entry? t "store_root_path" Toml.Value.text?
  let heartbeatMs ← entry? t "heartbeat_ms" millisOf?
  let root ← PartySection.ofTable? (t.erase ownKeys)
  return ⟨storeRootPath, heartbeatMs.getD default.heartbeatMs, root⟩

/-- The configuration that a text describes. -/
def parse? (text : String) : Option IdentityConfiguration := do ofTable? (← Toml.parse text)

end IdentityConfiguration

/-! ### Loading -/

/-- What is found where the configuration text should be. -/
inductive FoundText where
  | missing
  | folder
  | bytes (b : ByteArray)

/-- Where a configuration comes from. -/
structure ConfigurationSource where
  /-- The path of the text and what is there, if a path is given. -/
  file : Option (String × FoundText)
  /-- What the variables of the environment say, if they are to be read. -/
  lookUp : Option (String → Option String)

namespace ConfigurationSource

/-- The variable for the place of the store. -/
def storeRootVariable : String := "APPID_STORE_ROOT"

/-- The variable for the heartbeat. -/
def heartbeatVariable : String := "APPID_HEARTBEAT_MS"

/-- A number of 64 bits in decimal digits, with or without a plus sign. -/
def readCount? (text : String) : Option Nat :=
  let digits := match text.toList with
    | '+' :: rest => rest
    | cs => cs
  if digits.isEmpty || !digits.all Char.isDigit then none
  else
    let n := Toml.digitsValue 10 digits
    if n < Nat.pow 2 64 then some n else none

/-- The configuration of the text, or the default when there is none. -/
def loadText (source : ConfigurationSource) : Except ConfigError IdentityConfiguration :=
  match source.file with
  | none => .ok .default
  | some (_, .missing) => .ok .default
  | some (path, .folder) => .error (.unreadableFile path)
  | some (path, .bytes b) =>
    match String.fromUTF8? b with
    | none => .error (.unreadableFile path)
    | some text =>
      match IdentityConfiguration.parse? text with
      | none => .error (.unparsableFile path)
      | some c => .ok c

/-- The configuration with what a variable says about the heartbeat. -/
def withHeartbeat (c : IdentityConfiguration) :
    Option String → Except ConfigError IdentityConfiguration
  | none => .ok c
  | some text =>
    match readCount? (Text.trim text) with
    | some n => .ok { c with heartbeatMs := n }
    | none => .error (.invalidVariable heartbeatVariable "expected integer")

/-- The configuration of the text, and what variables say instead. -/
def load (source : ConfigurationSource) : Except ConfigError IdentityConfiguration := do
  let c ← source.loadText
  match source.lookUp with
  | none => return c
  | some find =>
    withHeartbeat { c with storeRootPath := find storeRootVariable <|> c.storeRootPath }
      (find heartbeatVariable)

end ConfigurationSource

end PartyGraph
