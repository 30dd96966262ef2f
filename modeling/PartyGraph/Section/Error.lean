import PartyGraph.Name.Error

/-!
# Configuration errors

## Main definitions

* `ConfigError`: why a configuration is refused. Nothing but another configuration helps.
-/

namespace PartyGraph

/-- Why a configuration is refused. -/
inductive ConfigError where
  | unreadableFile (path : String)
  | unparsableFile (path : String)
  | invalidVariable (name message : String)
  | invalidName (path : String) (cause : NameError)
  | nameConflict (path message : String)
  | externalRoot
  | duplicateParty (fullName path existing : String)
  | featureOverlap (path : String) (features : List String)
  | invalidHeartbeat (ms : Nat)
  | invalidStoreRoot (path message : String)
deriving DecidableEq, Repr

namespace ConfigError

/-- Text of the error. -/
def message : ConfigError → String
  | unreadableFile path => "failed to read config file '" ++ path ++ "'"
  | unparsableFile path => "failed to parse configuration '" ++ path ++ "'"
  | invalidVariable name text =>
    "invalid value for environment variable '" ++ name ++ "': " ++ text
  | invalidName path cause => "invalid name in '" ++ path ++ "': " ++ cause.message
  | nameConflict path text => "'" ++ path ++ "': " ++ text
  | externalRoot => "root domain cannot be 'External': this name denotes an external system"
  | duplicateParty fullName path existing =>
    "duplicate party definition '" ++ path ++ "': '" ++ fullName ++ "' is already defined by '"
      ++ existing ++ "'"
  | featureOverlap path features =>
    "'" ++ path ++ "': features " ++ ", ".intercalate features
      ++ " are both allowed and disallowed"
  | invalidHeartbeat ms =>
    "heartbeat_ms must be 0 or between 20 and 1000, got " ++ toString ms
  | invalidStoreRoot path text => "invalid store root path '" ++ path ++ "': " ++ text

/-- Code of the error. -/
def code : ConfigError → String
  | unreadableFile _ => "CONFIG_READ_FILE"
  | unparsableFile _ => "CONFIG_PARSE_TOML"
  | invalidVariable _ _ => "CONFIG_INVALID_ENV_VAR"
  | invalidName _ _ => "CONFIG_INVALID_NAME"
  | nameConflict _ _ => "CONFIG_NAME_CONFLICT"
  | externalRoot => "CONFIG_EXTERNAL_ROOT"
  | duplicateParty _ _ _ => "CONFIG_DUPLICATE_PARTY"
  | featureOverlap _ _ => "CONFIG_FEATURE_OVERLAP"
  | invalidHeartbeat _ => "CONFIG_INVALID_HEARTBEAT"
  | invalidStoreRoot _ _ => "CONFIG_INVALID_STORE_ROOT"

instance : CodedError ConfigError where
  code := code
  message := message
  isRecoverable _ := false

end ConfigError

end PartyGraph
