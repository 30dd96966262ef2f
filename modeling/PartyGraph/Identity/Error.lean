import PartyGraph.Agent.Error
import PartyGraph.Section.Error
import PartyGraph.Trampoline.Error

/-!
# Errors of an identity and of its feature drivers

## Main definitions

* `IdentityError`: why a request to an identity fails.
* `DriverError`: why a feature driver fails.
-/

namespace PartyGraph

/-- Why a request to an identity fails. -/
inductive IdentityError where
  | config (cause : ConfigError)
  | invalidIncrement (text : String)
  | nameCollision (name : String)
  | ownerDestroyed (name : String)
  | setupFailed (cause : ActionError)
  | notDynamic (name : String)
  | notRunning
  | startRefused
  | initializationFailed (cause : ActionError)
  | agentStopped
  | invalidDriverName (name : String)
  | duplicateDriver (name : String)
  | driversFrozen (name : String)
  | duplicateFeature (party feature : String)
  | featureNotFound (party feature : String)
  | agent (cause : AgentError)

namespace IdentityError

/-- Text of the error. -/
def message : IdentityError → String
  | config cause => cause.message
  | invalidIncrement text => "invalid increment: " ++ text
  | nameCollision name =>
    "party '" ++ name
      ++ "' already exists: a party must first be destroyed before being added again"
  | ownerDestroyed name => "owner '" ++ name ++ "' is destroyed"
  | setupFailed cause => "dynamic setup failed: " ++ cause.message
  | notDynamic name => "party '" ++ name ++ "' is not dynamic and cannot be destroyed"
  | notRunning => "identity agent is not running"
  | startRefused => "identity agent refused to start"
  | initializationFailed cause => "initialization failed: " ++ cause.message
  | agentStopped => "identity agent stopped"
  | invalidDriverName name =>
    "invalid type name '" ++ name
      ++ "': a feature driver type name must be suffixed with 'FeatureDriver'"
  | duplicateDriver name => "feature driver '" ++ name ++ "' is already registered"
  | driversFrozen name =>
    "cannot register feature driver '" ++ name ++ "': the identity agent already started"
  | duplicateFeature party feature =>
    "feature '" ++ feature ++ "' is already attached to '" ++ party ++ "'"
  | featureNotFound party feature =>
    "unable to find a feature '" ++ feature ++ "' in '" ++ party ++ "'"
  | agent cause => cause.message

/-- Code of the error. -/
def code : IdentityError → String
  | config _ => "IDENTITY_CONFIG"
  | invalidIncrement _ => "IDENTITY_INVALID_INCREMENT"
  | nameCollision _ => "IDENTITY_NAME_COLLISION"
  | ownerDestroyed _ => "IDENTITY_OWNER_DESTROYED"
  | setupFailed _ => "IDENTITY_SETUP_FAILED"
  | notDynamic _ => "IDENTITY_NOT_DYNAMIC"
  | notRunning => "IDENTITY_NOT_RUNNING"
  | startRefused => "IDENTITY_START_REFUSED"
  | initializationFailed _ => "IDENTITY_INITIALIZATION_FAILED"
  | agentStopped => "IDENTITY_AGENT_STOPPED"
  | invalidDriverName _ => "IDENTITY_INVALID_DRIVER_NAME"
  | duplicateDriver _ => "IDENTITY_DUPLICATE_DRIVER"
  | driversFrozen _ => "IDENTITY_DRIVERS_FROZEN"
  | duplicateFeature _ _ => "IDENTITY_DUPLICATE_FEATURE"
  | featureNotFound _ _ => "IDENTITY_FEATURE_NOT_FOUND"
  | agent _ => "IDENTITY_AGENT"

/-- A name becomes free when its party is destroyed, and a driver may succeed another time. -/
def isRecoverable : IdentityError → Bool
  | nameCollision _ => true
  | setupFailed _ => true
  | _ => false

instance : CodedError IdentityError where
  code := code
  message := message
  isRecoverable := isRecoverable

end IdentityError

/-- Why a feature driver fails. -/
inductive DriverError where
  | failed (feature text : String)
  | party (cause : IdentityError)

namespace DriverError

/-- Text of the error. -/
def message : DriverError → String
  | failed feature text => "feature '" ++ feature ++ "': " ++ text
  | party cause => cause.message

/-- Code of the error. -/
def code : DriverError → String
  | failed _ _ => "DRIVER_FAILED"
  | party _ => "DRIVER_PARTY"

instance : CodedError DriverError where
  code := code
  message := message
  isRecoverable _ := false

end DriverError

/-- The failure of a driver as the failure of the job that called it. -/
def ActionError.ofDriver (e : DriverError) : ActionError := .failed e.message

end PartyGraph
