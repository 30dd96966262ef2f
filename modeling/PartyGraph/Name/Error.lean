import PartyGraph.Error

/-!
# Why a text is not a name

## Main definitions

* `NameError`: the causes, with the text they concern.
-/

namespace PartyGraph

/-- Why a text is not the name it should be. -/
inductive NameError where
  | empty
  | invalidDomain (text : String)
  | invalidParty (text : String)
  | invalidEnvironment (text : String)
  | reservedSubDomain (text : String)
  | missingParty (text : String)
deriving DecidableEq, Repr

namespace NameError

/-- Text of the error. -/
def message : NameError → String
  | empty => "name is empty"
  | invalidDomain text => "invalid domain name '" ++ text ++ "'"
  | invalidParty text => "invalid party name '" ++ text ++ "'"
  | invalidEnvironment text => "invalid environment name '" ++ text ++ "'"
  | reservedSubDomain text => "reserved domain '" ++ text ++ "' cannot have sub domains"
  | missingParty text => "full name '" ++ text ++ "' has no party name"

/-- Code of the error. -/
def code : NameError → String
  | empty => "NAME_EMPTY"
  | invalidDomain _ => "NAME_INVALID_DOMAIN"
  | invalidParty _ => "NAME_INVALID_PARTY"
  | invalidEnvironment _ => "NAME_INVALID_ENVIRONMENT"
  | reservedSubDomain _ => "NAME_RESERVED_SUB_DOMAIN"
  | missingParty _ => "NAME_MISSING_PARTY"

instance : CodedError NameError where
  code := code
  message := message
  isRecoverable _ := false

end NameError

end PartyGraph
