import PartyGraph.Text.Pieces

/-!
# Errors with a code

Every error of the library has a stable code for callers to branch on, a message for people, and
says whether trying again may help. Codes are written in upper snake case and begin with a word
for the family of the error.

## Main definitions

* `CodedError`: the class of such errors.
* `isUpperSnake`: the form of a code.
* `checkCode`, `checkCodes`: the convention, and the first way in which it is broken.
-/

namespace PartyGraph

/-- Errors that carry a code. -/
class CodedError (ε : Type) where
  /-- Stable identifier. -/
  code : ε → String
  /-- Text for people. -/
  message : ε → String
  /-- Whether trying again may succeed. -/
  isRecoverable : ε → Bool

/-- Characters of a code. -/
def isCodeChar (c : Char) : Bool := c.isUpper || c.isDigit || c == '_'

/-- Words of capital letters and digits joined by single underscores. -/
def isUpperSnake (code : String) : Bool :=
  code.toList.all isCodeChar && (Text.pieces '_' code.toList).all (!·.isEmpty)

/-- Ways to break the convention on codes. -/
inductive CodeFault where
  | empty
  | otherFamily (code family : String)
  | notUpperSnake (code : String)
deriving DecidableEq, Repr

/-- Text of a broken convention. -/
def CodeFault.message : CodeFault → String
  | empty => "Error code must not be empty"
  | otherFamily code family =>
    "Error code '" ++ code ++ "' must start with prefix '" ++ family ++ "'"
  | notUpperSnake code => "Error code '" ++ code ++ "' must be UPPER_SNAKE_CASE"

/-- Checks that a code is not empty, begins with the word of its family and is in upper snake
case. The first fault found is reported. -/
def checkCode (family code : String) : Except CodeFault Unit :=
  if code.isEmpty then .error .empty
  else if !family.toList.isPrefixOf code.toList then .error (.otherFamily code family)
  else if !isUpperSnake code then .error (.notUpperSnake code)
  else .ok ()

/-- Checks codes in order, up to the first fault. -/
def checkCodes (family : String) : List String → Except CodeFault Unit
  | [] => .ok ()
  | code :: rest =>
    match checkCode family code with
    | .ok () => checkCodes family rest
    | .error fault => .error fault

end PartyGraph
