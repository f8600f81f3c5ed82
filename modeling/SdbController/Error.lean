import Mathlib.Data.Nat.Notation

/-!
# Errors

The error type of `lib.rs`, and the errors of the clients underneath it. A client's error carries
the text its `Display` prints, which is all that is ever done with it, and `KubeError.api` the
status code that the create-or-exists helpers and the deletion helper look at.
-/

namespace SdbController

/-- `kube::Error`: an answer of the API server, or a call that got none. -/
inductive KubeError
  | api (code : ℕ) (text : String)
  | other (text : String)
deriving DecidableEq, Repr

/-- The API server's answer to a create whose name is taken. -/
def KubeError.alreadyExists (text : String) : KubeError := .api 409 text

/-- The API server's answer about an object that is not there. -/
def KubeError.notFound (text : String) : KubeError := .api 404 text

/-- The source's `Err(kube::Error::Api(ae)) if ae.code == code`. -/
def KubeError.hasCode (code : ℕ) : KubeError → Bool
  | .api c _ => c == code
  | .other _ => false

/-- A failed call as opposed to an answer: neither *exists already* nor *not found*, which the API
server gives only when they are true. -/
def KubeError.IsFault (e : KubeError) : Prop := e.hasCode 409 = false ∧ e.hasCode 404 = false

/-- `Error` of `lib.rs`, less the variants nothing constructs. -/
inductive Error
  | kubeError (e : KubeError)
  | httpError (text : String)
  | missingRootCredentials
  | serviceRequestError (text : String)
  | reqwestError (text : String)
  | urlParseError (text : String)
deriving DecidableEq, Repr

def KubeError.display : KubeError → String
  | .api _ text => text
  | .other text => text

/-- The `Display` that `thiserror` derives. -/
def Error.display : Error → String
  | .kubeError e => "Kube Error: " ++ e.display
  | .httpError text => "HTTP Error: " ++ text
  | .missingRootCredentials => "MissingRootCredentials"
  | .serviceRequestError text => "service request error: " ++ text
  | .reqwestError text => "reqwest error: " ++ text
  | .urlParseError text => "url parse error: " ++ text

end SdbController
