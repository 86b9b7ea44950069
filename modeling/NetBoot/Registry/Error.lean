import NetBoot.Text.Quoted
import NetBoot.Json.Tree
import NetBoot.Http.Call

namespace NetBoot

inductive RegistryError where
  | invalidReference (reference reason : Text)
  | invalidDigest (digest : Text)
  | registryNotAllowed (registry : Text)
  | connectionFailed (url : Text) (cause : Http.CallError)
  | unexpectedProbeStatus (url : Text) (status : Nat)
  | missingChallenge (registry : Text)
  | unsupportedAuth (challenge : Text)
  | brokenChallenge
  | notImplemented (feature : Text)
  | authenticationFailed (message : Text)
  | httpError (status : Nat) (message : Text)
  | manifestNotFound (reference : Text)
  | unsupportedMediaType (mediaType : Text)
  | architectureNotFound (architecture : Text)
  | layerNotFound (kind : Text)
  | sizeMismatch (expected actual : Nat)
  | digestMismatch (expected actual : Text)
  | json (fault : Json.Fault)
  | invalidUrl (url : Text)
  | configuration (message : Text)
  deriving DecidableEq, Repr

namespace RegistryError

def message : RegistryError → Text
  | .invalidReference reference reason =>
      "invalid reference ".toList ++ Text.quoted reference ++ ": ".toList ++ reason
  | .invalidDigest digest => "invalid digest ".toList ++ Text.quoted digest
  | .registryNotAllowed registry =>
      "registry ".toList ++ registry ++ " is not allowed".toList
  | .connectionFailed url cause =>
      "registry unreachable at ".toList ++ url ++ ": ".toList ++ cause.message
  | .unexpectedProbeStatus url status =>
      "unexpected status ".toList ++ Text.digits status ++ " probing ".toList ++ url
  | .missingChallenge registry =>
      "401 without WWW-Authenticate header from ".toList ++ registry
  | .unsupportedAuth challenge => "unsupported auth: ".toList ++ challenge
  | .brokenChallenge => "challenge cut inside a character".toList
  | .notImplemented feature => feature ++ " not implemented".toList
  | .authenticationFailed message => "authentication failed: ".toList ++ message
  | .httpError status message =>
      "HTTP error from registry: ".toList ++ Text.digits status ++ " - ".toList ++ message
  | .manifestNotFound reference => "manifest not found: ".toList ++ reference
  | .unsupportedMediaType mediaType =>
      "unsupported manifest media type ".toList ++ Text.quoted mediaType
  | .architectureNotFound architecture =>
      "target manifest not found for architecture ".toList ++ architecture
  | .layerNotFound kind => kind ++ " layer not found in image".toList
  | .sizeMismatch expected actual =>
      "size mismatch: expected ".toList ++ Text.digits expected ++ ", got ".toList ++
        Text.digits actual
  | .digestMismatch expected actual =>
      "digest mismatch: expected ".toList ++ expected ++ ", got ".toList ++ actual
  | .json _ => "JSON error".toList
  | .invalidUrl url => "invalid URL: ".toList ++ url
  | .configuration message =>
      "invalid registry client configuration: ".toList ++ message

def isReferenceError : RegistryError → Bool
  | .invalidReference .. | .invalidDigest .. => true
  | _ => false

def isResolutionError : RegistryError → Bool
  | .manifestNotFound .. | .unsupportedMediaType .. | .architectureNotFound ..
  | .layerNotFound .. => true
  | _ => false

def causes : RegistryError → List Text
  | .connectionFailed _ cause => cause.message :: cause.causes
  | _ => []

end RegistryError

end NetBoot
