import NetBoot.Drive.Error
import NetBoot.Registry.Error

namespace NetBoot

inductive BootError where
  | invalidRequest (reason : Text)
  | registry (e : RegistryError)
  | relayFailed (url : Text) (cause : Http.CallError)
  | invalidRedirect (url : Text)
  | drive (e : DriveError)
  | internal (message : Text)
  deriving DecidableEq, Repr

namespace BootError

def message : BootError → Text
  | .invalidRequest reason => "invalid request: ".toList ++ reason
  | .registry e => e.message
  | .relayFailed url cause =>
      "upstream request to ".toList ++ url ++ " failed: ".toList ++ cause.message
  | .invalidRedirect url => "invalid redirect from ".toList ++ url
  | .drive e => e.message
  | .internal message => "internal error: ".toList ++ message

/-- A status and a short text for the client, from which nothing about a registry can be learnt. -/
structure Notice where
  status : Nat
  text : Text
  deriving DecidableEq, Repr

def notFound : Notice := ⟨404, "Resource Not Found".toList⟩

def badGateway : Notice := ⟨502, "Bad Gateway".toList⟩

def failure : Notice := ⟨500, "Internal Server Error".toList⟩

def forbidden : Notice := ⟨403, "Forbidden: Registry not allowed".toList⟩

def undetected : Notice := ⟨502, "Registry detection failed".toList⟩

def unsupported : Notice := ⟨501, "Basic auth not yet implemented".toList⟩

def unauthenticated : Notice := ⟨401, "Authentication failed".toList⟩

def registryNotice : RegistryError → Notice
  | .invalidReference .. | .invalidDigest .. | .manifestNotFound .. | .unsupportedMediaType ..
  | .architectureNotFound .. | .layerNotFound .. | .sizeMismatch .. | .digestMismatch ..
  | .json .. => notFound
  | .registryNotAllowed .. => forbidden
  | .connectionFailed .. | .unexpectedProbeStatus .. | .missingChallenge ..
  | .unsupportedAuth .. => undetected
  | .notImplemented .. => unsupported
  | .authenticationFailed .. => unauthenticated
  | .httpError .. => badGateway
  | .brokenChallenge | .invalidUrl .. | .configuration .. => failure

def notice : BootError → Notice
  | .invalidRequest .. => notFound
  | .registry e => registryNotice e
  | .relayFailed .. | .invalidRedirect .. => badGateway
  | .drive (.notFound ..) => notFound
  | .drive (.unrendered ..) => failure
  | .internal .. => failure

end BootError

end NetBoot
