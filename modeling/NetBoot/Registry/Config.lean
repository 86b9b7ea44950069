import NetBoot.Registry.Error
import NetBoot.Registry.Certificate

namespace NetBoot

structure TlsConfig where
  caCertificate : Option Text
  skipVerification : Bool
  deriving DecidableEq, Repr

structure RegistryConfig where
  requestTimeout : Nat := 30000
  connectTimeout : Nat := 10000
  insecureRegistries : List Text := []
  tls : Option TlsConfig := none
  deriving DecidableEq, Repr

namespace RegistryConfig

def schemeFor (c : RegistryConfig) (domain : Text) : Text :=
  if domain ∈ c.insecureRegistries then "http".toList else "https".toList

def baseUrl (c : RegistryConfig) (domain : Text) : Text :=
  c.schemeFor domain ++ "://".toList ++ domain

abbrev FileReader := Text → Except Text Bytes

def check (c : RegistryConfig) (readFile : FileReader) : Except RegistryError Unit :=
  match c.tls.bind TlsConfig.caCertificate with
  | none => .ok ()
  | some path =>
      match readFile path with
      | .error e =>
          .error (.configuration
            ("cannot read CA certificate ".toList ++ path ++ ": ".toList ++ e))
      | .ok content =>
          if Certificate.isUsable content then .ok ()
          else .error (.configuration "Invalid CA certificate".toList)

end RegistryConfig

end NetBoot
