import NetBoot.CommandLine.Grammar
import NetBoot.Image.Artifact
import NetBoot.Registry.Config
import NetBoot.Registry.Policy
import NetBoot.Server.Config

namespace NetBoot

structure RegistryOptions where
  insecureRegistries : List Text
  timeout : Nat
  caCertificate : Option Text
  skipVerification : Bool
  deriving DecidableEq, Repr

namespace RegistryOptions

def config (o : RegistryOptions) : RegistryConfig where
  requestTimeout := 1000 * o.timeout
  insecureRegistries := (o.insecureRegistries.map Text.trim).filter fun t => t ≠ []
  tls :=
    if o.caCertificate.isSome ∨ o.skipVerification then
      some ⟨o.caCertificate, o.skipVerification⟩
    else none

end RegistryOptions

inductive BootKind where
  | pxe
  | uki
  | iso
  deriving DecidableEq, Repr

namespace BootKind

def all : List BootKind := [.pxe, .uki, .iso]

def toText : BootKind → Text
  | .pxe => "pxe".toList
  | .uki => "uki".toList
  | .iso => "iso".toList

def ofText? (t : Text) : Option BootKind := all.find? fun k => k.toText = t

def artifacts : BootKind → List Artifact
  | .pxe => Artifact.pxe
  | .uki => [.uki]
  | .iso => [.iso]

end BootKind

structure ResolveOptions where
  image : Text
  architecture : Text
  kind : BootKind
  bootServer : Option Text
  json : Bool
  registry : RegistryOptions
  deriving DecidableEq, Repr

structure ServeOptions where
  address : SocketAddress
  architecture : Text
  allowed : Option Text
  blocked : Option Text
  driveFolder : Option Text
  driveTtl : Nat
  driveMaxSize : Nat
  registry : RegistryOptions
  deriving DecidableEq, Repr

namespace ServeOptions

def policy (o : ServeOptions) : RegistryPolicy :=
  RegistryPolicy.ofLists (o.allowed.getD []) (o.blocked.getD [])

def config (o : ServeOptions) : ServerConfig where
  address := o.address
  architecture := o.architecture
  driveTtl := 1000 * o.driveTtl * millisecond
  driveMaxSize := o.driveMaxSize

end ServeOptions

inductive Command where
  | version
  | resolve (o : ResolveOptions)
  | serve (o : ServeOptions)
  deriving DecidableEq, Repr

namespace Command

open CommandLine

def readNumber (t : Text) : Except ArgumentError Nat :=
  match Text.word64? t with
  | some n => .ok n
  | none => .error .unreadableValue

def readAddress (t : Text) : Except ArgumentError SocketAddress :=
  match SocketAddress.parse? t with
  | some a => .ok a
  | none => .error .unreadableValue

def readKind (t : Text) : Except ArgumentError BootKind :=
  match BootKind.ofText? t with
  | some k => .ok k
  | none => .error .invalidValue

def readPath (t : Text) : Except ArgumentError Text :=
  if t = [] then .error .invalidValue else .ok t

def checking {α : Type} (read : Text → Except ArgumentError α) (t : Text) :
    Except ArgumentError Unit := (read t).map fun _ => ()

def insecureName : Text := "insecure-registry".toList
def timeoutName : Text := "timeout".toList
def caName : Text := "ca-cert".toList
def skipName : Text := "insecure-skip-tls-verify".toList
def imageName : Text := "image".toList
def architectureName : Text := "architecture".toList
def kindName : Text := "kind".toList
def bootServerName : Text := "httpboot-url".toList
def jsonName : Text := "json".toList
def bindName : Text := "bind".toList
def allowedName : Text := "allowed-registries".toList
def blockedName : Text := "blocked-registries".toList
def driveFolderName : Text := "config-drive-dir".toList
def driveTtlName : Text := "config-drive-ttl".toList
def driveMaxSizeName : Text := "config-drive-max-size".toList

def helpOption : OptionSpec where
  name := "help".toList
  letter := some 'h'
  role := .help

def versionOption : OptionSpec where
  name := "version".toList
  letter := some 'V'
  role := .version

def number (name : Text) : OptionSpec where
  name := name
  role := .value
  check := checking readNumber

def registryOptions : List OptionSpec :=
  [{ name := insecureName, role := .list,
      variableName := some "BOOTPROXY_INSECURE_REGISTRIES".toList },
    number timeoutName,
    { name := caName, role := .value, variableName := some "BOOTPROXY_CA_CERT".toList,
      check := checking readPath },
    { name := skipName, role := .flag }]

def resolveGrammar : Grammar where
  options :=
    [{ name := architectureName, letter := some 'a', role := .value },
      { name := kindName, letter := some 'k', role := .value, check := checking readKind },
      { name := bootServerName, role := .value },
      { name := jsonName, role := .flag }] ++ registryOptions ++ [helpOption]
  operand := some { name := imageName, role := .value }

def serveGrammar : Grammar where
  options :=
    [{ name := bindName, role := .value, variableName := some "BOOTPROXY_BIND_ADDRESS".toList,
        check := checking readAddress },
      { name := architectureName, role := .value,
        variableName := some "BOOTPROXY_ARCHITECTURE".toList },
      { name := allowedName, role := .value, variableName := some RegistryPolicy.allowedVariable },
      { name := blockedName, role := .value, variableName := some RegistryPolicy.blockedVariable },
      { name := driveFolderName, role := .value,
        variableName := some "BOOTPROXY_CONFIG_DRIVE_DIR".toList, check := checking readPath },
      number driveTtlName,
      number driveMaxSizeName] ++ registryOptions ++ [helpOption]

def versionGrammar : Grammar where
  options := [helpOption]

def numberOf (vs : Values) (name : Text) (default : Nat) : Except ArgumentError Nat :=
  match vs.first? name with
  | some t => readNumber t
  | none => .ok default

def registryOf (vs : Values) : Except ArgumentError RegistryOptions := do
  let timeout ← numberOf vs timeoutName 30
  return ⟨(vs.get? insecureName).getD [], timeout, vs.first? caName, vs.has skipName⟩

def kindOf (vs : Values) : Except ArgumentError BootKind :=
  match vs.first? kindName with
  | some t => readKind t
  | none => .ok .pxe

def defaultArchitecture : Text := "amd64".toList

def resolveOf (vs : Values) : Except ArgumentError Command := do
  let kind ← kindOf vs
  let registry ← registryOf vs
  return .resolve
    { image := (vs.first? imageName).getD []
      architecture := (vs.first? architectureName).getD defaultArchitecture
      kind := kind
      bootServer := vs.first? bootServerName
      json := vs.has jsonName
      registry := registry }

def addressOf (vs : Values) : Except ArgumentError SocketAddress :=
  match vs.first? bindName with
  | some t => readAddress t
  | none => .ok (.v4 0 8083)

def serveOf (vs : Values) : Except ArgumentError Command := do
  let address ← addressOf vs
  let driveTtl ← numberOf vs driveTtlName 300
  let driveMaxSize ← numberOf vs driveMaxSizeName 104857600
  let registry ← registryOf vs
  return .serve
    { address := address
      architecture := (vs.first? architectureName).getD defaultArchitecture
      allowed := vs.first? allowedName
      blocked := vs.first? blockedName
      driveFolder := vs.first? driveFolderName
      driveTtl := driveTtl
      driveMaxSize := driveMaxSize
      registry := registry }

def resolveWord : Text := "resolve".toList
def serveWord : Text := "serve".toList
def versionWord : Text := "version".toList
def helpWord : Text := "help".toList

def words : List Text := [serveWord, resolveWord, versionWord, helpWord]

def help : List Text → ArgumentError
  | [] => .helpRequested
  | [word] => if word ∈ words then .helpRequested else .unknownCommand
  | _ => .unknownCommand

def readFlag (t : Text) : ArgumentError :=
  match Reading.readArgument { options := [helpOption, versionOption] } t {} with
  | .error e => e
  | .ok _ => .unknownArgument

def parse (environment : Text → Option Text) : List Text → Except ArgumentError Command
  | [] => .error .noArguments
  | word :: rest =>
      if word = serveWord then serveGrammar.read environment rest >>= serveOf
      else if word = resolveWord then resolveGrammar.read environment rest >>= resolveOf
      else if word = versionWord then
        (versionGrammar.read environment rest).map fun _ => .version
      else if word = helpWord then .error (help rest)
      else
        match word, rest with
        | ['-', '-'], [] => .error .noArguments
        | ['-', '-'], operand :: _ =>
            .error (if operand ∈ words then .unknownArgument else .unknownCommand)
        | '-' :: _ :: _, _ => .error (readFlag word)
        | _, _ => .error .unknownCommand

end Command

end NetBoot
