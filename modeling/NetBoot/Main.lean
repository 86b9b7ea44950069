import NetBoot.CommandLine.Report
import NetBoot.Drive.Folder
import NetBoot.Http.Message
import NetBoot.Server.Router
import Std.Async.DNS
import Std.Async.TCP
import Std.Async.Timer

namespace NetBoot.Program

open Std.Async

def toBytes (bs : ByteArray) : Bytes := bs.toList

def ofBytes (bs : Bytes) : ByteArray := ⟨bs.toArray⟩

def toText (s : String) : Text := s.toList

def ofText (t : Text) : String := String.ofList t

def systemCode (code : UInt32) : Nat :=
  if 2147483648 ≤ code.toNat then 4294967296 - code.toNat else code.toNat

def systemMessage (code : UInt32) (details : String) : Text :=
  let text :=
    match systemCode code with
    | 2 => "No such file or directory"
    | 13 => "Permission denied"
    | 21 => "Is a directory"
    | 36 => "File name too long"
    | 98 => "Address already in use"
    | 99 => "Cannot assign requested address"
    | 101 => "Network is unreachable"
    | 111 => "Connection refused"
    | _ => details
  toText text ++ " (os error ".toList ++ Text.digits (systemCode code) ++ [')']

def failureText : IO.Error → Text
  | .alreadyExists _ code details | .otherError code details | .resourceBusy code details
  | .resourceVanished code details | .unsupportedOperation code details
  | .hardwareFault code details | .unsatisfiedConstraints code details
  | .illegalOperation code details | .protocolError code details | .timeExpired code details
  | .interrupted _ code details | .noFileOrDirectory _ code details
  | .invalidArgument _ code details | .permissionDenied _ code details
  | .resourceExhausted _ code details | .inappropriateType _ code details
  | .noSuchThing _ code details => systemMessage code details
  | .unexpectedEof => "unexpected end of file".toList
  | .userError message => toText message

def isMissing : IO.Error → Bool
  | .noFileOrDirectory .. => true
  | _ => false

def port (n : Nat) : UInt16 := UInt16.ofNat n

def ipv4 (n : Nat) : Std.Net.IPv4Addr :=
  .ofParts (UInt8.ofNat (n / 16777216)) (UInt8.ofNat (n / 65536)) (UInt8.ofNat (n / 256))
    (UInt8.ofNat n)

def ipv6 (pieces : List Nat) : Std.Net.IPv6Addr :=
  let piece (i : Nat) : UInt16 := UInt16.ofNat (pieces[i]?.getD 0)
  .ofParts (piece 0) (piece 1) (piece 2) (piece 3) (piece 4) (piece 5) (piece 6) (piece 7)

def v4 (a : Std.Net.IPv4Addr) (p : Nat) : Std.Net.SocketAddress := .v4 ⟨a, port p⟩

def v6 (a : Std.Net.IPv6Addr) (p : Nat) : Std.Net.SocketAddress := .v6 ⟨a, port p⟩

def addressOf : SocketAddress → Std.Net.SocketAddress
  | .v4 a p => v4 (ipv4 a) p
  | .v6 pieces _ p => v6 (ipv6 pieces) p

def addressesOf (host : Url.Host) (p : Nat) : Async (List Std.Net.SocketAddress) :=
  match host with
  | .ipv4 a => return [v4 (ipv4 a) p]
  | .ipv6 pieces => return [v6 (ipv6 pieces) p]
  | .domain name | .named name => do
      let found ← DNS.getAddrInfo (ofText name) ""
      return found.toList.map fun
        | .v4 a => v4 a p
        | .v6 a => v6 a p

partial def receiveAll (c : TCP.Socket.Client) (received : IO.Ref ByteArray) : Async Unit := do
  match ← c.recv? 65536 with
  | some bs =>
      received.modify (· ++ bs)
      receiveAll c received
  | none => return

partial def receiveHead (c : TCP.Socket.Client) (received : ByteArray) :
    Async (Option Http.MessageHead) := do
  match Http.MessageHead.read? (toBytes received) with
  | some (head, _) => return some head
  | none =>
      if 1048576 < received.size then return none
      match ← c.recv? 65536 with
      | some bs => receiveHead c (received ++ bs)
      | none => return none

def connect : List Std.Net.SocketAddress → Async TCP.Socket.Client
  | [] => throw (.userError "no address found")
  | [a] => do
      let c ← TCP.Socket.Client.mk
      c.connect a
      return c
  | a :: rest => do
      try
        let c ← TCP.Socket.Client.mk
        c.connect a
        return c
      catch _ => connect rest

def unreachable (cause : Text) : Http.Answer :=
  .failed ⟨.unreachable, ["client error (Connect)".toList, "tcp connect error".toList, cause]⟩

def timedOut : Http.Answer := .failed ⟨.timedOut, ["operation timed out".toList]⟩

def exchange (r : Http.Request) (received : IO.Ref ByteArray) : Async Http.Answer := do
  match r.url.host, r.url.portOrDefault? with
  | some host, some p =>
      let attempt : Async (Except IO.Error TCP.Socket.Client) := do
        try
          let c ← connect (← addressesOf host p)
          return .ok c
        catch e => return .error e
      match ← attempt with
      | .error e => return unreachable (failureText e)
      | .ok c =>
          try
            c.send (ofBytes (Http.Message.ofRequest r))
            receiveAll c received
            let bs := toBytes (← received.get)
            return (Http.Message.answer? r.method bs).getD (.failed ⟨.broken, []⟩)
          catch e => return .failed ⟨.broken, [failureText e]⟩
  | _, _ => return unreachable "no host".toList

def expiry (timeout : Nat) (r : Http.Request) (received : IO.Ref ByteArray) :
    Async Http.Answer := do
  sleep (.ofNat timeout)
  let bs := toBytes (← received.get)
  return (Http.Message.overdueAnswer? r.method bs).getD timedOut

instance : Inhabited Http.Answer := ⟨timedOut⟩

def answer (config : RegistryConfig) (r : Http.Request) : IO Http.Answer := do
  if r.url.scheme = "https".toList then
    return unreachable "secure connections are not supported".toList
  let received ← IO.mkRef ByteArray.empty
  (Async.race (exchange r received) (expiry config.requestTimeout r received)).block

def converse {α : Type} (config : RegistryConfig) : Http.Exchange α → IO α
  | .done a => return a
  | .ask r next => do
      let a ← answer config r
      converse config (next a)

def perform {α : Type} (config : RegistryConfig) (x : Http.Calls α) : IO α :=
  converse config (Http.onWire x)

def contentOf (path : Text) : IO (Except Text Bytes) := do
  try
    return .ok (toBytes (← IO.FS.readBinFile (ofText path)))
  catch e => return .error (failureText e)

def readerOf (o : RegistryOptions) : IO RegistryConfig.FileReader := do
  match o.caCertificate with
  | none => return fun _ => .error []
  | some path =>
      let content ← contentOf path
      return fun _ => content

def itemOf (path : Text) : IO (Except IO.Error FolderItem) := do
  try
    let real ← IO.FS.realPath (ofText path)
    let metadata ← real.metadata
    match metadata.type with
    | .file =>
        let content ← IO.FS.readBinFile real
        let modified := metadata.modified.sec * 1000000000 + metadata.modified.nsec.toNat
        return .ok (.file (toBytes content) modified)
    | _ => return .ok .folder
  catch e => return .error e

def folderProvider (folder id : Text) : IO DriveProvider := do
  match DriveFolder.fileName? id with
  | none => return DriveFolder.provider []
  | some name =>
      match DriveFolder.lookup name [] with
      | .error .missing =>
          match ← itemOf (folder ++ '/' :: name) with
          | .ok item => return DriveFolder.provider [(name, item)]
          | .error e =>
              if isMissing e then return DriveFolder.provider []
              else
                let failed : DriveError := .unrendered id (failureText e)
                return ⟨fun _ => .error failed, fun _ => .error failed⟩
      | _ => return DriveFolder.provider []

def providerFor (folder : Option Text) (target : Http.Target) : IO DriveProvider := do
  match folder, Route.ofPath? target.path with
  | some folder, some (.drive file) =>
      match (Route.decode? file).map Router.driveId with
      | some (.ok id) => folderProvider folder id
      | _ => return .empty
  | _, _ => return .empty

def requestOf (h : Http.MessageHead) : Option BootRequest :=
  match Text.splitAll ' ' h.line with
  | [method, target, _] =>
      (Http.Target.parse? target).map fun target => ⟨method, target, h.headers⟩
  | _ => none

/-- What was learnt during a request joins what others have learnt meanwhile. -/
def merge (before after current : ServerState) : ServerState where
  auth := (after.auth.filter fun p => (before.auth.get? p.1).isNone).foldr
    (fun p auth => auth.insert p.2) current.auth
  drives := if after.drives = before.drives then current.drives else after.drives

def reply (c : TCP.Socket.Client) (r : Response) : IO Unit :=
  (do
    c.send (ofBytes (Http.Message.ofResponse r.status r.headers r.body.bytes))
    c.shutdown : Async Unit).block

def serveConnection (o : ServeOptions) (state : IO.Ref ServerState) (c : TCP.Socket.Client) :
    IO Unit := do
  let config := o.registry.config
  let service : LayerService := ⟨config, o.policy, o.architecture⟩
  match (← (receiveHead c .empty).block).bind requestOf with
  | none => reply c (.empty 400 [])
  | some request =>
      let provider ← providerFor o.driveFolder request.target
      let before ← state.get
      let now ← IO.monoNanosNow
      let served ← perform config (Router.serve service provider now request before)
      state.modify (merge before served.state)
      reply c served.response

partial def sweepForever (period : Nat) (state : IO.Ref ServerState) : IO Unit := do
  IO.sleep (UInt32.ofNat (min period 4000000000))
  let now ← IO.monoNanosNow
  state.modify fun s => { s with drives := (s.drives.sweep now).1 }
  sweepForever period state

partial def acceptForever (o : ServeOptions) (state : IO.Ref ServerState)
    (server : TCP.Socket.Server) : IO Unit := do
  let c ← (server.accept).block
  let _ ← IO.asTask (serveConnection o state c)
  acceptForever o state server

def failWith (f : CommandFailure) : IO UInt32 := do
  IO.eprintln ("Error: " ++ ofText f.message)
  return 1

def listenOn (a : SocketAddress) : IO TCP.Socket.Server := do
  let server ← TCP.Socket.Server.mk
  server.bind (addressOf a)
  server.listen 1024
  return server

def serve (o : ServeOptions) : IO UInt32 := do
  match o.registry.checked (← readerOf o.registry) with
  | .error f => failWith f
  | .ok _ =>
      let drives := o.config.driveCache
      let state ← IO.mkRef ⟨[], drives⟩
      try
        let server ← listenOn o.address
        let _ ← IO.asTask (sweepForever (drives.sweepPeriod / millisecond) state)
        acceptForever o state server
        return 0
      catch e => failWith (.ofAddress o.address (failureText e))

def resolve (o : ResolveOptions) : IO UInt32 := do
  let (result, _) ← perform o.registry.config ((o.run (← readerOf o.registry)).run [])
  match result with
  | .ok report =>
      IO.print (ofText (report.render o.json))
      return 0
  | .error f => failWith f

def versionText : String := "bootproxy 0.1.0"

def usage : String :=
  "Usage: bootproxy <COMMAND>\n\nCommands:\n  serve    Run the image proxy server\n" ++
    "  resolve  Resolve the boot layers of an image\n  version  Print version information\n" ++
    "  help     Print this message or the help of the given subcommand(s)"

def argumentText : ArgumentError → String
  | .unknownArgument => "unexpected argument found"
  | .unknownCommand => "unrecognized subcommand"
  | .invalidValue => "invalid or missing value for an option"
  | .unreadableValue => "a value cannot be read"
  | .repeatedArgument => "an option cannot be used multiple times"
  | .unexpectedValue => "unexpected value for a flag"
  | .missingArgument => "a required argument was not provided"
  | .helpRequested | .noArguments => usage
  | .versionRequested => versionText

def explain (e : ArgumentError) : IO UInt32 := do
  match e with
  | .helpRequested | .versionRequested => IO.println (argumentText e)
  | .noArguments => IO.eprintln (argumentText e)
  | _ => IO.eprintln ("error: " ++ argumentText e ++ "\n\n" ++ usage)
  return UInt32.ofNat e.exitCode

def variableNames : List String :=
  ["BOOTPROXY_INSECURE_REGISTRIES", "BOOTPROXY_CA_CERT", "BOOTPROXY_BIND_ADDRESS",
    "BOOTPROXY_ARCHITECTURE", "ALLOWED_REGISTRIES", "BLOCKED_REGISTRIES",
    "BOOTPROXY_CONFIG_DRIVE_DIR"]

def environment : IO (List (Text × Text)) :=
  variableNames.filterMapM fun name => do
    return (← IO.getEnv name).map fun value => (toText name, toText value)

def run (arguments : List String) : IO UInt32 := do
  let found ← environment
  match Command.parse (fun name => List.lookup name found) (arguments.map toText) with
  | .error e => explain e
  | .ok .version => do
      IO.println versionText
      return 0
  | .ok (.resolve o) => resolve o
  | .ok (.serve o) => serve o

end NetBoot.Program

def main (arguments : List String) : IO UInt32 := NetBoot.Program.run arguments
