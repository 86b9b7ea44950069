import NetBoot.Image.MediaType
import NetBoot.Registry.Client
import NetBoot.Server.Response

namespace NetBoot

abbrev Relay := ExceptT BootError Http.Calls

namespace BlobRelay

open Http

def hopByHop : List Text :=
  ["connection".toList, "proxy-authenticate".toList, "proxy-authorization".toList, "te".toList,
    "trailer".toList, "transfer-encoding".toList, "upgrade".toList, "keep-alive".toList]

def endToEnd (hs : Headers) : Headers := hs.filter fun h => h.1 ∉ hopByHop

def forwarded (inbound : Headers) : Headers :=
  ((endToEnd inbound).remove hostName).remove authorizationName

def outbound (inbound : Headers) (auth : Option Text) : Headers :=
  match auth with
  | some value => (forwarded inbound).set authorizationName value
  | none => forwarded inbound

def redirectTarget (r : Reply) : Except BootError Url :=
  match (r.headers.readable? locationName).bind (Url.join? r.url) with
  | some url => .ok url
  | none => .error (.invalidRedirect r.url.toText)

/-- Boot programs are labelled as what firmware expects. -/
def relabelled (hs : Headers) : Headers :=
  if hs.first? contentTypeName = some MediaType.uki then hs.set contentTypeName MediaType.efi
  else hs

def rewritten (hs : Headers) (length : Option Nat) : Headers :=
  let hs := relabelled (endToEnd hs)
  match length with
  | some (n + 1) => hs.setDefault contentLengthName (Text.digits (n + 1))
  | _ => hs

def respond (r : Reply) : Response :=
  ⟨r.status, rewritten r.headers r.body.length, { r.body with length := none }⟩

def blobCall (url : Text) (headers : Headers) : Call := ⟨.plain, .get, url, headers⟩

def send (url : Text) (headers : Headers) : Relay Reply := do
  match ← call (blobCall url headers) with
  | .error e => throw (.relayFailed url e)
  | .ok r => return r

def isStorageRedirect (r : Reply) : Bool := r.status = 307

def fetch (url : Text) (headers : Headers) : Relay Reply := do
  let first ← send url headers
  if isStorageRedirect first then
    let location ← ExceptT.mk (.done (redirectTarget first))
    send location.toText headers
  else return first

def relay (c : RegistryConfig) (inbound : Headers) (image : ImageName) (d : Digest)
    (auth : Option Text) : Relay Response := do
  let reply ← fetch (Registry.blobUrl c image d) (outbound inbound auth)
  return respond reply

end BlobRelay

end NetBoot
