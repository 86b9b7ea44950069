import NetBoot.Image.Document
import NetBoot.Image.Reference
import NetBoot.Image.Selection
import NetBoot.Registry.Client
import NetBoot.Sha256

namespace NetBoot

structure Resolver where
  config : RegistryConfig
  flavor : Text := "metal_pxe".toList
  deriving DecidableEq, Repr

namespace Resolver

open Http Registry

def digestName : Text := "docker-content-digest".toList

def manifestCall (method : Method) (url : Text) (auth : Option Text) : Call :=
  ⟨.following, method, url, credentials auth ++ [(acceptName, MediaType.manifestAccept)]⟩

def label (image : ImageName) (reference : Text) : Text :=
  image.toText ++ ':' :: reference

def headerMediaType? (hs : Headers) : Option MediaType :=
  match hs.readable? contentTypeName with
  | none => none
  | some value =>
      let m := Text.trim (value.takeWhile (· ≠ ';'))
      if m = [] then none else some m

def headerDescriptor? (hs : Headers) : Option Descriptor := do
  let mediaType ← headerMediaType? hs
  let digest ← hs.readable? digestName
  let size ← (hs.readable? contentLengthName).bind Text.word64?
  let _ ← Digest.parse? digest
  return .plain mediaType digest size

def verify (d : Descriptor) (data : Bytes) : Except RegistryError Unit :=
  if data.length ≠ d.size then .error (.sizeMismatch d.size data.length)
  else if Text.startsWith d.digest "sha256:".toList ∧ Sha256.digestText data ≠ d.digest then
    .error (.digestMismatch d.digest (Sha256.digestText data))
  else .ok ()

def checkStatus (r : Reply) (image : ImageName) (reference : Text) : Except RegistryError Unit :=
  if r.isSuccess then .ok ()
  else if r.status = 404 then .error (.manifestNotFound (label image reference))
  else .error (.httpError r.status ("fetching manifest ".toList ++ label image reference))

def bodyOf (r : Reply) : Except RegistryError Bytes := r.bytes.mapError ofCallError

def mediaTypeOf (hs : Headers) (data : Bytes) : MediaType :=
  (headerMediaType? hs <|> Document.embeddedMediaType? data).getD MediaType.ociManifest

def derivedDescriptor (pinned : Option Digest) (hs : Headers) (data : Bytes) : Descriptor :=
  .plain (mediaTypeOf hs data) ((pinned.map Digest.toText).getD (Sha256.digestText data))
    data.length

def headOutcome (image : ImageName) (reference : Text) (pinned : Option Digest) (r : Reply) :
    Except RegistryError (Option Descriptor) :=
  if r.status = 404 then .error (.manifestNotFound (label image reference))
  else if r.isSuccess then
    match headerDescriptor? r.headers, pinned with
    | none, _ => .ok none
    | some d, none => .ok (some d)
    | some d, some p =>
        if d.digest = p.toText then .ok (some d) else .error (.digestMismatch p.toText d.digest)
  else .ok none

def getOutcome (image : ImageName) (reference : Text) (pinned : Option Digest) (r : Reply) :
    Except RegistryError (Descriptor × Bytes) := do
  checkStatus r image reference
  let data ← bodyOf r
  let d := derivedDescriptor pinned r.headers data
  verify d data
  return (d, data)

def contentOutcome (image : ImageName) (d : Descriptor) (r : Reply) :
    Except RegistryError Bytes := do
  checkStatus r image d.digest
  let data ← bodyOf r
  verify d data
  return data

def fetchContent (c : RegistryConfig) (image : ImageName) (d : Descriptor)
    (auth : Option Text) : Fetch Bytes := do
  let r ← callOrFail (manifestCall .get (manifestUrl c image d.digest) auth)
  Fetch.ofExcept (contentOutcome image d r)

def fetchRoot (c : RegistryConfig) (image : ImageName) (reference : Text)
    (pinned : Option Digest) (auth : Option Text) : Fetch (Descriptor × Bytes) := do
  let url := manifestUrl c image reference
  let head ← callOrFail (manifestCall .head url auth)
  match ← Fetch.ofExcept (headOutcome image reference pinned head) with
  | some d => return (d, ← fetchContent c image d auth)
  | none =>
      let r ← callOrFail (manifestCall .get url auth)
      Fetch.ofExcept (getOutcome image reference pinned r)

def parseDocument (mediaType : MediaType) (data : Bytes) : Except RegistryError Document :=
  (Document.parse mediaType data).mapError fun
    | .json f => .json f
    | .mediaType => .unsupportedMediaType mediaType

def selectEntry (r : Resolver) (architecture : Text) (i : ImageIndex) :
    Except RegistryError Descriptor :=
  match Selection.entry? r.flavor architecture i.manifests with
  | some entry => .ok entry
  | none => .error (.architectureNotFound architecture)

def selectLayers (architecture : Text) (m : Manifest) (kinds : List Artifact) :
    Except RegistryError Selection.Assignment :=
  (Selection.layers architecture m.layers kinds).mapError fun kind => .layerNotFound kind.toText

def fetchManifest (r : Resolver) (image : ImageName) (architecture : Text)
    (auth : Option Text) (root : Descriptor × Bytes) : Fetch Manifest := do
  match ← Fetch.ofExcept (parseDocument root.1.mediaType root.2) with
  | .manifest m => return m
  | .index i =>
      let entry ← Fetch.ofExcept (selectEntry r architecture i)
      let nested ← fetchContent r.config image entry auth
      match ← Fetch.ofExcept (parseDocument entry.mediaType nested) with
      | .manifest m => return m
      | .index _ => throw (.unsupportedMediaType entry.mediaType)

def resolveWith (r : Resolver) (reference : ImageReference) (architecture : Text)
    (kinds : List Artifact) (auth : Option Text) : Fetch Selection.Assignment := do
  let root ← fetchRoot r.config reference.image reference.manifestReference reference.digest auth
  let m ← fetchManifest r reference.image architecture auth root
  Fetch.ofExcept (selectLayers architecture m kinds)

def negotiate (c : RegistryConfig) (image : ImageName) :
    Session (RegistryInfo × Option Text) := do
  let info ← registryInfo c image.registry image.repository
  let auth ← Session.ofFetch (authorization info image.repository)
  return (info, auth)

def resolve (r : Resolver) (reference : ImageReference) (architecture : Text)
    (kinds : List Artifact) : Session Selection.Assignment := do
  let (_, auth) ← negotiate r.config reference.image
  Session.ofFetch (resolveWith r reference architecture kinds auth)

def take (kind : Artifact) (a : Selection.Assignment) : Except RegistryError Descriptor :=
  match a.take? kind with
  | some d => .ok d
  | none => .error (.layerNotFound kind.toText)

def resolveSingle (r : Resolver) (reference : ImageReference) (architecture : Text)
    (kind : Artifact) : Session Descriptor := do
  let a ← resolve r reference architecture [kind]
  Session.ofExcept (take kind a)

structure PxeDigests where
  kernel : Text
  initrd : Text
  squashfs : Text
  deriving DecidableEq, Repr

def resolvePxe (r : Resolver) (reference : ImageReference) (architecture : Text) :
    Session PxeDigests := do
  let a ← resolve r reference architecture Artifact.pxe
  let kernel ← Session.ofExcept (take .kernel a)
  let initrd ← Session.ofExcept (take .initrd a)
  let squashfs ← Session.ofExcept (take .squashfs a)
  return ⟨kernel.digest, initrd.digest, squashfs.digest⟩

def bootUrl (serverUrl name : Text) (d : Digest) : Text :=
  Text.dropEndWhile (· = '/') serverUrl ++ '/' :: name ++ '/' :: d.toSegment ++ ".efi".toList

def httpBootUrl (r : Resolver) (image serverUrl architecture : Text) : Session Text := do
  let reference ← Session.ofExcept (ImageReference.parse image)
  let uki ← resolveSingle r reference architecture .uki
  match Digest.parse? uki.digest with
  | none => throw (.invalidDigest uki.digest)
  | some d =>
      if (Url.parse? serverUrl).isSome then return bootUrl serverUrl reference.name d
      else throw (.invalidUrl serverUrl)

end Resolver

end NetBoot
