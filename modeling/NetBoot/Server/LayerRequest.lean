import NetBoot.Image.Artifact
import NetBoot.Image.Digest
import NetBoot.Server.Error
import NetBoot.Url.Form

namespace NetBoot

inductive LayerChoice where
  | digest (d : Digest)
  | artifact (version : Text) (kind : Artifact)
  deriving DecidableEq, Repr

structure LayerRequest where
  imageName : Text
  layer : LayerChoice
  deriving DecidableEq, Repr

structure ImageQuery where
  imageName : Option Text := none
  version : Option Text := none
  layerDigest : Option Text := none
  layerName : Option Text := none
  deriving DecidableEq, Repr

namespace ImageQuery

def imageNameKey : Text := "imageName".toList

def versionKey : Text := "version".toList

def layerDigestKey : Text := "layerDigest".toList

def layerNameKey : Text := "layerName".toList

def put (slot : Option Text) (key value : Text) : Except Text (Option Text) :=
  match slot with
  | some _ => .error key
  | none => .ok (some value)

def add (q : ImageQuery) (p : Text × Text) : Except Text ImageQuery :=
  if p.1 = imageNameKey then (put q.imageName p.1 p.2).map fun x => { q with imageName := x }
  else if p.1 = versionKey then (put q.version p.1 p.2).map fun x => { q with version := x }
  else if p.1 = layerDigestKey then
    (put q.layerDigest p.1 p.2).map fun x => { q with layerDigest := x }
  else if p.1 = layerNameKey then (put q.layerName p.1 p.2).map fun x => { q with layerName := x }
  else .ok q

def parse (query : Text) : Except Text ImageQuery := (Form.pairs query).foldlM add {}

def nonempty (t : Option Text) : Option Text := t.filter fun t => t ≠ []

def missing (key : Text) : BootError :=
  .invalidRequest ("missing query parameter '".toList ++ key ++ ['\''])

def required (value : Option Text) (key : Text) : Except BootError Text :=
  match nonempty value with
  | some t => .ok t
  | none => .error (missing key)

end ImageQuery

namespace LayerRequest

def extension : Text := ".efi".toList

def parseDigest (t : Text) : Except BootError Digest :=
  match Digest.parse? t with
  | some d => .ok d
  | none => .error (.registry (.invalidDigest t))

def choice (q : ImageQuery) (version : Text) : Except BootError LayerChoice :=
  match ImageQuery.nonempty q.layerDigest, ImageQuery.nonempty q.layerName with
  | some digest, _ => (parseDigest digest).map .digest
  | none, some mediaType =>
      match Artifact.ofMediaType? mediaType with
      | some kind => .ok (.artifact version kind)
      | none =>
          .error (.invalidRequest ("unknown layer media type '".toList ++ mediaType ++ ['\'']))
  | none, none => .error (ImageQuery.missing ImageQuery.layerDigestKey)

def ofQuery (q : ImageQuery) : Except BootError LayerRequest := do
  let imageName ← ImageQuery.required q.imageName ImageQuery.imageNameKey
  let version ← ImageQuery.required q.version ImageQuery.versionKey
  let layer ← choice q version
  return ⟨(Text.before? extension imageName).getD imageName, layer⟩

def ofBootPath (path : Text) : Except BootError LayerRequest :=
  match Text.splitLast '/' (path.dropWhile (· = '/')) with
  | none => .error (.invalidRequest "httpboot path has no image name".toList)
  | some (imageName, file) =>
      match Text.before? extension file with
      | none => .error (.invalidRequest "httpboot path must end in .efi".toList)
      | some segment =>
          if Text.startsWith segment "sha256-".toList then
            match Digest.ofSegment segment with
            | .ok d => .ok ⟨imageName, .digest d⟩
            | .error t => .error (.registry (.invalidDigest t))
          else .error (.invalidRequest "httpboot digest must start with sha256-".toList)

end LayerRequest

end NetBoot
