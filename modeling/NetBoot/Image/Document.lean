import NetBoot.Image.Document.Reader
import NetBoot.Json.Reader

namespace NetBoot

inductive Document where
  | index (i : ImageIndex)
  | manifest (m : Manifest)
  deriving DecidableEq, Repr

namespace Document

inductive Refusal where
  | json (f : Json.Fault)
  | mediaType
  deriving DecidableEq, Repr

def sniff (data : Json.Document) : Except Refusal Document :=
  match data.generic with
  | .error f => .error (.json f)
  | .ok v =>
      if (v.get? manifestsKey).isSome then
        ((Json.fromGeneric readIndex v).map .index).mapError .json
      else if (v.get? layersKey).isSome then
        ((Json.fromGeneric readManifest v).map .manifest).mapError .json
      else .error .mediaType

def parse (mediaType : MediaType) (data : Bytes) : Except Refusal Document :=
  let text := Json.parse data
  if mediaType.isIndex then ((text.read readIndex).map .index).mapError .json
  else if mediaType.isManifest then ((text.read readManifest).map .manifest).mapError .json
  else sniff text

def embeddedMediaType? (data : Bytes) : Option MediaType :=
  match (Json.parse data).generic with
  | .error _ => none
  | .ok v => (v.get? mediaTypeKey).bind Json.Tree.asText?

end Document

end NetBoot
