import NetBoot.Image.Descriptor
import NetBoot.Image.Document.Key
import NetBoot.Json.Decode

namespace NetBoot.Document

open Json

def sizeBound : Nat := Nat.pow 2 64

def versionBound : Nat := Nat.pow 2 32

def readAnnotations : Tree → Except Fault Annotations
  | .object members =>
      members.fold (fun a k v => v.toText.map fun t => Annotations.set k t a) []
  | v => .error v.mismatch

structure PlatformFields where
  architecture : Option Text
  os : Option Text
  variant : Option (Option Text)

def PlatformFields.read (f : PlatformFields) (key : Text) (v : Tree) :
    Except Fault PlatformFields :=
  if key = architectureKey then
    (once f.architecture Tree.toText v).map fun x => { f with architecture := x }
  else if key = osKey then (once f.os Tree.toText v).map fun x => { f with os := x }
  else if key = variantKey then
    (once f.variant (Tree.toOption Tree.toText) v).map fun x => { f with variant := x }
  else passOver f v

def PlatformFields.build (f : PlatformFields) : Except Fault Platform := do
  let architecture ← required f.architecture
  return ⟨architecture, f.os.getD [], f.variant.getD none⟩

def platformInOrder (items : Items) : Except Fault (Platform × Items) := do
  let (architecture, items) ← items.next Tree.toText (.error .unfit)
  let (os, items) ← items.next Tree.toText (.ok [])
  let (variant, items) ← items.next (Tree.toOption Tree.toText) (.error .unfit)
  return (⟨architecture, os, variant⟩, items)

def readPlatform : Tree → Except Fault Platform :=
  Tree.toRecord PlatformFields.read ⟨none, none, none⟩ PlatformFields.build platformInOrder

structure DescriptorFields where
  mediaType : Option MediaType
  digest : Option Text
  size : Option Nat
  platform : Option (Option Platform)
  annotations : Option (Option Annotations)

def DescriptorFields.read (f : DescriptorFields) (key : Text) (v : Tree) :
    Except Fault DescriptorFields :=
  if key = mediaTypeKey then
    (once f.mediaType Tree.toText v).map fun x => { f with mediaType := x }
  else if key = digestKey then (once f.digest Tree.toText v).map fun x => { f with digest := x }
  else if key = sizeKey then
    (once f.size (Tree.toNatural sizeBound) v).map fun x => { f with size := x }
  else if key = platformKey then
    (once f.platform (Tree.toOption readPlatform) v).map fun x => { f with platform := x }
  else if key = annotationsKey then
    (once f.annotations (Tree.toOption readAnnotations) v).map fun x => { f with annotations := x }
  else passOver f v

def DescriptorFields.build (f : DescriptorFields) : Except Fault Descriptor := do
  let mediaType ← required f.mediaType
  let digest ← required f.digest
  let size ← required f.size
  return ⟨mediaType, digest, size, f.platform.getD none, f.annotations.getD none⟩

def descriptorInOrder (items : Items) : Except Fault (Descriptor × Items) := do
  let (mediaType, items) ← items.next Tree.toText (.error .unfit)
  let (digest, items) ← items.next Tree.toText (.error .unfit)
  let (size, items) ← items.next (Tree.toNatural sizeBound) (.error .unfit)
  let (platform, items) ← items.next (Tree.toOption readPlatform) (.error .unfit)
  let (annotations, items) ← items.next (Tree.toOption readAnnotations) (.error .unfit)
  return (⟨mediaType, digest, size, platform, annotations⟩, items)

def readDescriptor : Tree → Except Fault Descriptor :=
  Tree.toRecord DescriptorFields.read ⟨none, none, none, none, none⟩ DescriptorFields.build
    descriptorInOrder

structure ManifestFields where
  schemaVersion : Option Nat
  mediaType : Option (Option MediaType)
  config : Option (Option Descriptor)
  layers : Option (List Descriptor)
  annotations : Option (Option Annotations)

def ManifestFields.read (f : ManifestFields) (key : Text) (v : Tree) :
    Except Fault ManifestFields :=
  if key = schemaVersionKey then
    (once f.schemaVersion (Tree.toNatural versionBound) v).map fun x => { f with schemaVersion := x }
  else if key = mediaTypeKey then
    (once f.mediaType (Tree.toOption Tree.toText) v).map fun x => { f with mediaType := x }
  else if key = configKey then
    (once f.config (Tree.toOption readDescriptor) v).map fun x => { f with config := x }
  else if key = layersKey then
    (once f.layers (Tree.toList readDescriptor) v).map fun x => { f with layers := x }
  else if key = annotationsKey then
    (once f.annotations (Tree.toOption readAnnotations) v).map fun x => { f with annotations := x }
  else passOver f v

def ManifestFields.build (f : ManifestFields) : Except Fault Manifest := do
  let schemaVersion ← required f.schemaVersion
  return ⟨schemaVersion, f.mediaType.getD none, f.config.getD none, f.layers.getD [],
    f.annotations.getD none⟩

def manifestInOrder (items : Items) : Except Fault (Manifest × Items) := do
  let (schemaVersion, items) ← items.next (Tree.toNatural versionBound) (.error .unfit)
  let (mediaType, items) ← items.next (Tree.toOption Tree.toText) (.ok none)
  let (config, items) ← items.next (Tree.toOption readDescriptor) (.ok none)
  let (layers, items) ← items.next (Tree.toList readDescriptor) (.ok [])
  let (annotations, items) ← items.next (Tree.toOption readAnnotations) (.ok none)
  return (⟨schemaVersion, mediaType, config, layers, annotations⟩, items)

def readManifest : Tree → Except Fault Manifest :=
  Tree.toRecord ManifestFields.read ⟨none, none, none, none, none⟩ ManifestFields.build
    manifestInOrder

structure IndexFields where
  schemaVersion : Option Nat
  mediaType : Option (Option MediaType)
  manifests : Option (List Descriptor)
  annotations : Option (Option Annotations)

def IndexFields.read (f : IndexFields) (key : Text) (v : Tree) : Except Fault IndexFields :=
  if key = schemaVersionKey then
    (once f.schemaVersion (Tree.toNatural versionBound) v).map fun x => { f with schemaVersion := x }
  else if key = mediaTypeKey then
    (once f.mediaType (Tree.toOption Tree.toText) v).map fun x => { f with mediaType := x }
  else if key = manifestsKey then
    (once f.manifests (Tree.toList readDescriptor) v).map fun x => { f with manifests := x }
  else if key = annotationsKey then
    (once f.annotations (Tree.toOption readAnnotations) v).map fun x => { f with annotations := x }
  else passOver f v

def IndexFields.build (f : IndexFields) : Except Fault ImageIndex := do
  let schemaVersion ← required f.schemaVersion
  return ⟨schemaVersion, f.mediaType.getD none, f.manifests.getD [], f.annotations.getD none⟩

def indexInOrder (items : Items) : Except Fault (ImageIndex × Items) := do
  let (schemaVersion, items) ← items.next (Tree.toNatural versionBound) (.error .unfit)
  let (mediaType, items) ← items.next (Tree.toOption Tree.toText) (.ok none)
  let (manifests, items) ← items.next (Tree.toList readDescriptor) (.ok [])
  let (annotations, items) ← items.next (Tree.toOption readAnnotations) (.ok none)
  return (⟨schemaVersion, mediaType, manifests, annotations⟩, items)

def readIndex : Tree → Except Fault ImageIndex :=
  Tree.toRecord IndexFields.read ⟨none, none, none, none⟩ IndexFields.build indexInOrder

end NetBoot.Document
