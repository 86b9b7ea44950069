import NetBoot.Image.Annotations
import NetBoot.Image.MediaType

namespace NetBoot

structure Platform where
  architecture : Text
  os : Text
  variant : Option Text
  deriving DecidableEq, Repr

structure Descriptor where
  mediaType : MediaType
  digest : Text
  size : Nat
  platform : Option Platform
  annotations : Option Annotations
  deriving DecidableEq, Repr

structure Manifest where
  schemaVersion : Nat
  mediaType : Option MediaType
  config : Option Descriptor
  layers : List Descriptor
  annotations : Option Annotations
  deriving DecidableEq, Repr

structure ImageIndex where
  schemaVersion : Nat
  mediaType : Option MediaType
  manifests : List Descriptor
  annotations : Option Annotations
  deriving DecidableEq, Repr

namespace Descriptor

def plain (mediaType : MediaType) (digest : Text) (size : Nat) : Descriptor :=
  ⟨mediaType, digest, size, none, none⟩

def withAnnotation (d : Descriptor) (key value : Text) : Descriptor :=
  { d with annotations := some (Annotations.set key value (d.annotations.getD [])) }

def withArchitecture (d : Descriptor) (architecture : Text) : Descriptor :=
  { d with platform := some ⟨architecture, "linux".toList, none⟩ }

def annotation? (d : Descriptor) (key : Text) : Option Text :=
  d.annotations.bind (Annotations.get? key)

def architecture? (d : Descriptor) : Option Text := d.platform.map Platform.architecture

end Descriptor

def Manifest.ofLayers (layers : List Descriptor) : Manifest :=
  ⟨2, some MediaType.ociManifest, none, layers, none⟩

def ImageIndex.ofEntries (entries : List Descriptor) : ImageIndex :=
  ⟨2, some MediaType.ociIndex, entries, none⟩

end NetBoot
