import NetBoot.Image.Descriptor
import NetBoot.Image.Document.Key
import NetBoot.Json.Writer

namespace NetBoot.Document

open Json

def optional {α : Type} (key : Text) (write : α → Tree) : Option α → List (Text × Tree)
  | none => []
  | some a => [(key, write a)]

def writeObject (members : List (Text × Tree)) : Tree := .object (Members.ofList members)

def writeList {α : Type} (write : α → Tree) (as : List α) : Tree :=
  .array (Items.ofList (as.map write))

def writeAnnotations (a : Annotations) : Tree := writeObject (a.map fun p => (p.1, .text p.2))

def writePlatform (p : Platform) : Tree :=
  writeObject
    ([(architectureKey, .text p.architecture), (osKey, .text p.os)] ++
      optional variantKey .text p.variant)

def writeDescriptor (d : Descriptor) : Tree :=
  writeObject
    ([(mediaTypeKey, .text d.mediaType), (digestKey, .text d.digest), (sizeKey, .natural d.size)] ++
      optional platformKey writePlatform d.platform ++
      optional annotationsKey writeAnnotations d.annotations)

def writeManifest (m : Manifest) : Tree :=
  writeObject
    ([(schemaVersionKey, .natural m.schemaVersion)] ++ optional mediaTypeKey .text m.mediaType ++
      optional configKey writeDescriptor m.config ++
      [(layersKey, writeList writeDescriptor m.layers)] ++
      optional annotationsKey writeAnnotations m.annotations)

def writeIndex (i : ImageIndex) : Tree :=
  writeObject
    ([(schemaVersionKey, .natural i.schemaVersion)] ++ optional mediaTypeKey .text i.mediaType ++
      [(manifestsKey, writeList writeDescriptor i.manifests)] ++
      optional annotationsKey writeAnnotations i.annotations)

end NetBoot.Document
