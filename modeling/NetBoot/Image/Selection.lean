import NetBoot.Image.Descriptor
import NetBoot.Image.Artifact

namespace NetBoot.Selection

/-- Entries of older images name their flavor and architecture in annotations. -/
def isLegacyMatch (flavor architecture : Text) (entry : Descriptor) : Bool :=
  (match entry.annotation? Annotations.cname with
    | some cname => Text.startsWith cname flavor
    | none => false) &&
    entry.annotation? Annotations.architecture = some architecture

def isPlatformMatch (architecture : Text) (entry : Descriptor) : Bool :=
  entry.architecture? = some architecture

def entry? (flavor architecture : Text) (entries : List Descriptor) : Option Descriptor :=
  entries.find? (isLegacyMatch flavor architecture) <|>
    entries.find? (isPlatformMatch architecture)

def isEligible (architecture : Text) (layer : Descriptor) : Bool :=
  match layer.annotation? Annotations.layerArchitecture with
  | some a => a = architecture
  | none => true

def hasSuffix (kind : Artifact) (layer : Descriptor) : Bool :=
  match layer.annotation? Annotations.title with
  | some title => Text.endsWith title kind.fileSuffix
  | none => false

def layer? (architecture : Text) (layers : List Descriptor) (kind : Artifact) :
    Option Descriptor :=
  let candidates := layers.filter (isEligible architecture)
  candidates.find? (fun l => l.mediaType ∈ kind.mediaTypes) <|>
    candidates.find? (hasSuffix kind) <|>
    if layers.length = 1 then candidates.head? else none

abbrev Assignment := List (Artifact × Descriptor)

def layers (architecture : Text) (available : List Descriptor) :
    List Artifact → Except Artifact Assignment
  | [] => .ok []
  | kind :: kinds =>
      match layer? architecture available kind with
      | none => .error kind
      | some layer => (layers architecture available kinds).map ((kind, layer) :: ·)

namespace Assignment

def get? (kind : Artifact) (a : Assignment) : Option Descriptor :=
  (a.find? fun p => p.1 = kind).map Prod.snd

def digest? (kind : Artifact) (a : Assignment) : Option Text :=
  (get? kind a).map Descriptor.digest

def take? (kind : Artifact) (a : Assignment) : Option Descriptor :=
  (a.findIdx? fun p => p.1 = kind).bind fun place => a[place]?.map Prod.snd

end Assignment

end NetBoot.Selection
