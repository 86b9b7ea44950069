import NetBoot.Registry.Error

namespace NetBoot

structure ImageName where
  registry : Text
  repository : Text
  deriving DecidableEq, Repr

namespace ImageName

def defaultRegistry : Text := "registry-1.docker.io".toList

def looksLikeHost (t : Text) : Bool := t.any fun c => c = '.' || c = ':'

def locate (name : Text) : ImageName :=
  match Text.splitOnce '/' name with
  | some (first, rest) =>
      if looksLikeHost first then ⟨first, rest⟩ else ⟨defaultRegistry, name⟩
  | none => ⟨defaultRegistry, "library/".toList ++ name⟩

def isPlainSegment (segment : Text) : Bool :=
  !(segment = [] || segment = ['.'] || segment = ['.', '.'])

def parse (name : Text) : Except RegistryError ImageName :=
  let image := locate name
  if name = [] ∨ image.repository = [] then
    .error (.invalidReference name "empty repository".toList)
  else if (Text.splitAll '/' image.repository).all isPlainSegment then .ok image
  else .error (.invalidReference name "invalid repository path segment".toList)

def toText (i : ImageName) : Text := i.registry ++ '/' :: i.repository

end ImageName

end NetBoot
