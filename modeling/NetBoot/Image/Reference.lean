import NetBoot.Image.Digest
import NetBoot.Image.Name
import NetBoot.Text.Blank

namespace NetBoot

structure ImageReference where
  name : Text
  image : ImageName
  tag : Option Text
  digest : Option Digest
  deriving DecidableEq, Repr

namespace ImageReference

def splitTag (t : Text) : Option (Text × Text) :=
  match Text.splitLast ':' t with
  | none => none
  | some (name, tag) => if '/' ∈ tag then none else some (name, tag)

def nonempty (t : Text) : Option Text := if t = [] then none else some t

def split (t : Text) : Except RegistryError (Text × Option Text × Option Digest) :=
  match Text.splitOnce '@' t with
  | some (base, digest) =>
      if base = [] ∨ digest = [] then
        .error (.invalidReference t "empty name or digest".toList)
      else
        match Digest.parse? digest with
        | none => .error (.invalidReference t "invalid digest".toList)
        | some d =>
            match splitTag base with
            | some (name, tag) => .ok (name, nonempty tag, some d)
            | none => .ok (base, none, some d)
  | none =>
      match splitTag t with
      | none => .error (.invalidReference t "expected name:tag or name@digest".toList)
      | some (name, tag) =>
          if tag = [] then .error (.invalidReference t "empty tag".toList)
          else .ok (name, some tag, none)

def parse (input : Text) : Except RegistryError ImageReference := do
  let t := Text.trim input
  let (name, tag, digest) ← split t
  if name = [] then .error (.invalidReference t "empty repository".toList)
  let image ← ImageName.parse name
  return ⟨name, image, tag, digest⟩

def withTag (name tag : Text) : Except RegistryError ImageReference := parse (name ++ ':' :: tag)

def manifestReference (r : ImageReference) : Text :=
  match r.digest, r.tag with
  | some d, _ => d.toText
  | none, some tag => tag
  | none, none => "latest".toList

def toText (r : ImageReference) : Text :=
  r.name ++
    (match r.tag with
      | some tag => ':' :: tag
      | none => []) ++
    match r.digest with
      | some d => '@' :: d.toText
      | none => []

end ImageReference

end NetBoot
