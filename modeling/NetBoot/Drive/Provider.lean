import NetBoot.Drive.Error

namespace NetBoot

structure DriveProvider where
  version : Text → Except DriveError (Option Text)
  render : Text → Except DriveError Bytes

namespace DriveProvider

def empty : DriveProvider := ⟨fun _ => .ok none, fun id => .error (.notFound id)⟩

end DriveProvider

abbrev DriveTable := List (Text × (Text × Bytes))

namespace DriveTable

def insert (id version : Text) (image : Bytes) (t : DriveTable) : DriveTable :=
  (id, (version, image)) :: t.filter fun p => p.1 ≠ id

def erase (id : Text) (t : DriveTable) : DriveTable := t.filter fun p => p.1 ≠ id

def get? (id : Text) (t : DriveTable) : Option (Text × Bytes) := List.lookup id t

def provider (t : DriveTable) : DriveProvider where
  version id := .ok ((t.get? id).map Prod.fst)
  render id :=
    match t.get? id with
    | some (_, image) => .ok image
    | none => .error (.notFound id)

end DriveTable

end NetBoot
