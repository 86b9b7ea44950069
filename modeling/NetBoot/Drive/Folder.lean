import NetBoot.Drive.Provider
import NetBoot.Text.Utf8

namespace NetBoot

inductive FolderItem where
  | file (content : Bytes) (modified : Int)
  | folder
  deriving DecidableEq, Repr

inductive FolderFault where
  | nulInName
  | nameTooLong
  | missing
  | isFolder
  deriving DecidableEq, Repr

def FolderFault.message : FolderFault → Text
  | .nulInName => "file name contained an unexpected NUL byte".toList
  | .nameTooLong => "File name too long (os error 36)".toList
  | .missing => "No such file or directory (os error 2)".toList
  | .isFolder => "Is a directory (os error 21)".toList

abbrev DriveFolder := List (Text × FolderItem)

namespace DriveFolder

def put (name : Text) (item : FolderItem) (f : DriveFolder) : DriveFolder :=
  (name, item) :: f.filter fun p => p.1 ≠ name

def erase (name : Text) (f : DriveFolder) : DriveFolder := f.filter fun p => p.1 ≠ name

def nameLimit : Nat := 255

def lookup (name : Text) (f : DriveFolder) : Except FolderFault FolderItem :=
  if name.any fun c => c.toNat = 0 then .error .nulInName
  else if nameLimit < (Utf8.encode name).length then .error .nameTooLong
  else
    match List.lookup name f with
    | some item => .ok item
    | none => .error .missing

def extension : Text := ".iso".toList

def fileName? (id : Text) : Option Text :=
  if id = [] ∨ '/' ∈ id ∨ '\\' ∈ id ∨ Text.startsWith id ['.'] then none
  else some (id ++ extension)

def fileVersion (content : Bytes) (modified : Int) : Text :=
  Text.digits content.length ++ '-' :: Text.digits modified.toNat

def version (f : DriveFolder) (id : Text) : Except DriveError (Option Text) :=
  match fileName? id with
  | none => .error (.notFound id)
  | some name =>
      match f.lookup name with
      | .ok (.file content modified) => .ok (some (fileVersion content modified))
      | .ok .folder => .ok none
      | .error .missing => .ok none
      | .error fault => .error (.unrendered id fault.message)

def render (f : DriveFolder) (id : Text) : Except DriveError Bytes :=
  match fileName? id with
  | none => .error (.notFound id)
  | some name =>
      match f.lookup name with
      | .ok (.file content _) => .ok content
      | .ok .folder => .error (.unrendered id FolderFault.isFolder.message)
      | .error fault => .error (.unrendered id fault.message)

def provider (f : DriveFolder) : DriveProvider := ⟨f.version, f.render⟩

end DriveFolder

end NetBoot
