import NetBoot.Registry.Challenge
import NetBoot.Url.Parser

namespace NetBoot

inductive AuthMethod where
  | none
  | basic
  | bearer
  deriving DecidableEq, Repr

def AuthMethod.toText : AuthMethod → Text
  | .none => "none".toList
  | .basic => "basic".toList
  | .bearer => "bearer".toList

structure RegistryInfo where
  domain : Text
  method : AuthMethod
  tokenUrl : Option Text
  realm : Option Text
  service : Option Text
  deriving DecidableEq, Repr

namespace RegistryInfo

def tokenQuery (own : Option Text) (service : Option Text) (repository : Text) : Text :=
  let nonempty (t : Option Text) : List Text := (t.filter fun t => t ≠ []).toList
  Text.joinWith ['&']
    (nonempty own ++ (nonempty service).map ("service=".toList ++ ·) ++
      ["scope=repository:".toList ++ repository ++ ":pull".toList])

def tokenUrlOf (realm : Text) (service : Option Text) (repository : Text) : Option Text :=
  (Url.parse? realm).map fun u =>
    (u.withQuery (tokenQuery u.query service repository)).toText

def anonymous (domain : Text) : RegistryInfo := ⟨domain, .none, none, none, none⟩

def ofChallenge (domain : Text) (c : Challenge) (repository : Text) : RegistryInfo :=
  match c with
  | .basic realm => ⟨domain, .basic, none, realm, none⟩
  | .bearer realm service =>
      ⟨domain, .bearer, tokenUrlOf realm service repository, some realm, service⟩

/-- Entries serve every repository of their domain, so the scope is that of the caller. -/
def tokenUrlFor (info : RegistryInfo) (repository : Text) : Option Text :=
  match info.method, info.realm with
  | .bearer, some realm => tokenUrlOf realm info.service repository
  | _, _ => none

end RegistryInfo

abbrev AuthCache := List (Text × RegistryInfo)

namespace AuthCache

def get? (domain : Text) (c : AuthCache) : Option RegistryInfo := List.lookup domain c

def insert (info : RegistryInfo) (c : AuthCache) : AuthCache :=
  (info.domain, info) :: c.filter fun p => p.1 ≠ info.domain

theorem get?_insert_self (info : RegistryInfo) (c : AuthCache) :
    get? info.domain (insert info c) = some info := by
  simp [get?, insert]

theorem get?_insert_of_ne {domain : Text} {info : RegistryInfo} (h : domain ≠ info.domain)
    (c : AuthCache) : get? domain (insert info c) = get? domain c := by
  have hb : (domain == info.domain) = false := by simpa using h
  simpa [get?, insert, List.lookup_cons, hb] using Text.lookup_filter_of_ne h c

end AuthCache

end NetBoot
