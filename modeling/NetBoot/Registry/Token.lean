import NetBoot.Registry.Error
import NetBoot.Json.Decode
import NetBoot.Json.Reader

namespace NetBoot

structure TokenResponse where
  token : Option Text
  accessToken : Option Text
  deriving DecidableEq, Repr

namespace TokenResponse

open Json

structure Fields where
  token : Option (Option Text)
  accessToken : Option (Option Text)

def tokenKey : Text := "token".toList

def accessTokenKey : Text := "access_token".toList

def Fields.read (f : Fields) (key : Text) (v : Tree) : Except Fault Fields :=
  if key = tokenKey then
    (once f.token (Tree.toOption Tree.toText) v).map fun x => { f with token := x }
  else if key = accessTokenKey then
    (once f.accessToken (Tree.toOption Tree.toText) v).map fun x => { f with accessToken := x }
  else passOver f v

def Fields.build (f : Fields) : Except Fault TokenResponse :=
  .ok ⟨f.token.getD none, f.accessToken.getD none⟩

def inOrder (items : Items) : Except Fault (TokenResponse × Items) := do
  let (token, items) ← items.next (Tree.toOption Tree.toText) (.ok none)
  let (accessToken, items) ← items.next (Tree.toOption Tree.toText) (.ok none)
  return (⟨token, accessToken⟩, items)

def read : Tree → Except Fault TokenResponse :=
  Tree.toRecord Fields.read ⟨none, none⟩ Fields.build inOrder

def chosen (r : TokenResponse) : Option Text :=
  r.token.filter (· ≠ []) <|> r.accessToken.filter (· ≠ [])

def ofBytes (bs : Bytes) : Except Fault TokenResponse := (parse bs).read read

end TokenResponse

end NetBoot
