import NetBoot.Http.Call
import NetBoot.Text.Base64

namespace NetBoot

namespace Url

def decodedPart? (t : Text) : Option Text := Utf8.decode? (Percent.decode (Utf8.encode t))

def credentials? (u : Url) : Option (Text × Text) :=
  match decodedPart? u.username, (decodedPart? u.password).getD [] with
  | none, _ => none
  | some [], [] => none
  | some name, password => some (name, password)

def requested (u : Url) : Url := if u.credentials?.isSome then u.withoutUser else u

end Url

namespace Http

def basicHeader (name password : Text) : Text :=
  "Basic ".toList ++ Base64.encode (Utf8.encode (name ++ ':' :: password))

def userHeader? (u : Url) : Option Text :=
  u.credentials?.map fun p => basicHeader p.1 p.2

def Call.userHeader? (c : Call) : Option Text := (Url.parse? c.url).bind Http.userHeader?

/-- A call's headers and the one made of its URL. Those for the registry are added to that one,
those for a blob replace it. -/
def Call.ownHeaders (c : Call) : Headers :=
  let user := (c.userHeader?.map fun value => (authorizationName, value)).toList
  match c.client with
  | .following => user ++ c.headers
  | .plain => if c.headers.has authorizationName then c.headers else user ++ c.headers

end Http

end NetBoot
