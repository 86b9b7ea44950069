import NetBoot.Url.Host

namespace NetBoot

namespace Url

inductive Path where
  | flat (t : Text)
  | segments (segs : List Text)
  deriving DecidableEq, Repr, Inhabited

end Url

structure Url where
  scheme : Text
  username : Text
  password : Text
  host : Option Url.Host
  port : Option Nat
  path : Url.Path
  query : Option Text
  fragment : Option Text
  deriving DecidableEq, Repr, Inhabited

namespace Url

def defaultPort? (scheme : Text) : Option Nat :=
  if scheme = "http".toList ∨ scheme = "ws".toList then some 80
  else if scheme = "https".toList ∨ scheme = "wss".toList then some 443
  else if scheme = "ftp".toList then some 21
  else none

def isFileScheme (scheme : Text) : Bool := scheme = "file".toList

def hasDefaultPort (scheme : Text) : Bool := (defaultPort? scheme).isSome

def isSpecialScheme (scheme : Text) : Bool := hasDefaultPort scheme || isFileScheme scheme

def isSpecial (u : Url) : Bool := isSpecialScheme u.scheme

def portOrDefault? (u : Url) : Option Nat := u.port <|> defaultPort? u.scheme

def hostText (u : Url) : Text := (u.host.map Host.toText).getD []

def Path.toText : Path → Text
  | .flat t => t
  | .segments segs => segs.flatMap fun s => '/' :: s

def authorityText (u : Url) : Text :=
  let password := if u.password = [] then [] else ':' :: u.password
  let user := if u.username = [] ∧ u.password = [] then [] else u.username ++ password ++ ['@']
  let port :=
    match u.port with
    | some n => ':' :: Text.digits n
    | none => []
  user ++ u.hostText ++ port

def originText (u : Url) : Text :=
  match u.host, u.path with
  | some _, _ => u.scheme ++ "://".toList ++ u.authorityText
  | none, .segments ([] :: _ :: _) => u.scheme ++ ":/.".toList
  | none, _ => u.scheme ++ [':']

def queryText (u : Url) : Text :=
  match u.query with
  | some q => '?' :: q
  | none => []

def toText (u : Url) : Text :=
  u.originText ++ u.path.toText ++ u.queryText ++
    match u.fragment with
    | some f => '#' :: f
    | none => []

def withoutFragment (u : Url) : Url := { u with fragment := none }

def withoutUser (u : Url) : Url := { u with username := [], password := [] }

def querySet (special : Bool) : Char → Bool :=
  if special then Percent.inSpecialQuery else Percent.inQuery

def isTabOrLine (c : Char) : Bool := c = '\t' || c = '\n' || c = '\r'

def withQuery (u : Url) (query : Text) : Url :=
  { u with
    query := some (Percent.encode (querySet u.isSpecial) (query.filter fun c => !isTabOrLine c)) }

end Url

end NetBoot
