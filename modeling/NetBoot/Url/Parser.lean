import NetBoot.Url.Basic

namespace NetBoot.Url

def splitScheme (t : Text) : Option (Text × Text) :=
  match t with
  | [] => none
  | c :: _ =>
      if c.isAlpha then
        match Text.splitOnce ':' t with
        | none => none
        | some (scheme, rest) =>
            if scheme.all fun c => c.isAlphanum || c = '+' || c = '-' || c = '.' then
              some (Text.lower scheme, rest)
            else none
      else none

def isSlash (special : Bool) (c : Char) : Bool := c = '/' || (special && c = '\\')

structure Tail where
  query : Option Text
  fragment : Option Text

def splitTail (special : Bool) (t : Text) : Text × Tail :=
  let front := t.takeWhile fun c => c ≠ '?' && c ≠ '#'
  let fragmentOf (f : Text) : Text := Percent.encode Percent.inFragment f
  let queryOf (q : Text) : Text := Percent.encode (querySet special) q
  match t.drop front.length with
  | '?' :: rest =>
      match Text.splitOnce '#' rest with
      | some (q, f) => (front, ⟨some (queryOf q), some (fragmentOf f)⟩)
      | none => (front, ⟨some (queryOf rest), none⟩)
  | '#' :: f => (front, ⟨none, some (fragmentOf f)⟩)
  | _ => (front, ⟨none, none⟩)

def splitAtSlashes (special : Bool) : Text → List Text
  | [] => [[]]
  | c :: cs =>
      if isSlash special c then [] :: splitAtSlashes special cs
      else
        match splitAtSlashes special cs with
        | [] => [[c]]
        | piece :: rest => (c :: piece) :: rest

def isSingleDot (s : Text) : Bool :=
  s = ['.'] || s = ['%', '2', 'e'] || s = ['%', '2', 'E']

def isDoubleDot (s : Text) : Bool :=
  match s with
  | '.' :: rest => isSingleDot rest
  | '%' :: '2' :: e :: rest => (e = 'e' || e = 'E') && isSingleDot rest
  | _ => false

def isDriveLetter (s : Text) : Bool :=
  match s with
  | [c, d] => c.isAlpha && (d = ':' || d = '|')
  | _ => false

def dropSegment (segs : List Text) : List Text :=
  match segs.getLast? with
  | some s => if isDriveLetter s then segs else segs.dropLast
  | none => []

def resolveSegments : List Text → List Text → List Text
  | segs, [] => segs
  | segs, [s] =>
      if isDoubleDot s then dropSegment segs ++ [[]]
      else if isSingleDot s then segs ++ [[]]
      else segs ++ [s]
  | segs, s :: rest =>
      if isDoubleDot s then resolveSegments (dropSegment segs) rest
      else if isSingleDot s then resolveSegments segs rest
      else resolveSegments (segs ++ [s]) rest

def addPath (special : Bool) (segs : List Text) (t : Text) : List Text :=
  resolveSegments segs ((splitAtSlashes special t).map (Percent.encode Percent.inPath))

def rootedPath (special : Bool) (t : Text) : List Text :=
  match t with
  | [] => if special then [[]] else []
  | c :: rest => if isSlash special c then addPath special [] rest else addPath special [] t

def parsePort? (special : Bool) (scheme t : Text) : Option (Option Nat × Text) :=
  let ds := t.takeWhile Char.isDigit
  let rest := t.dropWhile Char.isDigit
  let n := (Text.natural? ds).getD 0
  if 65535 < n then none
  else if rest = [] ∨ (special = false ∧ rest.head? = some '\\') then
    some (if ds = [] ∨ defaultPort? scheme = some n then none else some n, rest)
  else none

def splitHostPort : Bool → Text → Text × Text
  | _, [] => ([], [])
  | inside, c :: cs =>
      if c = ':' ∧ inside = false then ([], c :: cs)
      else
        let p := splitHostPort (if c = '[' then true else if c = ']' then false else inside) cs
        (c :: p.1, p.2)

structure Authority where
  username : Text
  password : Text
  host : Host
  port : Option Nat
  rest : Text

def parseUser (t : Text) : Text × Text :=
  let enc := Percent.encode Percent.inUserinfo
  match Text.splitOnce ':' t with
  | some (name, password) => (enc name, enc password)
  | none => (enc t, [])

def parseAuthority? (special : Bool) (scheme t : Text) : Option Authority := do
  let (username, password, place) :=
    match Text.splitLast '@' t with
    | some (user, place) => ((parseUser user).1, (parseUser user).2, place)
    | none => ([], [], t)
  let (hostText, portText) := splitHostPort false place
  if hostText = [] ∧ (special ∨ portText ≠ [] ∨ '@' ∈ t) then none
  let host ← if special then Host.parseSpecial? hostText else Host.parseNamed? hostText
  let (port, rest) ←
    match portText with
    | ':' :: ds => parsePort? special scheme ds
    | _ => some (none, portText)
  return ⟨username, password, host, port, rest⟩

def withAuthority? (scheme t : Text) : Option Url := do
  let special := isSpecialScheme scheme
  let place := t.takeWhile fun c => !(isSlash special c || c = '?' || c = '#')
  let a ← parseAuthority? special scheme place
  let (path, tail) := splitTail special (a.rest ++ t.drop place.length)
  return ⟨scheme, a.username, a.password, some a.host, a.port,
    .segments (rootedPath special path), tail.query, tail.fragment⟩

def countSlashes (t : Text) : Nat := (t.takeWhile (isSlash true)).length

def fileUrl? (t : Text) : Option Url := do
  let scheme := "file".toList
  let build (host : Host) (path : Text) : Url :=
    let (path, tail) := splitTail true path
    ⟨scheme, [], [], some host, none, .segments (rootedPath true path), tail.query,
      tail.fragment⟩
  if countSlashes t < 2 then return build (.named []) t
  let rest := t.drop 2
  let place := rest.takeWhile fun c => !(isSlash true c || c = '?' || c = '#')
  if place = [] ∨ isDriveLetter place then return build (.named []) rest
  let host ← Host.parseSpecial? place
  let host := if host = .domain "localhost".toList then .named [] else host
  return build host (rest.drop place.length)

def plainUrl? (scheme t : Text) : Option Url :=
  match t with
  | '/' :: '/' :: rest => withAuthority? scheme rest
  | '/' :: rest =>
      let (path, tail) := splitTail false rest
      some ⟨scheme, [], [], none, none, .segments (addPath false [] path), tail.query,
        tail.fragment⟩
  | _ =>
      let (path, tail) := splitTail false t
      some ⟨scheme, [], [], none, none, .flat (Percent.encode Percent.inControls path),
        tail.query, tail.fragment⟩

def isFramingChar (c : Char) : Bool := c.toNat ≤ 0x20

def tidy (t : Text) : Text := (Text.trimWith isFramingChar t).filter fun c => !isTabOrLine c

def relativeTo? (base : Url) (t : Text) : Option Url :=
  let special := base.isSpecial
  let segs :=
    match base.path with
    | .segments segs => segs
    | .flat _ => []
  match t with
  | [] => some base.withoutFragment
  | '?' :: _ =>
      let tail := (splitTail special t).2
      some { base with query := tail.query, fragment := tail.fragment }
  | '#' :: f => some { base with fragment := some (Percent.encode Percent.inFragment f) }
  | c :: rest =>
      if isSlash special c then
        if countSlashes t < 2 then
          let (path, tail) := splitTail special rest
          some { base with
            path := .segments (addPath special [] path)
            query := tail.query
            fragment := tail.fragment }
        else if t.take 2 = ['/', '/'] then withAuthority? base.scheme (t.drop 2)
        else withAuthority? base.scheme (t.drop (countSlashes t))
      else
        let (path, tail) := splitTail special t
        some { base with
          path := .segments (addPath special segs.dropLast path)
          query := tail.query
          fragment := tail.fragment }

def absolute? (scheme t : Text) : Option Url :=
  if isFileScheme scheme then fileUrl? t
  else if hasDefaultPort scheme then withAuthority? scheme (t.drop (countSlashes t))
  else plainUrl? scheme t

def parse? (input : Text) : Option Url :=
  match splitScheme (tidy input) with
  | some (scheme, rest) => absolute? scheme rest
  | none => none

def join? (base : Url) (reference : Text) : Option Url :=
  let t := tidy reference
  match splitScheme t with
  | some (scheme, rest) =>
      if scheme = base.scheme ∧ hasDefaultPort scheme ∧ countSlashes rest < 2 then
        relativeTo? base rest
      else absolute? scheme rest
  | none => relativeTo? base t

end NetBoot.Url
