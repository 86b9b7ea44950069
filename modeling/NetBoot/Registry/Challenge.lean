import NetBoot.Text.Blank

namespace NetBoot

inductive Challenge where
  | basic (realm : Option Text)
  | bearer (realm : Text) (service : Option Text)
  deriving DecidableEq, Repr

namespace Challenge

/-- Why a challenge is refused: no known scheme or no realm, or a blank of several bytes between
its parameters, of which the scan skips the first byte only. -/
inductive Fault where
  | unsupported (challenge : Text)
  | splitCharacter
  deriving DecidableEq, Repr

def isSeparator (c : Char) : Bool := c = ',' || Text.isBlank c

def pieces (quoted : Bool) : Text → Option (List Text)
  | [] => some [[]]
  | c :: cs =>
      if c = '"' then (pieces (!quoted) cs).map (extend c)
      else if !quoted && isSeparator c then
        if c.toNat < 0x80 then (pieces quoted cs).map ([] :: ·) else none
      else (pieces quoted cs).map (extend c)
where
  extend (c : Char) : List Text → List Text
    | [] => [[c]]
    | piece :: rest => (c :: piece) :: rest

def unquote (t : Text) : Text := Text.trimWith (· = '"') t

def parameter? (piece : Text) : Option (Text × Text) :=
  match Text.splitOnce '=' piece with
  | some (key, value) => some (Text.lower (Text.trim key), unquote (Text.trim value))
  | none => none

def parameters (params : Text) : Option (List (Text × Text)) :=
  (pieces false params).map fun ps => ps.filterMap parameter?

def valueOf? (key : Text) (ps : List (Text × Text)) : Option Text := List.lookup key ps.reverse

def realmKey : Text := "realm".toList

def serviceKey : Text := "service".toList

def bearerScheme : Text := "bearer".toList

def basicScheme : Text := "basic".toList

def splitScheme (header : Text) : Text × Text :=
  match Text.splitOnce ' ' header with
  | some p => p
  | none => (header, [])

def parse (header : Text) : Except Fault Challenge :=
  let header := Text.trim header
  let (scheme, params) := splitScheme header
  match parameters params with
  | none => .error .splitCharacter
  | some ps =>
      if Text.lower scheme = bearerScheme then
        match valueOf? realmKey ps with
        | some realm => .ok (.bearer realm (valueOf? serviceKey ps))
        | none => .error (.unsupported header)
      else if Text.lower scheme = basicScheme then .ok (.basic (valueOf? realmKey ps))
      else .error (.unsupported header)

end Challenge

end NetBoot
