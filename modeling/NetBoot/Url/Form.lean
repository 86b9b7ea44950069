import NetBoot.Url.Percent

namespace NetBoot.Form

def decodeComponent (t : Text) : Text :=
  Utf8.decodeLossy
    (Percent.decode ((Utf8.encode t).map fun b => if b == 0x2B then 0x20 else b))

def pair (t : Text) : Text × Text :=
  match Text.splitOnce '=' t with
  | some (name, value) => (decodeComponent name, decodeComponent value)
  | none => (decodeComponent t, [])

def pairs (query : Text) : List (Text × Text) :=
  ((Text.splitAll '&' query).filter fun t => t ≠ []).map pair

end NetBoot.Form
