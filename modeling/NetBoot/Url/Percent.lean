import NetBoot.Text.Utf8
import NetBoot.Text.Hex

namespace NetBoot.Percent

def encodeByte (b : UInt8) : Text :=
  ['%', Hex.upperDigit (b.toNat / 16), Hex.upperDigit (b.toNat % 16)]

def encode (escape : Char → Bool) (t : Text) : Text :=
  t.flatMap fun c =>
    if 0x7F ≤ c.toNat || c.toNat < 0x20 || escape c then (Utf8.encodeChar c).flatMap encodeByte
    else [c]

def hexByte? (b : UInt8) : Option Nat := Hex.value? (Char.ofNat b.toNat)

def decode : Bytes → Bytes
  | [] => []
  | b :: bs =>
      match b == 0x25, bs with
      | true, x :: y :: rest =>
          match hexByte? x, hexByte? y with
          | some h, some l => UInt8.ofNat (16 * h + l) :: decode rest
          | _, _ => b :: decode (x :: y :: rest)
      | _, bs => b :: decode bs

def inControls (_ : Char) : Bool := false

def inFragment (c : Char) : Bool := c = ' ' || c = '"' || c = '<' || c = '>' || c.toNat = 0x60

def inPath (c : Char) : Bool :=
  inFragment c || c = '#' || c = '?' || c = '\x7b' || c = '\x7d'

def inUserinfo (c : Char) : Bool :=
  inPath c || c = '/' || c = ':' || c = ';' || c = '=' || c = '@' || c = '[' || c = '\\' ||
    c = ']' || c = '^' || c = '|'

def inQuery (c : Char) : Bool := c = ' ' || c = '"' || c = '#' || c = '<' || c = '>'

def inSpecialQuery (c : Char) : Bool := inQuery c || c = '\''

end NetBoot.Percent
