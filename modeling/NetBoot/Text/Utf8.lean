import NetBoot.Text.Basic

namespace NetBoot.Utf8

def encodeChar (c : Char) : Bytes :=
  let n := c.toNat
  if n < 0x80 then [UInt8.ofNat n]
  else if n < 0x800 then [UInt8.ofNat (0xC0 + n / 64), UInt8.ofNat (0x80 + n % 64)]
  else if n < 0x10000 then
    [UInt8.ofNat (0xE0 + n / 4096), UInt8.ofNat (0x80 + n / 64 % 64),
      UInt8.ofNat (0x80 + n % 64)]
  else
    [UInt8.ofNat (0xF0 + n / 262144), UInt8.ofNat (0x80 + n / 4096 % 64),
      UInt8.ofNat (0x80 + n / 64 % 64), UInt8.ofNat (0x80 + n % 64)]

def encode (t : Text) : Bytes := t.flatMap encodeChar

/-- How far a character has been read: `left` more bytes, the next of them between `low` and
`high`, onto the bits in `code`. -/
inductive Pending where
  | none
  | some (left code low high : Nat)
  deriving DecidableEq, Repr

def lead (b : Nat) : Option (Option Char) × Pending :=
  if b < 0x80 then (some (some (Char.ofNat b)), .none)
  else if b < 0xC2 then (some none, .none)
  else if b < 0xE0 then (none, .some 1 (b - 0xC0) 0x80 0xBF)
  else if b = 0xE0 then (none, .some 2 0 0xA0 0xBF)
  else if b = 0xED then (none, .some 2 0xD 0x80 0x9F)
  else if b < 0xF0 then (none, .some 2 (b - 0xE0) 0x80 0xBF)
  else if b = 0xF0 then (none, .some 3 0 0x90 0xBF)
  else if b < 0xF4 then (none, .some 3 (b - 0xF0) 0x80 0xBF)
  else if b = 0xF4 then (none, .some 3 4 0x80 0x8F)
  else (some none, .none)

/-- The characters of a byte sequence, with `none` for each longest run that starts a character
and does not finish it. -/
def scan : Pending → Bytes → List (Option Char)
  | .none, [] => []
  | .some .., [] => [none]
  | .none, b :: bs =>
      match lead b.toNat with
      | (some c, p) => c :: scan p bs
      | (none, p) => scan p bs
  | .some left code low high, b :: bs =>
      let n := b.toNat
      if low ≤ n ∧ n ≤ high then
        if left ≤ 1 then some (Char.ofNat (64 * code + (n - 0x80))) :: scan .none bs
        else scan (.some (left - 1) (64 * code + (n - 0x80)) 0x80 0xBF) bs
      else
        none ::
          match lead n with
          | (some c, p) => c :: scan p bs
          | (none, p) => scan p bs

def allSome : List (Option Char) → Option Text
  | [] => some []
  | none :: _ => none
  | some c :: rest => (allSome rest).map (c :: ·)

def decode? (bs : Bytes) : Option Text := allSome (scan .none bs)

def decodeLossy (bs : Bytes) : Text := (scan .none bs).map fun c => c.getD '\uFFFD'

end NetBoot.Utf8
