import NetBoot.Json.Tree
import NetBoot.Text.Utf8

namespace NetBoot.Json

def isBlank (b : UInt8) : Bool := b == 0x20 || b == 0x0A || b == 0x0D || b == 0x09

def skipBlanks (bs : Bytes) : Bytes := bs.dropWhile isBlank

def isDigit (b : UInt8) : Bool := 0x30 ≤ b && b ≤ 0x39

def hexValue? (b : UInt8) : Option Nat :=
  if 0x30 ≤ b ∧ b ≤ 0x39 then some (b.toNat - 0x30)
  else if 0x61 ≤ b ∧ b ≤ 0x66 then some (b.toNat - 0x61 + 10)
  else if 0x41 ≤ b ∧ b ≤ 0x46 then some (b.toNat - 0x41 + 10)
  else none

def expect : (letters : Bytes) → Bytes → Except Fault Bytes
  | [], bs => .ok bs
  | _ :: _, [] => .error .ended
  | x :: xs, b :: bs => if x = b then expect xs bs else .error .malformed

/-- Where the reader of a string stands: among its characters, after a backslash, among the
hexadecimal digits of a code unit (maybe the second one of a pair), or between the two units of a
pair. -/
inductive Cursor where
  | plain
  | escape
  | unit (left value : Nat) (high : Option Nat)
  | pairMark (high : Nat)
  | pairUnit (high : Nat)
  deriving DecidableEq, Repr

def escapeByte? (b : UInt8) : Option UInt8 :=
  if b = 0x22 then some 0x22
  else if b = 0x5C then some 0x5C
  else if b = 0x2F then some 0x2F
  else if b = 0x62 then some 0x08
  else if b = 0x66 then some 0x0C
  else if b = 0x6E then some 0x0A
  else if b = 0x72 then some 0x0D
  else if b = 0x74 then some 0x09
  else none

def isHigh (n : Nat) : Bool := 0xD800 ≤ n && n ≤ 0xDBFF

def isLow (n : Nat) : Bool := 0xDC00 ≤ n && n ≤ 0xDFFF

def unitMeaning (paired : Bool) (value : Nat) : Option Nat → Except Fault (Bytes × Cursor)
  | none =>
      if !paired then .ok ([], .plain)
      else if isLow value then .error .malformed
      else if isHigh value then .ok ([], .pairMark value)
      else .ok (Utf8.encodeChar (Char.ofNat value), .plain)
  | some high =>
      if isLow value then
        .ok (Utf8.encodeChar
          (Char.ofNat (0x10000 + 0x400 * (high - 0xD800) + (value - 0xDC00))), .plain)
      else .error .malformed

def stringBytes (paired : Bool) : Cursor → Bytes → Except Fault (Bytes × Bytes)
  | _, [] => .error .ended
  | .plain, b :: bs =>
      if b = 0x22 then .ok ([], bs)
      else if b = 0x5C then stringBytes paired .escape bs
      else if b < 0x20 then .error .malformed
      else (stringBytes paired .plain bs).map fun p => (b :: p.1, p.2)
  | .escape, b :: bs =>
      if b = 0x75 then
        if bs.drop 3 = [] then .error .ended else stringBytes paired (.unit 4 0 none) bs
      else
        match escapeByte? b with
        | none => .error .malformed
        | some c => (stringBytes paired .plain bs).map fun p => (c :: p.1, p.2)
  | .pairMark high, b :: bs =>
      if b = 0x5C then stringBytes paired (.pairUnit high) bs else .error .malformed
  | .pairUnit high, b :: bs =>
      if b = 0x75 then
        if bs.drop 3 = [] then .error .ended else stringBytes paired (.unit 4 0 (some high)) bs
      else .error .malformed
  | .unit left value high, b :: bs =>
      match hexValue? b with
      | none => .error .malformed
      | some d =>
          if left ≤ 1 then
            match unitMeaning paired (16 * value + d) high with
            | .error f => .error f
            | .ok (ds, next) => (stringBytes paired next bs).map fun p => (ds ++ p.1, p.2)
          else stringBytes paired (.unit (left - 1) (16 * value + d) high) bs

def readText (bs : Bytes) : Except Fault (Text × Bytes) :=
  match stringBytes true .plain bs with
  | .error f => .error f
  | .ok (content, rest) =>
      match Utf8.decode? content with
      | none => .error .malformed
      | some t => .ok (t, rest)

def skipText (bs : Bytes) : Except Fault Bytes := (stringBytes false .plain bs).map (·.2)

def round53 (n : Nat) : Nat :=
  let shift := n.log2 - 52
  if shift = 0 then n
  else
    let unit := Nat.pow 2 shift
    let q := n / unit
    let r := n % unit
    if unit < 2 * r ∨ (unit = 2 * r ∧ q % 2 = 1) then (q + 1) * unit else q * unit

def isHuge (significand : Nat) (exponent : Int) : Bool :=
  if significand = 0 ∨ exponent < 0 then false
  else if 308 < exponent then true
  else Nat.pow 2 1024 - Nat.pow 2 970 ≤ round53 significand * round53 (Nat.pow 10 exponent.toNat)

def significant : Nat → Bytes → Nat × Nat
  | n, [] => (n, 0)
  | n, b :: bs =>
      let m := 10 * n + (b.toNat - 0x30)
      if m < Nat.pow 2 64 then significant m bs else (n, bs.length + 1)

structure Numeral where
  negative : Bool
  whole : Bytes
  fraction : Option Bytes
  exponent : Option (Bool × Bytes)

def digitsValue (bs : Bytes) : Nat := bs.foldl (fun n b => 10 * n + (b.toNat - 0x30)) 0

def Numeral.isHuge (n : Numeral) : Bool :=
  let fraction := n.fraction.getD []
  let whole := significant 0 n.whole
  let scaled : Nat × Int :=
    if whole.2 = 0 then
      let all := significant whole.1 fraction
      (all.1, -((fraction.length - all.2 : Nat) : Int))
    else (whole.1, whole.2)
  match n.exponent with
  | none => NetBoot.Json.isHuge scaled.1 scaled.2
  | some (negative, digits) =>
      let e := digitsValue digits
      if Nat.pow 2 31 ≤ e then scaled.1 ≠ 0 && !negative
      else NetBoot.Json.isHuge scaled.1 (if negative then scaled.2 - e else scaled.2 + e)

def Numeral.tree (n : Numeral) : Tree :=
  let value := digitsValue n.whole
  if n.negative = false ∧ n.fraction = none ∧ n.exponent = none ∧ value < Nat.pow 2 64 then
    .natural value
  else .number n.isHuge

def someDigits (bs : Bytes) : Except (Fault × Fault) (Bytes × Bytes) :=
  match bs.takeWhile isDigit, bs.dropWhile isDigit with
  | [], [] => .error (.ended, .malformed)
  | [], _ :: _ => .error (.malformed, .malformed)
  | ds, rest => .ok (ds, rest)

def wholePart (bs : Bytes) : Except (Fault × Fault) (Bytes × Bytes) :=
  match someDigits bs with
  | .error f => .error f
  | .ok (0x30 :: _ :: _, _) => .error (.malformed, .malformed)
  | .ok p => .ok p

def fractionPart : Bytes → Except (Fault × Fault) (Option Bytes × Bytes)
  | 0x2E :: bs => (someDigits bs).map fun p => (some p.1, p.2)
  | bs => .ok (none, bs)

def exponentPart : Bytes → Except (Fault × Fault) (Option (Bool × Bytes) × Bytes)
  | [] => .ok (none, [])
  | b :: bs =>
      if b = 0x65 ∨ b = 0x45 then
        match bs with
        | 0x2D :: rest => (someDigits rest).map fun p => (some (true, p.1), p.2)
        | 0x2B :: rest => (someDigits rest).map fun p => (some (false, p.1), p.2)
        | rest => (someDigits rest).map fun p => (some (false, p.1), p.2)
      else .ok (none, b :: bs)

def readNumeral (negative : Bool) (bs : Bytes) : Except (Fault × Fault) (Numeral × Bytes) := do
  let (whole, bs) ← wholePart bs
  let (fraction, bs) ← fractionPart bs
  let (exponent, bs) ← exponentPart bs
  return (⟨negative, whole, fraction, exponent⟩, bs)

def readNumber (negative : Bool) (bs : Bytes) : Tree × Bytes :=
  match readNumeral negative bs with
  | .error (read, skip) => (.fault read skip, [])
  | .ok (n, rest) => (n.tree, rest)

def readString (bs : Bytes) : Tree × Bytes :=
  match readText bs, skipText bs with
  | .ok (t, rest), _ => (.text t, rest)
  | .error _, .ok rest => (.garbled, rest)
  | .error read, .error skip => (.fault read skip, [])

def readLiteral (letters : Bytes) (value : Tree) (bs : Bytes) : Tree × Bytes :=
  match expect letters bs with
  | .error f => (.fault f f, [])
  | .ok rest => (value, rest)

/- Each function uses up `fuel` with every value, item and member; `parse` supplies more than a
text of its length can need. -/
mutual

def readValue : Nat → Bytes → Tree × Bytes
  | 0, _ => (.fault .ended .ended, [])
  | fuel + 1, bs =>
      match skipBlanks bs with
      | [] => (.fault .ended .ended, [])
      | b :: rest =>
          if b = 0x6E then readLiteral [0x75, 0x6C, 0x6C] .null rest
          else if b = 0x74 then readLiteral [0x72, 0x75, 0x65] (.bool true) rest
          else if b = 0x66 then readLiteral [0x61, 0x6C, 0x73, 0x65] (.bool false) rest
          else if b = 0x22 then readString rest
          else if b = 0x2D then readNumber true rest
          else if isDigit b then readNumber false (b :: rest)
          else if b = 0x5B then
            let (items, rest) := readItems fuel true rest
            (.array items, rest)
          else if b = 0x7B then
            let (members, rest) := readMembers fuel true rest
            (.object members, rest)
          else (.fault .malformed .malformed, [])

def readItems : Nat → Bool → Bytes → Items × Bytes
  | 0, _, _ => (.fault .ended, [])
  | fuel + 1, first, bs =>
      match skipBlanks bs with
      | [] => (.fault .ended, [])
      | b :: rest =>
          if b = 0x5D then (.close, rest)
          else if first then
            let (value, rest) := readValue fuel (b :: rest)
            let (items, rest) := readItems fuel false rest
            (.item value items, rest)
          else if b = 0x2C then
            let (value, rest) := readValue fuel rest
            let (items, rest) := readItems fuel false rest
            (.item value items, rest)
          else (.fault .malformed, [])

def readMembers : Nat → Bool → Bytes → Members × Bytes
  | 0, _, _ => (.fault .ended .ended, [])
  | fuel + 1, first, bs =>
      match skipBlanks bs with
      | [] => (.fault .ended .ended, [])
      | b :: rest =>
          if b = 0x7D then (.close, rest)
          else if first then readMember fuel (b :: rest)
          else if b = 0x2C then readMember fuel (skipBlanks rest)
          else (.fault .malformed .malformed, [])

def readMember : Nat → Bytes → Members × Bytes
  | 0, _ => (.fault .ended .ended, [])
  | _ + 1, [] => (.fault .ended .ended, [])
  | fuel + 1, b :: bs =>
      if b = 0x22 then
        match readString bs with
        | (.fault read skip, _) => (.fault read skip, [])
        | (key, rest) =>
            match skipBlanks rest with
            | [] => (.member key.asText? (.fault .ended .ended) .close, [])
            | c :: rest =>
                if c = 0x3A then
                  let (value, rest) := readValue fuel rest
                  let (members, rest) := readMembers fuel false rest
                  (.member key.asText? value members, rest)
                else (.member key.asText? (.fault .malformed .malformed) .close, [])
      else (.fault .malformed .malformed, [])

end

def parse (bs : Bytes) : Document :=
  let (tree, rest) := readValue (3 * bs.length + 3) bs
  ⟨tree, !(skipBlanks rest).isEmpty⟩

end NetBoot.Json
