import NetBoot.Url.Percent
import NetBoot.Url.Punycode

namespace NetBoot.Url

inductive Host where
  | domain (name : Text)
  | ipv4 (address : Nat)
  | ipv6 (pieces : List Nat)
  | named (name : Text)
  deriving DecidableEq, Repr, Inhabited

namespace Host

def ipv4Number? (part : Text) : Option Nat :=
  let value (base : Nat) (digits : Text) : Option Nat :=
    digits.foldl (fun n c =>
      match n, Hex.value? c with
      | some n, some d => if d < base then some (base * n + d) else none
      | _, _ => none) (some 0)
  match part with
  | [] => none
  | '0' :: 'x' :: rest => value 16 rest
  | '0' :: 'X' :: rest => value 16 rest
  | '0' :: d :: rest => value 8 (d :: rest)
  | digits => value 10 digits

def dottedParts (name : Text) : List Text :=
  let parts := Text.splitAll '.' name
  if parts.getLast? = some [] then parts.dropLast else parts

def endsInNumber (name : Text) : Bool :=
  match (dottedParts name).getLast? with
  | none => false
  | some last => (last ≠ [] && last.all Char.isDigit) || (ipv4Number? last).isSome

def ipv4? (name : Text) : Option Host := do
  let parts := dottedParts name
  if 4 < parts.length then none
  let numbers ← parts.mapM ipv4Number?
  let last ← numbers.getLast?
  let leading := numbers.dropLast
  if leading.any fun n => 255 < n then none
  if Nat.pow 256 (4 - leading.length) ≤ last then none
  return .ipv4
    (leading.foldl (fun n part => 256 * n + part) 0 * Nat.pow 256 (4 - leading.length) + last)

def byte? (t : Text) : Option Nat := do
  let n ← Text.natural? t
  if 255 < n ∨ 3 < t.length ∨ (1 < t.length ∧ t.head? = some '0') then none
  return n

def pieces? (t : Text) : Option (List Nat) :=
  if t = [] then some []
  else
    let parts := Text.splitAll ':' t
    let piece (part : Text) : Option Nat :=
      if part = [] ∨ 4 < part.length then none
      else part.foldl (fun n c => n.bind fun n => (Hex.value? c).map fun d => 16 * n + d) (some 0)
    let tail (part : Text) : Option (List Nat) :=
      if '.' ∈ part then
        match (Text.splitAll '.' part).mapM byte? with
        | some [a, b, c, d] => some [256 * a + b, 256 * c + d]
        | _ => none
      else (piece part).map fun n => [n]
    match parts.getLast? with
    | none => none
    | some last =>
        match parts.dropLast.mapM piece, tail last with
        | some ps, some ts => some (ps ++ ts)
        | _, _ => none

def splitGap : Text → Option (Text × Text)
  | ':' :: ':' :: rest => some ([], rest)
  | [] => none
  | c :: rest => (splitGap rest).map fun p => (c :: p.1, p.2)

def ipv6? (t : Text) : Option Host :=
  match splitGap t with
  | none =>
      match pieces? t with
      | some ps => if ps.length = 8 then some (.ipv6 ps) else none
      | none => none
  | some (left, right) =>
      match pieces? left, pieces? right with
      | some ls, some rs =>
          if '.' ∈ left then none
          else if ls.length + rs.length ≤ 7 then
            some (.ipv6 (ls ++ List.replicate (8 - ls.length - rs.length) 0 ++ rs))
          else none
      | _, _ => none

def isForbidden (c : Char) : Bool :=
  c.toNat = 0 || c = '\t' || c = '\n' || c = '\r' || c = ' ' || c = '#' || c = '/' || c = ':' ||
    c = '<' || c = '>' || c = '?' || c = '@' || c = '[' || c = '\\' || c = ']' || c = '^' ||
    c = '|'

def isForbiddenInDomain (c : Char) : Bool :=
  isForbidden c || c.toNat < 0x20 || c = '%' || c.toNat = 0x7F

/-- The form in which a letter of a domain is looked up: Latin, Greek and Cyrillic letters in lower
case, full-width signs as their ASCII counterparts, ideographic full stops as dots. -/
def mapChar (c : Char) : Text :=
  let n := c.toNat
  let single (m : Nat) : Text := [Char.ofNat m]
  if n < 0x80 then [c.toLower]
  else if n = 0xAD ∨ n = 0x200B ∨ n = 0x2060 ∨ n = 0xFEFF then []
  else if n = 0x3002 ∨ n = 0xFF0E ∨ n = 0xFF61 then ['.']
  else if 0xFF01 ≤ n ∧ n ≤ 0xFF5E then [(Char.ofNat (n - 0xFEE0)).toLower]
  else if 0xC0 ≤ n ∧ n ≤ 0xDE ∧ n ≠ 0xD7 then single (n + 0x20)
  else if 0x100 ≤ n ∧ n ≤ 0x137 ∧ n ≠ 0x130 ∧ n ≠ 0x131 then single (n + (1 - n % 2))
  else if 0x139 ≤ n ∧ n ≤ 0x148 then single (n + n % 2)
  else if 0x14A ≤ n ∧ n ≤ 0x177 then single (n + (1 - n % 2))
  else if 0x391 ≤ n ∧ n ≤ 0x3A9 ∧ n ≠ 0x3A2 then single (n + 0x20)
  else if 0x410 ≤ n ∧ n ≤ 0x42F then single (n + 0x20)
  else if 0x400 ≤ n ∧ n ≤ 0x40F then single (n + 0x50)
  else [c]

def labelToAscii (label : Text) : Option Text :=
  if label.all fun c => c.toNat < 0x80 then
    match Text.after? "xn--".toList label with
    | none => some label
    | some code =>
        match Punycode.decode? code with
        | none => none
        | some t => if t.any (fun c => 0x80 ≤ c.toNat) then some label else none
  else some ("xn--".toList ++ Punycode.encode label)

def domainToAscii (name : Text) : Option Text := do
  let mapped := name.flatMap mapChar
  if mapped.any isForbiddenInDomain ∨ '\uFFFD' ∈ mapped then none
  let labels ← (Text.splitAll '.' mapped).mapM labelToAscii
  return Text.joinWith ['.'] labels

def parseSpecial? (t : Text) : Option Host :=
  if t.head? = some '[' then
    if t.getLast? = some ']' then ipv6? (t.drop 1).dropLast else none
  else do
    let name ← Utf8.decode? (Percent.decode (Utf8.encode t))
    let ascii ← domainToAscii name
    if ascii = [] then none
    if endsInNumber ascii then ipv4? ascii else return .domain ascii

def parseNamed? (t : Text) : Option Host :=
  if t.head? = some '[' then
    if t.getLast? = some ']' then ipv6? (t.drop 1).dropLast else none
  else if t.any isForbidden then none
  else some (.named (Percent.encode Percent.inControls t))

def ipv4Text (address : Nat) : Text :=
  Text.joinWith ['.']
    [Text.digits (address / 16777216 % 256), Text.digits (address / 65536 % 256),
      Text.digits (address / 256 % 256), Text.digits (address % 256)]

def zeroRun (ps : List Nat) : Nat := (ps.takeWhile (· == 0)).length

def longestZeros (ps : List Nat) : Option (Nat × Nat) :=
  (List.range ps.length).foldl (fun best i =>
    let n := zeroRun (ps.drop i)
    if 2 ≤ n ∧ (best.map Prod.snd).getD 1 < n then some (i, n) else best) none

def ipv6Text (ps : List Nat) : Text :=
  let written (qs : List Nat) : Text := Text.joinWith [':'] (qs.map Hex.ofNat)
  match longestZeros ps with
  | none => written ps
  | some (i, n) => written (ps.take i) ++ [':', ':'] ++ written (ps.drop (i + n))

def toText : Host → Text
  | .domain name => name
  | .ipv4 address => ipv4Text address
  | .ipv6 pieces => '[' :: ipv6Text pieces ++ [']']
  | .named name => name

end Host

end NetBoot.Url
