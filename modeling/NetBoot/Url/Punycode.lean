import NetBoot.Text.Basic

namespace NetBoot.Punycode

def digitChar (d : Nat) : Char :=
  if d < 26 then Char.ofNat ('a'.toNat + d) else Char.ofNat ('0'.toNat + (d - 26))

def digitValue? (c : Char) : Option Nat :=
  if 'a' ≤ c ∧ c ≤ 'z' then some (c.toNat - 'a'.toNat)
  else if 'A' ≤ c ∧ c ≤ 'Z' then some (c.toNat - 'A'.toNat)
  else if c.isDigit then some (c.toNat - '0'.toNat + 26)
  else none

def threshold (k bias : Nat) : Nat := max 1 (min 26 (k - bias))

def scaleDown (delta k : Nat) : Nat × Nat :=
  if 455 < delta then scaleDown (delta / 35) (k + 36) else (delta, k)
termination_by delta

def adapt (delta count : Nat) (first : Bool) : Nat :=
  let d := if first then delta / 700 else delta / 2
  let (d, k) := scaleDown (d + d / count) 0
  k + 36 * d / (d + 38)

def encodeNumber (bias k q : Nat) : Text :=
  let t := threshold k bias
  if q < t then [digitChar q]
  else digitChar (t + (q - t) % (36 - t)) :: encodeNumber bias (k + 36) ((q - t) / (36 - t))
termination_by q
decreasing_by
  have : 1 ≤ threshold k bias := by unfold threshold; omega
  have := Nat.div_le_self (q - threshold k bias) (36 - threshold k bias)
  omega

structure Progress where
  out : Text
  delta : Nat
  bias : Nat
  handled : Nat

def encodeStep (basic m : Nat) (s : Progress) (c : Char) : Progress :=
  if c.toNat < m then { s with delta := s.delta + 1 }
  else if c.toNat = m then
    { out := s.out ++ encodeNumber s.bias 36 s.delta
      delta := 0
      bias := adapt s.delta (s.handled + 1) (s.handled = basic)
      handled := s.handled + 1 }
  else s

def encodeRest (label : Text) (basic : Nat) : List Nat → Nat → Progress → Progress
  | [], _, s => s
  | m :: ms, n, s =>
      let s := { s with delta := s.delta + (m - n) * (s.handled + 1) }
      let s := label.foldl (encodeStep basic m) s
      encodeRest label basic ms (m + 1) { s with delta := s.delta + 1 }

def sortedCodes (label : Text) : List Nat :=
  ((label.filter fun c => 0x80 ≤ c.toNat).map Char.toNat).mergeSort.eraseDups

def encode (label : Text) : Text :=
  let basic := label.filter fun c => c.toNat < 0x80
  let rest := encodeRest label basic.length (sortedCodes label) 0x80 ⟨[], 0, 72, basic.length⟩
  basic ++ (if basic = [] then [] else ['-']) ++ rest.out

def decodeNumber (bias : Nat) : Text → Nat → Nat → Nat → Option (Nat × Text)
  | [], _, _, _ => none
  | c :: cs, k, w, i =>
      match digitValue? c with
      | none => none
      | some d =>
          let t := threshold k bias
          let i := i + d * w
          if d < t then some (i, cs) else decodeNumber bias cs (k + 36) (w * (36 - t)) i

def decodeRest : Nat → Text → Nat → Nat → Nat → Text → Option Text
  | _, [], _, _, _, out => some out
  | 0, _, _, _, _, _ => none
  | fuel + 1, cs, n, i, bias, out =>
      match decodeNumber bias cs 36 1 i with
      | none => none
      | some (j, rest) =>
          let count := out.length + 1
          let n := n + j / count
          let place := j % count
          if n.isValidChar then
            decodeRest fuel rest n (place + 1) (adapt (j - i) count (i = 0))
              (out.take place ++ Char.ofNat n :: out.drop place)
          else none

def decode? (t : Text) : Option Text :=
  match Text.splitLast '-' t with
  | some (basic, rest) => decodeRest rest.length rest 0x80 0 72 basic
  | none => decodeRest t.length t 0x80 0 72 []

end NetBoot.Punycode
