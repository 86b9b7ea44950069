import NetBoot.Text.Basic

namespace NetBoot.Base64

def signs : Text :=
  "ABCDEFGHIJKLMNOPQRSTUVWXYZabcdefghijklmnopqrstuvwxyz0123456789+/".toList

def sign (n : Nat) : Char := signs.getD n '='

def value? (c : Char) : Option Nat :=
  if 'A' ≤ c ∧ c ≤ 'Z' then some (c.toNat - 'A'.toNat)
  else if 'a' ≤ c ∧ c ≤ 'z' then some (c.toNat - 'a'.toNat + 26)
  else if c.isDigit then some (c.toNat - '0'.toNat + 52)
  else if c = '+' then some 62
  else if c = '/' then some 63
  else none

def encode : Bytes → Text
  | [] => []
  | [x] => [sign (x.toNat / 4), sign (16 * (x.toNat % 4)), '=', '=']
  | [x, y] =>
      [sign (x.toNat / 4), sign (16 * (x.toNat % 4) + y.toNat / 16), sign (4 * (y.toNat % 16)), '=']
  | x :: y :: z :: rest =>
      sign (x.toNat / 4) :: sign (16 * (x.toNat % 4) + y.toNat / 16) ::
        sign (4 * (y.toNat % 16) + z.toNat / 64) :: sign (z.toNat % 64) :: encode rest

def decode? : Text → Option Bytes
  | [] => some []
  | [a, b, '=', '='] => do
      let a ← value? a
      let b ← value? b
      return [UInt8.ofNat (4 * a + b / 16)]
  | [a, b, c, '='] => do
      let a ← value? a
      let b ← value? b
      let c ← value? c
      return [UInt8.ofNat (4 * a + b / 16), UInt8.ofNat (16 * b + c / 4)]
  | a :: b :: c :: d :: rest => do
      let a ← value? a
      let b ← value? b
      let c ← value? c
      let d ← value? d
      let bs ← decode? rest
      return UInt8.ofNat (4 * a + b / 16) :: UInt8.ofNat (16 * b + c / 4) ::
        UInt8.ofNat (64 * c + d) :: bs
  | _ => none

theorem value?_sign {n : Nat} (h : n < 64) : value? (sign n) = some n := by
  have hall : ∀ n < 64, value? (sign n) = some n := by decide +kernel
  exact hall n h

theorem sign_ne_pad {n : Nat} (h : n < 64) : sign n ≠ '=' := by
  intro heq
  have hvalue := value?_sign h
  rw [heq] at hvalue
  cases hvalue

theorem ofNat_eq {x : UInt8} {n : Nat} (h : n % 256 = x.toNat) : UInt8.ofNat n = x :=
  UInt8.toNat_inj.1 (UInt8.toNat_ofNat'.trans h)

theorem decode?_encode (bs : Bytes) : decode? (encode bs) = some bs := by
  induction bs using encode.induct with
  | case1 => rfl
  | case2 x =>
      have hx := x.toNat_lt
      rw [encode, decode?, value?_sign (by omega), value?_sign (by omega)]
      simp only [Option.bind_eq_bind, Option.bind_some]
      rw [ofNat_eq (x := x) (by omega)]
      rfl
  | case3 x y =>
      have hx := x.toNat_lt
      have hy := y.toNat_lt
      have hlast := sign_ne_pad (n := 4 * (y.toNat % 16)) (by omega)
      rw [encode, decode?, value?_sign (by omega), value?_sign (by omega), value?_sign (by omega)]
      · simp only [Option.bind_eq_bind, Option.bind_some]
        rw [ofNat_eq (x := x) (by omega), ofNat_eq (x := y) (by omega)]
        rfl
      · exact hlast
  | case4 x y z rest ih =>
      have hx := x.toNat_lt
      have hy := y.toNat_lt
      have hz := z.toNat_lt
      have hlast := sign_ne_pad (n := z.toNat % 64) (by omega)
      rw [encode, decode?, value?_sign (by omega), value?_sign (by omega), value?_sign (by omega),
        value?_sign (by omega), ih]
      · simp only [Option.bind_eq_bind, Option.bind_some]
        rw [ofNat_eq (x := x) (by omega), ofNat_eq (x := y) (by omega),
          ofNat_eq (x := z) (by omega)]
        rfl
      · exact fun _ h _ => hlast h
      · exact fun h _ => hlast h

end NetBoot.Base64
