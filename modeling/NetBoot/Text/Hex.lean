import NetBoot.Text.Basic

namespace NetBoot.Hex

def lowerDigit (n : Nat) : Char := Nat.digitChar n

def upperDigit (n : Nat) : Char := (Nat.digitChar n).toUpper

def value? (c : Char) : Option Nat :=
  if '0' ≤ c ∧ c ≤ '9' then some (c.toNat - '0'.toNat)
  else if 'a' ≤ c ∧ c ≤ 'f' then some (c.toNat - 'a'.toNat + 10)
  else if 'A' ≤ c ∧ c ≤ 'F' then some (c.toNat - 'A'.toNat + 10)
  else none

def ofNat (n : Nat) : Text := Nat.toDigits 16 n

def encode (bs : Bytes) : Text :=
  bs.flatMap fun b => [lowerDigit (b.toNat / 16), lowerDigit (b.toNat % 16)]

def decode? : Text → Option Bytes
  | [] => some []
  | [_] => none
  | a :: b :: rest =>
      match value? a, value? b, decode? rest with
      | some x, some y, some bs => some (UInt8.ofNat (16 * x + y) :: bs)
      | _, _, _ => none

theorem value?_lowerDigit {n : Nat} (h : n < 16) : value? (lowerDigit n) = some n := by
  have : ∀ m < 16, value? (lowerDigit m) = some m := by decide
  exact this n h

theorem value?_upperDigit {n : Nat} (h : n < 16) : value? (upperDigit n) = some n := by
  have : ∀ m < 16, value? (upperDigit m) = some m := by decide
  exact this n h

theorem decode?_encode (bs : Bytes) : decode? (encode bs) = some bs := by
  induction bs with
  | nil => rfl
  | cons b bs ih =>
      have hb : b.toNat < 256 := b.toNat_lt
      have hi : value? (lowerDigit (b.toNat / 16)) = some (b.toNat / 16) :=
        value?_lowerDigit (by omega)
      have lo : value? (lowerDigit (b.toNat % 16)) = some (b.toNat % 16) :=
        value?_lowerDigit (by omega)
      have ih' : decode? (List.flatMap (fun b => [lowerDigit (b.toNat / 16),
          lowerDigit (b.toNat % 16)]) bs) = some bs := ih
      simp only [encode, List.flatMap_cons, List.cons_append, List.nil_append, decode?, hi, lo,
        ih', Option.some.injEq, List.cons.injEq, and_true]
      rw [Nat.div_add_mod]
      exact UInt8.ofNat_toNat

end NetBoot.Hex
