import NetBoot.Json.Reader
import NetBoot.Json.Writer
import NetBoot.Proofs.Text.Utf8

namespace NetBoot.Json

open Utf8

theorem stringBytes_plain {bytes : Bytes} :
    (∀ b ∈ bytes, b ≠ 0x22 ∧ b ≠ 0x5C ∧ ¬ b < 0x20) → ∀ rest,
      stringBytes true .plain (bytes ++ rest) =
        (stringBytes true .plain rest).map fun p => (bytes ++ p.1, p.2) := by
  induction bytes with
  | nil =>
      intro _ rest
      cases hrest : stringBytes true .plain rest <;> simp [hrest, Except.map]
  | cons b bytes ih =>
      intro h rest
      obtain ⟨hquote, hescape, hcontrol⟩ := h b (.head _)
      have htail := ih (fun c hc => h c (.tail _ hc)) rest
      rw [List.cons_append, stringBytes, if_neg hquote, if_neg hescape, if_neg hcontrol, htail]
      cases stringBytes true .plain rest <;> rfl

theorem hexValue?_lowerDigit :
    ∀ n < 16, hexValue? (UInt8.ofNat (Hex.lowerDigit n).toNat) = some n := by decide

theorem toNat_lowerDigit_lt : ∀ n < 16, (Hex.lowerDigit n).toNat < 0x80 := by decide

theorem unitMeaning_of_lt {n : Nat} (h : n < 0x20) :
    unitMeaning true n none = .ok (encodeChar (Char.ofNat n), .plain) := by
  have hlow : isLow n = false := by simp [isLow]; omega
  have hhigh : isHigh n = false := by simp [isHigh]; omega
  simp [unitMeaning, hlow, hhigh]

theorem stringBytes_control {c : Char} (h : c.toNat < 0x20) (rest : Bytes) :
    stringBytes true .plain (encode ['\\', 'u', '0', '0', Hex.lowerDigit (c.toNat / 16),
        Hex.lowerDigit (c.toNat % 16)] ++ rest) =
      (stringBytes true .plain rest).map fun p => (encodeChar c ++ p.1, p.2) := by
  have hhigh : c.toNat / 16 < 16 := by omega
  have hlow : c.toNat % 16 < 16 := by omega
  have hbytes : encode ['\\', 'u', '0', '0', Hex.lowerDigit (c.toNat / 16),
      Hex.lowerDigit (c.toNat % 16)] = [0x5C, 0x75, 0x30, 0x30,
        UInt8.ofNat (Hex.lowerDigit (c.toNat / 16)).toNat,
        UInt8.ofNat (Hex.lowerDigit (c.toNat % 16)).toNat] := by
    simp only [encode, List.flatMap_cons, encodeChar_of_ascii (toNat_lowerDigit_lt _ hhigh),
      encodeChar_of_ascii (toNat_lowerDigit_lt _ hlow)]
    rfl
  have hzero : hexValue? 0x30 = some 0 := rfl
  have hvalue : 16 * (16 * (16 * (16 * 0 + 0) + 0) + c.toNat / 16) + c.toNat % 16 = c.toNat := by
    omega
  simp only [hbytes, List.cons_append, List.nil_append, stringBytes, hzero,
    hexValue?_lowerDigit _ hhigh, hexValue?_lowerDigit _ hlow, hvalue, unitMeaning_of_lt h,
    Char.ofNat_toNat]
  simp

theorem plain_of_mem_encodeChar {c : Char} (hquote : c ≠ '"') (hescape : c ≠ '\\')
    (hcontrol : ¬ c.toNat < 0x20) {b : UInt8} (hb : b ∈ encodeChar c) :
    b ≠ 0x22 ∧ b ≠ 0x5C ∧ ¬ b < 0x20 := by
  by_cases hascii : c.toNat < 0x80
  · rw [encodeChar_of_ascii hascii, List.mem_singleton] at hb
    have hnat : b.toNat = c.toNat := by rw [hb, toNat_ofNat_of_lt (by omega)]
    refine ⟨fun h => hquote ?_, fun h => hescape ?_, ?_⟩
    · exact Char.toNat_inj.1 (by rw [← hnat, h]; rfl)
    · exact Char.toNat_inj.1 (by rw [← hnat, h]; rfl)
    · rw [UInt8.lt_iff_toNat_lt, hnat]
      exact hcontrol
  · have hlarge := le_toNat_of_mem_encodeChar (Nat.le_of_not_lt hascii) hb
    refine ⟨?_, ?_, ?_⟩
    · rintro rfl
      exact absurd hlarge (by decide)
    · rintro rfl
      exact absurd hlarge (by decide)
    · rw [UInt8.lt_iff_toNat_lt]
      exact fun h => absurd (Nat.lt_of_le_of_lt hlarge h) (by decide)

theorem stringBytes_escapeChar (c : Char) (rest : Bytes) :
    stringBytes true .plain (encode (escapeChar c) ++ rest) =
      (stringBytes true .plain rest).map fun p => (encodeChar c ++ p.1, p.2) := by
  unfold escapeChar
  split
  · next h => rw [h]; rfl
  split
  · next h => rw [h]; rfl
  split
  · next h => rw [h]; rfl
  split
  · next h => rw [h]; rfl
  split
  · next h => rw [h]; rfl
  split
  · next h => rw [h]; rfl
  split
  · next h => rw [h]; rfl
  split
  · next h => exact stringBytes_control h rest
  · next hquote hescape _ _ _ _ _ hcontrol =>
      have hencode : encode [c] = encodeChar c := by rw [encode_cons, encode_nil, List.append_nil]
      rw [hencode]
      apply stringBytes_plain
      intro b hb
      exact plain_of_mem_encodeChar hquote hescape hcontrol hb

theorem stringBytes_escapes (t : Text) (rest : Bytes) :
    stringBytes true .plain (encode (t.flatMap escapeChar ++ ['"']) ++ rest) =
      .ok (encode t, rest) := by
  induction t with
  | nil => rfl
  | cons c t ih =>
      rw [List.flatMap_cons, List.append_assoc, encode_append, List.append_assoc,
        stringBytes_escapeChar, ih]
      rfl

theorem readString_writeText (t : Text) (rest : Bytes) :
    readString (encode (t.flatMap escapeChar ++ ['"']) ++ rest) = (.text t, rest) := by
  rw [readString, readText, stringBytes_escapes]
  simp only [decode?_encode]

theorem encode_of_isDigit {t : Text} (h : ∀ c ∈ t, c.isDigit) :
    (∀ b ∈ encode t, isDigit b) ∧
      ∀ n, (encode t).foldl (fun n b => 10 * n + (b.toNat - 0x30)) n = Nat.ofDigitChars 10 t n := by
  induction t with
  | nil => exact ⟨nofun, fun n => rfl⟩
  | cons c t ih =>
      obtain ⟨hdigits, hvalue⟩ := ih fun d hd => h d (.tail _ hd)
      have hc : 0x30 ≤ c.toNat ∧ c.toNat ≤ 0x39 := by
        have := h c (.head _)
        simp only [Char.isDigit, Bool.and_eq_true, decide_eq_true_eq, ge_iff_le,
          UInt32.le_iff_toNat_le] at this
        exact this
      have hbyte : (UInt8.ofNat c.toNat).toNat = c.toNat := toNat_ofNat_of_lt (by omega)
      rw [encode_cons, encodeChar_of_ascii (by omega), List.singleton_append]
      refine ⟨?_, fun n => ?_⟩
      · intro b hb
        rcases List.mem_cons.1 hb with rfl | hb
        · simp only [isDigit, UInt8.le_iff_toNat_le, hbyte, Bool.and_eq_true, decide_eq_true_eq]
          exact hc
        · exact hdigits b hb
      · rw [List.foldl_cons, hvalue, Nat.ofDigitChars_cons, hbyte]
        rfl

theorem isDigit_of_mem_digits {n : Nat} {b : UInt8} (hb : b ∈ encode (Text.digits n)) :
    isDigit b :=
  (encode_of_isDigit fun _ hc => Nat.isDigit_of_mem_toDigits (by decide) (by decide) hc).1 b hb

theorem digitsValue_digits (n : Nat) : digitsValue (encode (Text.digits n)) = n := by
  have hdigits : ∀ c ∈ Text.digits n, c.isDigit := fun _ hc =>
    Nat.isDigit_of_mem_toDigits (by decide) (by decide) hc
  exact ((encode_of_isDigit hdigits).2 0).trans (Nat.ofDigitChars_toDigits (by decide) (by decide))

theorem head_digits {n : Nat} (h : 10 ≤ n) : ∃ d rest, d ≠ 0 ∧ d < 10 ∧
    Text.digits n = Nat.digitChar d :: rest := by
  induction n using Nat.strongRecOn with
  | ind n ih =>
      have hsplit : Text.digits n = Text.digits (n / 10) ++ [Nat.digitChar (n % 10)] :=
        Nat.toDigits_of_base_le (by decide) h
      by_cases hten : 10 ≤ n / 10
      · obtain ⟨d, rest, hzero, hd, heq⟩ := ih (n / 10) (by omega) hten
        exact ⟨d, rest ++ [Nat.digitChar (n % 10)], hzero, hd, by rw [hsplit, heq]; rfl⟩
      · have hone : Text.digits (n / 10) = [Nat.digitChar (n / 10)] :=
          Nat.toDigits_of_lt_base (by omega)
        exact ⟨n / 10, [Nat.digitChar (n % 10)], by omega, by omega, by rw [hsplit, hone]; rfl⟩

def EndsNumber (rest : Bytes) : Prop :=
  ∀ b ∈ rest.head?, isDigit b = false ∧ b ≠ 0x2E ∧ b ≠ 0x65 ∧ b ≠ 0x45

theorem someDigits_append {ds rest : Bytes} (hne : ds ≠ []) (hds : ∀ b ∈ ds, isDigit b)
    (hrest : EndsNumber rest) : someDigits (ds ++ rest) = .ok (ds, rest) := by
  have hfirst : rest.takeWhile isDigit = [] ∧ rest.dropWhile isDigit = rest := by
    cases rest with
    | nil => exact ⟨rfl, rfl⟩
    | cons b rest =>
        have hb := (hrest b rfl).1
        exact ⟨by simp [hb], by simp [hb]⟩
  rw [someDigits, List.takeWhile_append_of_pos hds, List.dropWhile_append_of_pos hds, hfirst.1,
    hfirst.2, List.append_nil]
  cases ds with
  | nil => exact absurd rfl hne
  | cons b ds => rfl

theorem wholePart_append {d : UInt8} {ds rest : Bytes} (hds : ∀ b ∈ d :: ds, isDigit b)
    (hzero : d = 0x30 → ds = []) (hrest : EndsNumber rest) :
    wholePart (d :: ds ++ rest) = .ok (d :: ds, rest) := by
  rw [wholePart, someDigits_append (by simp) hds hrest]
  split
  · next h => cases h
  · next h =>
      simp only [Except.ok.injEq, Prod.mk.injEq, List.cons.injEq] at h
      obtain ⟨⟨hd, htail⟩, -⟩ := h
      exact absurd (htail ▸ hzero hd) (by simp)
  · next h => exact h.symm ▸ rfl

theorem wholePart_digits (n : Nat) {rest : Bytes} (hrest : EndsNumber rest) :
    wholePart (encode (Text.digits n) ++ rest) = .ok (encode (Text.digits n), rest) := by
  have hdigits : ∀ b ∈ encode (Text.digits n), isDigit b := fun b hb => isDigit_of_mem_digits hb
  have hbyte : ∀ d < 10, encode [Nat.digitChar d] = [UInt8.ofNat (0x30 + d)] ∧
    (d ≠ 0 → UInt8.ofNat (0x30 + d) ≠ 0x30) := by decide
  rcases Nat.lt_or_ge n 10 with hsmall | hlarge
  · have hone : Text.digits n = [Nat.digitChar n] := Nat.toDigits_of_lt_base hsmall
    rw [hone, (hbyte n hsmall).1] at hdigits ⊢
    exact wholePart_append hdigits (fun _ => rfl) hrest
  · obtain ⟨d, tail, hzero, hd, heq⟩ := head_digits hlarge
    have hcons : encode (Text.digits n) = UInt8.ofNat (0x30 + d) :: encode tail := by
      rw [heq, ← List.singleton_append, encode_append, (hbyte d hd).1, List.singleton_append]
    rw [hcons] at hdigits ⊢
    exact wholePart_append hdigits (fun h => absurd h ((hbyte d hd).2 hzero)) hrest

theorem fractionPart_of_ends {rest : Bytes} (hrest : EndsNumber rest) :
    fractionPart rest = .ok (none, rest) := by
  unfold fractionPart
  split
  · exact absurd rfl (hrest _ rfl).2.1
  · rfl

theorem exponentPart_of_ends {rest : Bytes} (hrest : EndsNumber rest) :
    exponentPart rest = .ok (none, rest) := by
  cases rest with
  | nil => rfl
  | cons b rest =>
      obtain ⟨-, -, hsmall, hlarge⟩ := hrest b rfl
      unfold exponentPart
      exact if_neg (by simp [hsmall, hlarge])

theorem readNumber_digits {n : Nat} (h : n < Nat.pow 2 64) {rest : Bytes}
    (hrest : EndsNumber rest) :
    readNumber false (encode (Text.digits n) ++ rest) = (.natural n, rest) := by
  have hnumeral : readNumeral false (encode (Text.digits n) ++ rest) =
      .ok (⟨false, encode (Text.digits n), none, none⟩, rest) := by
    unfold readNumeral
    rw [wholePart_digits n hrest]
    simp only [bind, Except.bind, fractionPart_of_ends hrest, exponentPart_of_ends hrest]
    rfl
  rw [readNumber, hnumeral]
  simp [Numeral.tree, digitsValue_digits, h]

end NetBoot.Json
