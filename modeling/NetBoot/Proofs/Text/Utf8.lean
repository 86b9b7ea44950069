import NetBoot.Text.Utf8

namespace NetBoot.Utf8

theorem encodeChar_ne_nil (c : Char) : encodeChar c ≠ [] := by
  unfold encodeChar
  grind

theorem toNat_lt_of_char (c : Char) : c.toNat < 0x110000 := by
  have h := c.valid
  simp only [UInt32.isValidChar, Nat.isValidChar] at h
  change c.val.toNat < _
  omega

theorem not_surrogate_of_char (c : Char) : c.toNat < 0xD800 ∨ 0xDFFF < c.toNat := by
  have h := c.valid
  simp only [UInt32.isValidChar, Nat.isValidChar] at h
  change c.val.toNat < _ ∨ _ < c.val.toNat
  omega

theorem isAlphanum_iff {c : Char} : c.isAlphanum ↔
    ((65 ≤ c.toNat ∧ c.toNat ≤ 90) ∨ (97 ≤ c.toNat ∧ c.toNat ≤ 122)) ∨
      (48 ≤ c.toNat ∧ c.toNat ≤ 57) := by
  change ((decide (65 ≤ c.val ∧ c.val ≤ 90) || (decide (97 ≤ c.val) && decide (c.val ≤ 122))) ||
    (decide (48 ≤ c.val) && decide (c.val ≤ 57))) = true ↔ _
  simp only [Bool.or_eq_true, Bool.and_eq_true, decide_eq_true_eq, UInt32.le_iff_toNat_le]
  exact Iff.rfl

theorem toNat_ofNat_of_lt {n : Nat} (h : n < 0x100) : (UInt8.ofNat n).toNat = n := by
  rw [UInt8.toNat_ofNat']
  omega

theorem lead_encodeChar {c : Char} {b : UInt8} {rest : Bytes} (h : encodeChar c = b :: rest) :
    (c.toNat < 0x80 ∧ b.toNat = c.toNat) ∨ 0xC0 ≤ b.toNat := by
  have hc := toNat_lt_of_char c
  unfold encodeChar at h
  dsimp only at h
  split at h
  · next hn =>
      obtain ⟨rfl, -⟩ := List.cons.inj h
      exact .inl ⟨hn, toNat_ofNat_of_lt (by omega)⟩
  · refine .inr ?_
    split at h
    · obtain ⟨rfl, -⟩ := List.cons.inj h
      rw [toNat_ofNat_of_lt (by omega)]
      omega
    · split at h
      · obtain ⟨rfl, -⟩ := List.cons.inj h
        rw [toNat_ofNat_of_lt (by omega)]
        omega
      · obtain ⟨rfl, -⟩ := List.cons.inj h
        rw [toNat_ofNat_of_lt (by omega)]
        omega

theorem head_encodeChar {c : Char} {b : UInt8} {rest : Bytes} (h : encodeChar c = b :: rest) :
    (c.toNat < 0x80 ∧ b.toNat = c.toNat) ∨ 0x80 ≤ b.toNat :=
  (lead_encodeChar h).imp_right (Nat.le_trans (by decide))

theorem encodeChar_of_ascii {c : Char} (h : c.toNat < 0x80) :
    encodeChar c = [UInt8.ofNat c.toNat] := by
  simp [encodeChar, h]

theorem le_toNat_of_mem_encodeChar {c : Char} (h : 0x80 ≤ c.toNat) {b : UInt8}
    (hb : b ∈ encodeChar c) : 0x80 ≤ b.toNat := by
  have hc := toNat_lt_of_char c
  have hascii : ¬ c.toNat < 0x80 := by omega
  simp only [encodeChar, hascii, if_false] at hb
  split at hb
  · simp only [List.mem_cons, List.not_mem_nil, or_false] at hb
    rcases hb with rfl | rfl <;> rw [toNat_ofNat_of_lt (by omega)] <;> omega
  · split at hb
    · simp only [List.mem_cons, List.not_mem_nil, or_false] at hb
      rcases hb with rfl | rfl | rfl <;> rw [toNat_ofNat_of_lt (by omega)] <;> omega
    · simp only [List.mem_cons, List.not_mem_nil, or_false] at hb
      rcases hb with rfl | rfl | rfl | rfl <;> rw [toNat_ofNat_of_lt (by omega)] <;> omega

theorem toNat_of_mem_encodeChar {c : Char} {b : UInt8} (hb : b ∈ encodeChar c) :
    b.toNat = c.toNat ∨ 0x80 ≤ b.toNat := by
  by_cases hascii : c.toNat < 0x80
  · rw [encodeChar_of_ascii hascii, List.mem_singleton] at hb
    rw [hb, toNat_ofNat_of_lt (by omega)]
    exact .inl rfl
  · exact .inr (le_toNat_of_mem_encodeChar (by omega) hb)

theorem encode_nil : encode [] = [] := rfl

theorem encode_cons (c : Char) (t : Text) : encode (c :: t) = encodeChar c ++ encode t := rfl

theorem encode_append (t u : Text) : encode (t ++ u) = encode t ++ encode u :=
  List.flatMap_append

theorem scan_pending {left code low high : Nat} {b : UInt8} (hlow : low ≤ b.toNat)
    (hhigh : b.toNat ≤ high) (bs : Bytes) :
    scan (.some left code low high) (b :: bs) =
      if left ≤ 1 then some (Char.ofNat (64 * code + (b.toNat - 0x80))) :: scan .none bs
      else scan (.some (left - 1) (64 * code + (b.toNat - 0x80)) 0x80 0xBF) bs := by
  rw [scan]
  exact if_pos ⟨hlow, hhigh⟩

theorem scan_lead {b : UInt8} {left code low high : Nat}
    (h : lead b.toNat = (none, .some left code low high)) (bs : Bytes) :
    scan .none (b :: bs) = scan (.some left code low high) bs := by
  rw [scan, h]

theorem lead_two : ∀ q < 0x20, 2 ≤ q → lead (0xC0 + q) = (none, .some 1 q 0x80 0xBF) := by decide

/-- The second byte is bounded so that no character has two encodings, and no surrogate one. -/
theorem lead_three : ∀ q < 0x10, lead (0xE0 + q) =
    (none, .some 2 q (if q = 0 then 0xA0 else 0x80) (if q = 0xD then 0x9F else 0xBF)) := by decide

theorem lead_four : ∀ q < 5, lead (0xF0 + q) =
    (none, .some 3 q (if q = 0 then 0x90 else 0x80) (if q = 4 then 0x8F else 0xBF)) := by decide

theorem scan_two {n : Nat} (hlow : 0x80 ≤ n) (hhigh : n < 0x800) (bs : Bytes) :
    scan .none (UInt8.ofNat (0xC0 + n / 64) :: UInt8.ofNat (0x80 + n % 64) :: bs) =
      some (Char.ofNat n) :: scan .none bs := by
  have hfirst := toNat_ofNat_of_lt (n := 0xC0 + n / 64) (by omega)
  have hsecond := toNat_ofNat_of_lt (n := 0x80 + n % 64) (by omega)
  have hcode : 64 * (n / 64) + (0x80 + n % 64 - 0x80) = n := by omega
  rw [scan_lead (by rw [hfirst]; exact lead_two (n / 64) (by omega) (by omega)),
    scan_pending (by omega) (by omega), if_pos (Nat.le_refl 1), hsecond, hcode]

theorem scan_three {n : Nat} (hlow : 0x800 ≤ n) (hhigh : n < 0x10000)
    (hvalid : n < 0xD800 ∨ 0xDFFF < n) (bs : Bytes) :
    scan .none (UInt8.ofNat (0xE0 + n / 4096) :: UInt8.ofNat (0x80 + n / 64 % 64) ::
        UInt8.ofNat (0x80 + n % 64) :: bs) =
      some (Char.ofNat n) :: scan .none bs := by
  have hfirst := toNat_ofNat_of_lt (n := 0xE0 + n / 4096) (by omega)
  have hsecond := toNat_ofNat_of_lt (n := 0x80 + n / 64 % 64) (by omega)
  have hthird := toNat_ofNat_of_lt (n := 0x80 + n % 64) (by omega)
  have hcode : 64 * (64 * (n / 4096) + (0x80 + n / 64 % 64 - 0x80)) + (0x80 + n % 64 - 0x80) = n := by
    omega
  rw [scan_lead (by rw [hfirst]; exact lead_three (n / 4096) (by omega)),
    scan_pending (by rw [hsecond]; split <;> omega) (by rw [hsecond]; split <;> omega),
    if_neg (by omega), scan_pending (by omega) (by omega), if_pos (Nat.le_refl 1), hsecond, hthird,
    hcode]

theorem scan_four {n : Nat} (hlow : 0x10000 ≤ n) (hhigh : n < 0x110000) (bs : Bytes) :
    scan .none (UInt8.ofNat (0xF0 + n / 262144) :: UInt8.ofNat (0x80 + n / 4096 % 64) ::
        UInt8.ofNat (0x80 + n / 64 % 64) :: UInt8.ofNat (0x80 + n % 64) :: bs) =
      some (Char.ofNat n) :: scan .none bs := by
  have hfirst := toNat_ofNat_of_lt (n := 0xF0 + n / 262144) (by omega)
  have hsecond := toNat_ofNat_of_lt (n := 0x80 + n / 4096 % 64) (by omega)
  have hthird := toNat_ofNat_of_lt (n := 0x80 + n / 64 % 64) (by omega)
  have hfourth := toNat_ofNat_of_lt (n := 0x80 + n % 64) (by omega)
  have hcode : 64 * (64 * (64 * (n / 262144) + (0x80 + n / 4096 % 64 - 0x80)) +
      (0x80 + n / 64 % 64 - 0x80)) + (0x80 + n % 64 - 0x80) = n := by
    omega
  rw [scan_lead (by rw [hfirst]; exact lead_four (n / 262144) (by omega)),
    scan_pending (by rw [hsecond]; split <;> omega) (by rw [hsecond]; split <;> omega),
    if_neg (by omega), scan_pending (by omega) (by omega), if_neg (by omega),
    scan_pending (by omega) (by omega), if_pos (Nat.le_refl 1), hsecond, hthird, hfourth, hcode]

theorem scan_encodeChar (c : Char) (bs : Bytes) :
    scan .none (encodeChar c ++ bs) = some c :: scan .none bs := by
  have hbound := toNat_lt_of_char c
  unfold encodeChar
  dsimp only
  split
  · next hone =>
      rw [List.singleton_append, scan, toNat_ofNat_of_lt (by omega), lead, if_pos hone,
        Char.ofNat_toNat]
  · split
    · next htwo => exact (scan_two (by omega) htwo bs).trans (by rw [Char.ofNat_toNat])
    · split
      · next hthree =>
          exact (scan_three (by omega) hthree (not_surrogate_of_char c) bs).trans
            (by rw [Char.ofNat_toNat])
      · exact (scan_four (by omega) hbound bs).trans (by rw [Char.ofNat_toNat])

theorem decode?_encode (t : Text) : decode? (encode t) = some t := by
  induction t with
  | nil => rfl
  | cons c t ih =>
      have hrest : allSome (scan .none (encode t)) = some t := ih
      rw [decode?, encode_cons, scan_encodeChar, allSome, hrest]
      rfl

end NetBoot.Utf8
