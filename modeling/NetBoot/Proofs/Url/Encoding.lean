import NetBoot.Proofs.Text.Utf8
import NetBoot.Url.Parser

namespace NetBoot

namespace Percent

variable {escape : Char → Bool} {c : Char} {s t u : Text}

theorem encode_cons (escape : Char → Bool) (c : Char) (t : Text) :
    encode escape (c :: t) = encode escape [c] ++ encode escape t := by
  simp [encode]

def leaves (escape : Char → Bool) (c : Char) : Bool :=
  0x20 ≤ c.toNat && c.toNat < 0x7F && !escape c

theorem encode_cons_of_leaves (h : leaves escape c) (t : Text) :
    encode escape (c :: t) = c :: encode escape t := by
  simp only [leaves, Bool.and_eq_true, decide_eq_true_eq, Bool.not_eq_true'] at h
  obtain ⟨⟨hlow, hhigh⟩, hescape⟩ := h
  simp [encode, Nat.not_le.2 hhigh, Nat.not_lt.2 hlow, hescape]

theorem encode_cons_of_not_leaves (h : leaves escape c = false) (t : Text) :
    ∃ b rest, encode escape (c :: t) = encodeByte b ++ rest ∧
      ((c.toNat < 0x80 ∧ b.toNat = c.toNat) ∨ 0x80 ≤ b.toNat) := by
  have hescaped : 0x7F ≤ c.toNat ∨ c.toNat < 0x20 ∨ escape c = true := by
    simp only [leaves] at h
    grind
  cases hbytes : Utf8.encodeChar c with
  | nil => exact absurd hbytes (Utf8.encodeChar_ne_nil c)
  | cons b bs =>
      refine ⟨b, bs.flatMap encodeByte ++ encode escape t, ?_, Utf8.head_encodeChar hbytes⟩
      rw [encode_cons, encode, List.flatMap_cons, List.flatMap_nil, List.append_nil,
        if_pos (by simpa [or_assoc] using hescaped), hbytes, List.flatMap_cons, List.append_assoc]

theorem encode_singleton_of_not_leaves (h : leaves escape c = false) :
    encode escape [c] = (Utf8.encodeChar c).flatMap encodeByte := by
  simp only [leaves] at h
  rw [encode, List.flatMap_cons, List.flatMap_nil, List.append_nil, if_pos]
  grind

theorem encode_append (escape : Char → Bool) (s t : Text) :
    encode escape (s ++ t) = encode escape s ++ encode escape t := List.flatMap_append

theorem encode_of_leaves (h : ∀ c ∈ t, leaves escape c) : encode escape t = t := by
  induction t with
  | nil => rfl
  | cons c t ih =>
      rw [encode_cons_of_leaves (h c (.head _)), ih fun c hc => h c (.tail _ hc)]

theorem length_encode_singleton_pos (escape : Char → Bool) (c : Char) :
    0 < (encode escape [c]).length := by
  cases h : leaves escape c with
  | true => simp [encode_cons_of_leaves h]
  | false =>
      obtain ⟨b, rest, heq, -⟩ := encode_cons_of_not_leaves h []
      simp [heq, encodeByte]

theorem encode_eq_nil_iff : encode escape t = [] ↔ t = [] := by
  cases t with
  | nil => simp [encode]
  | cons c t =>
      have hpos := length_encode_singleton_pos escape c
      rw [encode_cons]
      simp [List.ne_nil_of_length_pos hpos]

theorem length_encode_of_sublist (escape : Char → Bool) (h : s.Sublist t) :
    (encode escape s).length + t.length ≤ (encode escape t).length + s.length := by
  induction h with
  | slnil => exact Nat.le_refl _
  | @cons s t c _ ih =>
      have hpos := length_encode_singleton_pos escape c
      rw [encode_cons escape c t, List.length_append, List.length_cons]
      omega
  | @cons_cons s t c _ ih =>
      rw [encode_cons escape c s, encode_cons escape c t, List.length_append, List.length_append,
        List.length_cons, List.length_cons]
      omega

theorem eq_of_sublist_of_length_encode (h : s.Sublist t)
    (hlength : (encode escape t).length ≤ (encode escape s).length) : s = t := by
  have hcount := length_encode_of_sublist escape h
  exact h.eq_of_length_le (by omega)

theorem encode_eq_cons_iff (hleaves : leaves escape c) (hpercent : c ≠ '%') :
    encode escape s = c :: u ↔ ∃ t, s = c :: t ∧ encode escape t = u := by
  constructor
  · intro h
    cases s with
    | nil => simp [encode] at h
    | cons x t =>
        cases hx : leaves escape x with
        | true =>
            rw [encode_cons_of_leaves hx] at h
            obtain ⟨rfl, hrest⟩ := List.cons.inj h
            exact ⟨t, rfl, hrest⟩
        | false =>
            obtain ⟨b, rest, heq, -⟩ := encode_cons_of_not_leaves hx t
            rw [heq] at h
            exact absurd (List.cons.inj h).1 (Ne.symm hpercent)
  · rintro ⟨t, rfl, rfl⟩
    exact encode_cons_of_leaves hleaves t

theorem leaves_percent : leaves inPath '%' := by decide

theorem encodeByte_append_ne_encodedDot {b : UInt8} (h : b.toNat ≠ 0x2E) {e : Char}
    (he : e = 'e' ∨ e = 'E') (rest rest' : Text) :
    encodeByte b ++ rest ≠ '%' :: '2' :: e :: rest' := by
  intro heq
  have hb : b.toNat < 256 := b.toNat_lt
  simp only [encodeByte, List.cons_append, List.nil_append, List.cons.injEq, true_and] at heq
  obtain ⟨hhigh, hlow, -⟩ := heq
  have hhigh' : some (b.toNat / 16) = some 2 :=
    (Hex.value?_upperDigit (by omega)).symm.trans (congrArg Hex.value? hhigh)
  have hlow' : some (b.toNat % 16) = some 14 := by
    rw [← Hex.value?_upperDigit (by omega), hlow]
    rcases he with rfl | rfl <;> rfl
  have := Option.some.inj hhigh'
  have := Option.some.inj hlow'
  omega

theorem encode_eq_encodedDot_iff {e : Char} (he : e = 'e' ∨ e = 'E') :
    encode inPath s = '%' :: '2' :: e :: u ↔
      ∃ t, s = '%' :: '2' :: e :: t ∧ encode inPath t = u := by
  have hdigit : leaves inPath '2' := by decide
  have hleaves : leaves inPath e := by rcases he with rfl | rfl <;> decide
  have hpercent : e ≠ '%' := by rcases he with rfl | rfl <;> decide
  constructor
  · intro h
    cases s with
    | nil => simp [encode] at h
    | cons x t =>
        cases hx : leaves inPath x with
        | true =>
            rw [encode_cons_of_leaves hx] at h
            obtain ⟨rfl, hrest⟩ := List.cons.inj h
            obtain ⟨t₁, rfl, htwo⟩ := (encode_eq_cons_iff hdigit (by decide)).1 hrest
            obtain ⟨t₂, rfl, hlast⟩ := (encode_eq_cons_iff hleaves hpercent).1 htwo
            exact ⟨t₂, rfl, hlast⟩
        | false =>
            obtain ⟨b, rest, heq, hbyte⟩ := encode_cons_of_not_leaves hx t
            have hdot : b.toNat ≠ 0x2E := by
              intro hb
              rcases hbyte with ⟨-, hb'⟩ | hb'
              · have hchar : x = '.' := Char.toNat_inj.1 (hb'.symm.trans hb)
                rw [hchar] at hx
                exact absurd hx (by decide)
              · omega
            exact absurd (heq.symm.trans h) (encodeByte_append_ne_encodedDot hdot he _ _)
  · rintro ⟨t, rfl, rfl⟩
    rw [encode_cons_of_leaves leaves_percent, encode_cons_of_leaves hdigit,
      encode_cons_of_leaves hleaves]

theorem percent_not_mem_encodeChar {c : Char} (h : c ≠ '%') : 0x25 ∉ Utf8.encodeChar c := by
  intro hbyte
  rcases Utf8.toNat_of_mem_encodeChar hbyte with heq | hwide
  · exact h (Char.toNat_inj.1 heq.symm)
  · exact absurd hwide (by decide)

theorem percent_not_mem_encode (h : '%' ∉ t) : 0x25 ∉ Utf8.encode t := by
  intro hmem
  obtain ⟨c, hc, hbyte⟩ := List.mem_flatMap.1 hmem
  exact percent_not_mem_encodeChar (fun hsign => h (hsign ▸ hc)) hbyte

theorem decode_cons_of_ne {b : UInt8} (h : b ≠ 0x25) (rest : Bytes) :
    decode (b :: rest) = b :: decode rest := by
  have hb : (b == 0x25) = false := by simpa using h
  rw [decode.eq_def]
  simp only [hb]

theorem decode_append_of_not_mem {bs : Bytes} (h : 0x25 ∉ bs) (rest : Bytes) :
    decode (bs ++ rest) = bs ++ decode rest := by
  induction bs with
  | nil => rfl
  | cons b bs ih =>
      simp only [List.mem_cons, not_or] at h
      rw [List.cons_append, decode_cons_of_ne (Ne.symm h.1), ih h.2, List.cons_append]

theorem decode_of_not_mem {bs : Bytes} (h : 0x25 ∉ bs) : decode bs = bs := by
  simpa [decode] using decode_append_of_not_mem h []

theorem decode_encodeByte (b : UInt8) (rest : Bytes) :
    decode (Utf8.encode (encodeByte b) ++ rest) = b :: decode rest := by
  have hdigit : ∀ n < 16, Utf8.encode [Hex.upperDigit n] = [UInt8.ofNat (Hex.upperDigit n).toNat] ∧
    hexByte? (UInt8.ofNat (Hex.upperDigit n).toNat) = some n := by decide
  have hb : b.toNat < 256 := b.toNat_lt
  obtain ⟨hhigh, hhighValue⟩ := hdigit (b.toNat / 16) (by omega)
  obtain ⟨hlow, hlowValue⟩ := hdigit (b.toNat % 16) (by omega)
  have hbytes : Utf8.encode (encodeByte b) = [0x25, UInt8.ofNat (Hex.upperDigit (b.toNat / 16)).toNat,
      UInt8.ofNat (Hex.upperDigit (b.toNat % 16)).toNat] := by
    change Utf8.encode (['%'] ++ [Hex.upperDigit (b.toNat / 16)] ++
      [Hex.upperDigit (b.toNat % 16)]) = _
    rw [Utf8.encode_append, Utf8.encode_append, hhigh, hlow]
    rfl
  have hvalue : 16 * (b.toNat / 16) + b.toNat % 16 = b.toNat := Nat.div_add_mod _ _
  rw [hbytes, List.cons_append, List.cons_append, List.cons_append, List.nil_append,
    decode.eq_def]
  simp only [beq_self_eq_true, hhighValue, hlowValue, hvalue, UInt8.ofNat_toNat]

theorem decode_encodeBytes (bs rest : Bytes) :
    decode (Utf8.encode (bs.flatMap encodeByte) ++ rest) = bs ++ decode rest := by
  induction bs with
  | nil => rfl
  | cons b bs ih =>
      rw [List.flatMap_cons, Utf8.encode_append, List.append_assoc, decode_encodeByte, ih]
      rfl

theorem decode_encode (escape : Char → Bool) (h : '%' ∉ t) :
    decode (Utf8.encode (encode escape t)) = Utf8.encode t := by
  induction t with
  | nil => rfl
  | cons c t ih =>
      simp only [List.mem_cons, not_or] at h
      have hrest := ih h.2
      cases hc : leaves escape c with
      | true =>
          have hascii : c.toNat < 0x80 := by
            simp only [leaves, Bool.and_eq_true, decide_eq_true_eq] at hc
            omega
          have hbyte := percent_not_mem_encodeChar (Ne.symm h.1)
          rw [Utf8.encodeChar_of_ascii hascii, List.mem_singleton] at hbyte
          rw [encode_cons_of_leaves hc, Utf8.encode_cons, Utf8.encode_cons,
            Utf8.encodeChar_of_ascii hascii, List.singleton_append,
            decode_cons_of_ne (Ne.symm hbyte), hrest]
          rfl
      | false =>
          rw [encode_cons, encode_singleton_of_not_leaves hc, Utf8.encode_append, decode_encodeBytes, hrest,
            Utf8.encode_cons]

end Percent

namespace Url

open Percent

theorem isSingleDot_iff {s : Text} :
    isSingleDot s ↔ s = ['.'] ∨ ∃ e, (e = 'e' ∨ e = 'E') ∧ s = ['%', '2', e] := by
  simp [isSingleDot, or_assoc]

theorem isDoubleDot_iff {s : Text} :
    isDoubleDot s ↔ ∃ first second, isSingleDot first ∧ isSingleDot second ∧ s = first ++ second := by
  constructor
  · intro h
    unfold isDoubleDot at h
    split at h
    · next rest => exact ⟨['.'], rest, by decide, h, rfl⟩
    · next e rest =>
        simp only [Bool.and_eq_true, Bool.or_eq_true, decide_eq_true_eq] at h
        exact ⟨['%', '2', e], rest, isSingleDot_iff.2 (.inr ⟨e, h.1, rfl⟩), h.2, rfl⟩
    · cases h
  · rintro ⟨first, second, hfirst, hsecond, rfl⟩
    rcases isSingleDot_iff.1 hfirst with rfl | ⟨e, he, rfl⟩
    · exact hsecond
    · simp [isDoubleDot, he, hsecond]

theorem encode_eq_append_iff {s d u : Text} (hd : isSingleDot d) :
    encode inPath s = d ++ u ↔ ∃ t, s = d ++ t ∧ encode inPath t = u := by
  rcases isSingleDot_iff.1 hd with rfl | ⟨e, he, rfl⟩
  · exact encode_eq_cons_iff (by decide) (by decide)
  · exact encode_eq_encodedDot_iff he

theorem encode_eq_of_isSingleDot_iff {s d : Text} (hd : isSingleDot d) :
    encode inPath s = d ↔ s = d := by
  have h := encode_eq_append_iff (s := s) (u := []) hd
  simpa [encode_eq_nil_iff] using h

def isDot (s : Text) : Bool := isDoubleDot s || isSingleDot s

theorem mem_of_isSingleDot {s : Text} {c : Char} (h : isSingleDot s) (hc : c ∈ s) :
    c ∈ ".%2eE".toList := by
  rcases isSingleDot_iff.1 h with rfl | ⟨e, he, rfl⟩
  · rw [List.mem_singleton] at hc
    simp [hc]
  · simp at hc ⊢
    grind

theorem isDot_iff_of_not_mem {s : Text} (h : '%' ∉ s) :
    isDot s ↔ s = ['.'] ∨ s = ['.', '.'] := by
  have hsingle {d : Text} (hd : isSingleDot d) (hmem : '%' ∉ d) : d = ['.'] := by
    rcases isSingleDot_iff.1 hd with rfl | ⟨e, -, rfl⟩
    · rfl
    · exact absurd (.head _) hmem
  constructor
  · intro hdot
    rcases Bool.or_eq_true_iff.1 hdot with hdouble | hdot
    · obtain ⟨first, second, hfirst, hsecond, rfl⟩ := isDoubleDot_iff.1 hdouble
      rw [List.mem_append, not_or] at h
      rw [hsingle hfirst h.1, hsingle hsecond h.2]
      exact .inr rfl
    · exact .inl (hsingle hdot h)
  · rintro (rfl | rfl) <;> decide

theorem mem_of_isDot {s : Text} {c : Char} (h : isDot s) (hc : c ∈ s) : c ∈ ".%2eE".toList := by
  rcases Bool.or_eq_true_iff.1 h with hdouble | hsingle
  · obtain ⟨first, second, hfirst, hsecond, rfl⟩ := isDoubleDot_iff.1 hdouble
    rcases List.mem_append.1 hc with hc | hc
    · exact mem_of_isSingleDot hfirst hc
    · exact mem_of_isSingleDot hsecond hc
  · exact mem_of_isSingleDot hsingle hc

theorem isSingleDot_encode (s : Text) : isSingleDot (encode inPath s) = isSingleDot s := by
  rw [Bool.eq_iff_iff]
  constructor
  · intro h
    rwa [← (encode_eq_of_isSingleDot_iff h).1 rfl] at h
  · intro h
    rwa [(encode_eq_of_isSingleDot_iff h).2 rfl]

theorem isDoubleDot_encode (s : Text) : isDoubleDot (encode inPath s) = isDoubleDot s := by
  rw [Bool.eq_iff_iff, isDoubleDot_iff, isDoubleDot_iff]
  constructor
  · rintro ⟨first, second, hfirst, hsecond, hs⟩
    obtain ⟨t, rfl, ht⟩ := (encode_eq_append_iff hfirst).1 hs
    exact ⟨first, t, hfirst, (encode_eq_of_isSingleDot_iff hsecond).1 ht ▸ hsecond, rfl⟩
  · rintro ⟨first, second, hfirst, hsecond, rfl⟩
    exact ⟨first, second, hfirst, hsecond, (encode_eq_append_iff hfirst).2
      ⟨second, rfl, (encode_eq_of_isSingleDot_iff hsecond).2 rfl⟩⟩

theorem isDot_encode (s : Text) : isDot (encode inPath s) = isDot s := by
  rw [isDot, isDoubleDot_encode, isSingleDot_encode, isDot]

end Url

end NetBoot
