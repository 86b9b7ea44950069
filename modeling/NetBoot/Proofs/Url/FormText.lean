import NetBoot.Proofs.Text.Lossy
import NetBoot.Proofs.Url.Path
import NetBoot.Url.Form

namespace NetBoot

namespace Form

open Percent

variable {escape : Char → Bool} {c x y : Char} {h l : Nat} {s t : Text}

def startsEscape : Text → Bool
  | '%' :: x :: y :: _ => (Hex.value? x).isSome && (Hex.value? y).isSome
  | _ => false

def holdsEscape : Text → Bool
  | [] => false
  | c :: t => startsEscape (c :: t) || holdsEscape t

def unit (c : Char) : Bytes := if c = '+' then [0x20] else Utf8.encodeChar c

def units : Text → List Bytes
  | [] => []
  | '%' :: x :: y :: t =>
      match Hex.value? x, Hex.value? y with
      | some h, some l => [UInt8.ofNat (16 * h + l)] :: units t
      | _, _ => unit '%' :: units (x :: y :: t)
  | c :: t => unit c :: units t

theorem startsEscape_eq_false_of_ne (h : c ≠ '%') (t : Text) : startsEscape (c :: t) = false := by
  unfold startsEscape
  split
  · next heq => exact absurd (List.cons.inj heq).1 h
  · rfl

theorem startsEscape_iff : startsEscape s ↔ ∃ x y h l t, s = '%' :: x :: y :: t ∧
    Hex.value? x = some h ∧ Hex.value? y = some l := by
  constructor
  · intro hs
    unfold startsEscape at hs
    split at hs
    · next x y t =>
        rw [Bool.and_eq_true, Option.isSome_iff_exists, Option.isSome_iff_exists] at hs
        obtain ⟨⟨h, hx⟩, l, hy⟩ := hs
        exact ⟨x, y, h, l, t, rfl, hx, hy⟩
    · cases hs
  · rintro ⟨x, y, h, l, t, rfl, hx, hy⟩
    simp [startsEscape, hx, hy]

theorem units_of_escape (hx : Hex.value? x = some h) (hy : Hex.value? y = some l) (t : Text) :
    units ('%' :: x :: y :: t) = [UInt8.ofNat (16 * h + l)] :: units t := by
  rw [units]
  simp only [hx, hy]

theorem units_of_not_escape (hs : startsEscape (c :: t) = false) :
    units (c :: t) = unit c :: units t := by
  rw [units.eq_def]
  split
  · next heq => cases heq
  · next x y t heq =>
      rw [heq] at hs
      obtain ⟨rfl, rfl⟩ := List.cons.inj heq
      split
      · next hx hy => simp [startsEscape, hx, hy] at hs
      · rfl
  · next heq =>
      obtain ⟨rfl, rfl⟩ := List.cons.inj heq
      rfl

@[elab_as_elim]
theorem escape_induction {motive : Text → Prop} (nil : motive [])
    (escape : ∀ x y h l t, Hex.value? x = some h → Hex.value? y = some l → motive t →
      motive ('%' :: x :: y :: t))
    (char : ∀ c t, startsEscape (c :: t) = false → motive t → motive (c :: t)) (t : Text) :
    motive t := by
  fun_induction units t with
  | case1 => exact nil
  | case2 x y t h l hy hx ih => exact escape x y h l t hx hy ih
  | case3 x y t hno ih =>
      refine char '%' _ ?_ ih
      rw [Bool.eq_false_iff, ne_eq, startsEscape_iff]
      rintro ⟨x', y', h, l, t', heq, hx, hy⟩
      cases heq
      exact hno h l hx hy
  | case4 c t hno ih =>
      refine char c t ?_ ih
      rw [Bool.eq_false_iff, ne_eq, startsEscape_iff]
      rintro ⟨x, y, h, l, t', heq, -⟩
      cases heq
      exact hno x y t' rfl rfl

theorem unit_of_ne (h : c ≠ '+') : unit c = Utf8.encodeChar c := if_neg h

theorem isUnit_of_mem_units (t : Text) : ∀ bytes ∈ units t, Utf8.IsUnit bytes := by
  induction t using escape_induction with
  | nil => exact nofun
  | escape x y h l t hx hy ih =>
      rw [units_of_escape hx hy]
      exact List.forall_mem_cons.2 ⟨Utf8.isUnit_byte _, ih⟩
  | char c t hc ih =>
      rw [units_of_not_escape hc]
      refine List.forall_mem_cons.2 ⟨?_, ih⟩
      unfold unit
      split
      · exact Utf8.isUnit_byte _
      · exact Utf8.isUnit_encodeChar c

theorem length_units (t : Text) :
    (units t).length ≤ t.length ∧ (holdsEscape t → (units t).length < t.length) := by
  induction t using escape_induction with
  | nil => exact ⟨Nat.le_refl _, nofun⟩
  | escape x y h l t hx hy ih =>
      rw [units_of_escape hx hy]
      simp only [List.length_cons]
      omega
  | char c t hc ih =>
      rw [units_of_not_escape hc, holdsEscape, hc, Bool.false_or]
      simp only [List.length_cons]
      exact ⟨Nat.succ_le_succ ih.1, fun h => Nat.succ_lt_succ (ih.2 h)⟩

def spaced (c : Char) : Char := if c = '+' then ' ' else c

theorem unit_eq_encodeChar_spaced (c : Char) : unit c = Utf8.encodeChar (spaced c) := by
  by_cases hc : c = '+'
  · rw [hc]
    rfl
  · rw [unit_of_ne hc, spaced, if_neg hc]

theorem flatten_units_of_no_escape (h : holdsEscape t = false) :
    (units t).flatten = Utf8.encode (t.map spaced) := by
  induction t with
  | nil => rfl
  | cons c t ih =>
      rw [holdsEscape, Bool.or_eq_false_iff] at h
      rw [units_of_not_escape h.1, List.flatten_cons, ih h.2, unit_eq_encodeChar_spaced]
      rfl

section Decoding

def spacedByte (b : UInt8) : UInt8 := if b == 0x2B then 0x20 else b

theorem hexByte?_spacedByte : ∀ n < 0x80,
    hexByte? (spacedByte (UInt8.ofNat n)) = Hex.value? (Char.ofNat n) := by decide

theorem hexByte?_spacedByte_beyond : ∀ n < 0x80,
    hexByte? (spacedByte (UInt8.ofNat (0x80 + n))) = none := by decide

theorem exists_digit_of_hexByte? {b : UInt8} {bs : Bytes}
    (ht : (Utf8.encode t).map spacedByte = b :: bs) (hb : hexByte? b = some h) :
    ∃ x rest, t = x :: rest ∧ Hex.value? x = some h ∧ bs = (Utf8.encode rest).map spacedByte := by
  cases t with
  | nil => cases ht
  | cons x rest =>
      by_cases hascii : x.toNat < 0x80
      · rw [Utf8.encode_cons, Utf8.encodeChar_of_ascii hascii, List.singleton_append,
          List.map_cons] at ht
        obtain ⟨rfl, rfl⟩ := List.cons.inj ht
        rw [hexByte?_spacedByte _ hascii, Char.ofNat_toNat] at hb
        exact ⟨x, rest, rfl, hb, rfl⟩
      · cases hbytes : Utf8.encodeChar x with
        | nil => exact absurd hbytes (Utf8.encodeChar_ne_nil x)
        | cons first others =>
            rw [Utf8.encode_cons, hbytes, List.cons_append, List.map_cons] at ht
            obtain ⟨rfl, -⟩ := List.cons.inj ht
            have hfirst : 0x80 ≤ first.toNat := by
              have := Utf8.head_encodeChar hbytes
              omega
            have hlast : first.toNat < 256 := first.toNat_lt
            have hnone := hexByte?_spacedByte_beyond (first.toNat - 0x80) (by omega)
            rw [Nat.add_sub_cancel' hfirst, UInt8.ofNat_toNat] at hnone
            exact nomatch hnone.symm.trans hb

theorem decode_percent_of_no_digits {bs : Bytes}
    (hno : ∀ a b h l rest, bs = a :: b :: rest → hexByte? a = some h → hexByte? b ≠ some l) :
    decode (0x25 :: bs) = 0x25 :: decode bs := by
  rw [decode.eq_def]
  dsimp only
  split
  · next heq =>
      cases heq
      split
      · next ha hb => exact absurd hb (hno _ _ _ _ _ rfl ha)
      · rfl
  · rfl

theorem map_spacedByte_encodeChar (c : Char) :
    (Utf8.encodeChar c).map spacedByte = unit c := by
  by_cases hc : c = '+'
  · rw [hc]
    rfl
  · have hself : ∀ b ∈ Utf8.encodeChar c, spacedByte b = b := fun b hb => by
      refine if_neg fun hplus => hc (Char.toNat_inj.1 ?_)
      rw [eq_of_beq hplus] at hb
      rcases Utf8.toNat_of_mem_encodeChar hb with h | h
      · exact h.symm
      · exact absurd h (by decide)
    rw [unit_of_ne hc, List.map_congr_left hself, List.map_id']

theorem percent_not_mem_unit (hc : c ≠ '%') : 0x25 ∉ unit c := by
  unfold unit
  split
  · decide
  · exact percent_not_mem_encodeChar hc

theorem isAscii_of_digit (hx : Hex.value? x = some h) : x.toNat < 0x80 := by
  unfold Hex.value? at hx
  simp only [Char.le_def, UInt32.le_iff_toNat_le] at hx
  change x.val.toNat < 0x80
  grind

theorem hexByte?_of_digit (hx : Hex.value? x = some h) :
    hexByte? (spacedByte (UInt8.ofNat x.toNat)) = some h := by
  rw [hexByte?_spacedByte _ (isAscii_of_digit hx), Char.ofNat_toNat, hx]

theorem decode_spaced (t : Text) :
    decode ((Utf8.encode t).map spacedByte) = (units t).flatten := by
  induction t using escape_induction with
  | nil => rfl
  | escape x y h l t hx hy ih =>
      have hbytes : (Utf8.encode ('%' :: x :: y :: t)).map spacedByte =
          0x25 :: spacedByte (UInt8.ofNat x.toNat) :: spacedByte (UInt8.ofNat y.toNat) ::
            (Utf8.encode t).map spacedByte := by
        simp only [Utf8.encode_cons, Utf8.encodeChar_of_ascii (isAscii_of_digit hx),
          Utf8.encodeChar_of_ascii (isAscii_of_digit hy), List.map_append]
        rfl
      rw [units_of_escape hx hy, hbytes, decode.eq_def]
      simp only [beq_self_eq_true, hexByte?_of_digit hx, hexByte?_of_digit hy, ih]
      rfl
  | char c t hc ih =>
      rw [units_of_not_escape hc, List.flatten_cons, ← ih, Utf8.encode_cons, List.map_append,
        map_spacedByte_encodeChar]
      by_cases hpercent : c = '%'
      · subst hpercent
        refine decode_percent_of_no_digits fun a b h l rest heq ha hb => ?_
        obtain ⟨x, t', rfl, hx, hrest⟩ := exists_digit_of_hexByte? heq ha
        obtain ⟨y, t'', rfl, hy, -⟩ := exists_digit_of_hexByte? hrest.symm hb
        simp [startsEscape, hx, hy] at hc
      · exact decode_append_of_not_mem (percent_not_mem_unit hpercent) _

theorem decodeComponent_eq (t : Text) :
    decodeComponent t = Utf8.decodeLossy (units t).flatten := by
  rw [← decode_spaced]
  rfl

end Decoding

structure Keeps (escape : Char → Bool) : Prop where
  percent : leaves escape '%'
  plus : leaves escape '+'
  ampersand : leaves escape '&'
  equals : leaves escape '='
  digits : ∀ c h, Hex.value? c = some h → leaves escape c

theorem units_encodeByte (b : UInt8) (u : Text) : units (encodeByte b ++ u) = [b] :: units u := by
  have hb : b.toNat < 256 := b.toNat_lt
  have hhigh := Hex.value?_upperDigit (n := b.toNat / 16) (by omega)
  have hlow := Hex.value?_upperDigit (n := b.toNat % 16) (by omega)
  have hunits := units_of_escape hhigh hlow u
  rw [Nat.div_add_mod, UInt8.ofNat_toNat] at hunits
  exact hunits

theorem flatten_units_encodeBytes (bs : Bytes) (u : Text) :
    (units (bs.flatMap encodeByte ++ u)).flatten = bs ++ (units u).flatten := by
  induction bs with
  | nil => rfl
  | cons b bs ih =>
      rw [List.flatMap_cons, List.append_assoc, units_encodeByte, List.flatten_cons, ih]
      rfl

theorem ne_percent_of_digit (hx : Hex.value? x = some h) : x ≠ '%' := by
  rintro rfl
  cases hx

theorem startsEscape_encode (hkeeps : Keeps escape) (c : Char) (t : Text) :
    startsEscape (c :: encode escape t) = startsEscape (c :: t) := by
  rw [Bool.eq_iff_iff, startsEscape_iff, startsEscape_iff]
  constructor
  · rintro ⟨x, y, h, l, rest, heq, hx, hy⟩
    obtain ⟨rfl, hencode⟩ := List.cons.inj heq
    obtain ⟨t₁, rfl, hfirst⟩ :=
      (encode_eq_cons_iff (hkeeps.digits x h hx) (ne_percent_of_digit hx)).1 hencode
    obtain ⟨t₂, rfl, -⟩ :=
      (encode_eq_cons_iff (hkeeps.digits y l hy) (ne_percent_of_digit hy)).1 hfirst
    exact ⟨x, y, h, l, t₂, rfl, hx, hy⟩
  · rintro ⟨x, y, h, l, rest, heq, hx, hy⟩
    obtain ⟨rfl, rfl⟩ := List.cons.inj heq
    refine ⟨x, y, h, l, encode escape rest, ?_, hx, hy⟩
    rw [encode_cons_of_leaves (hkeeps.digits x h hx),
      encode_cons_of_leaves (hkeeps.digits y l hy)]

theorem flatten_units_encode (hkeeps : Keeps escape) (t : Text) :
    (units (encode escape t)).flatten = (units t).flatten := by
  induction t using escape_induction with
  | nil => rfl
  | escape x y h l t hx hy ih =>
      rw [encode_cons_of_leaves hkeeps.percent, encode_cons_of_leaves (hkeeps.digits x h hx),
        encode_cons_of_leaves (hkeeps.digits y l hy), units_of_escape hx hy,
        units_of_escape hx hy, List.flatten_cons, List.flatten_cons, ih]
  | char c t hc ih =>
      rw [units_of_not_escape hc, List.flatten_cons, ← ih]
      cases hleaves : leaves escape c with
      | true =>
          rw [encode_cons_of_leaves hleaves,
            units_of_not_escape ((startsEscape_encode hkeeps c t).trans hc)]
          rfl
      | false =>
          have hplus : c ≠ '+' := by
            rintro rfl
            exact absurd hkeeps.plus (by simp [hleaves])
          rw [encode_cons, encode_singleton_of_not_leaves hleaves, flatten_units_encodeBytes,
            unit_of_ne hplus]

theorem decodeComponent_encode (hkeeps : Keeps escape) (t : Text) :
    decodeComponent (encode escape t) = decodeComponent t := by
  rw [decodeComponent_eq, decodeComponent_eq, flatten_units_encode hkeeps]

theorem keeps_querySet (special : Bool) : Keeps (Url.querySet special) where
  percent := by cases special <;> decide
  plus := by cases special <;> decide
  ampersand := by cases special <;> decide
  equals := by cases special <;> decide
  digits c h hc := by
    have hall : ∀ n < 0x80, (Hex.value? (Char.ofNat n)).isSome →
        leaves (Url.querySet special) (Char.ofNat n) := by cases special <;> decide
    have hdigit := hall c.toNat (isAscii_of_digit hc)
    rw [Char.ofNat_toNat, hc] at hdigit
    exact hdigit rfl

theorem decodeComponent_of_no_escape (ht : holdsEscape t = false) :
    decodeComponent t = t.map spaced := by
  rw [decodeComponent_eq, flatten_units_of_no_escape ht, Utf8.decodeLossy_encode]

theorem spaced_eq_self_iff : spaced c = c ↔ c ≠ '+' := by
  constructor
  · rintro h rfl
    cases h
  · exact fun hc => if_neg hc

theorem map_spaced_eq_self_iff : t.map spaced = t ↔ '+' ∉ t := by
  induction t with
  | nil => simp
  | cons c t ih =>
      rw [List.map_cons, List.cons.injEq, spaced_eq_self_iff, ih, List.mem_cons, not_or, ne_comm]

theorem length_decodeComponent (t : Text) : (decodeComponent t).length ≤ t.length ∧
    (holdsEscape t → (decodeComponent t).length < t.length) := by
  have hunits := Utf8.length_decodeLossy_flatten_le (isUnit_of_mem_units t)
  have hlength := length_units t
  rw [decodeComponent_eq]
  exact ⟨Nat.le_trans hunits hlength.1, fun h => Nat.lt_of_le_of_lt hunits (hlength.2 h)⟩

theorem decodeComponent_eq_self_iff : decodeComponent t = t ↔ holdsEscape t = false ∧ '+' ∉ t := by
  cases hescape : holdsEscape t with
  | false => simp [decodeComponent_of_no_escape hescape, map_spaced_eq_self_iff]
  | true =>
      have hshorter := (length_decodeComponent t).2 hescape
      have hne : decodeComponent t ≠ t := fun h => Nat.lt_irrefl _ (h ▸ hshorter)
      simp [hne]

end Form

end NetBoot
