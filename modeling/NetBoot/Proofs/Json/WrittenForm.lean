import NetBoot.Proofs.Json.Generic
import NetBoot.Proofs.Json.Scalars

namespace NetBoot.Json

open Utf8

mutual

def Tree.Written : Nat → Tree → Prop
  | _, .null => True
  | _, .bool _ => True
  | _, .natural n => n < Nat.pow 2 64
  | _, .text _ => True
  | depth, .array items =>
      match depth with
      | 0 => False
      | d + 1 => items.Written d
  | depth, .object members =>
      match depth with
      | 0 => False
      | d + 1 => members.Written d
  | _, _ => False

def Items.Written : Nat → Items → Prop
  | _, .close => True
  | _, .fault _ => False
  | d, .item v rest => v.Written d ∧ rest.Written d

def Members.Written : Nat → Members → Prop
  | _, .close => True
  | _, .fault .. => False
  | d, .member key v rest => key.isSome ∧ v.Written d ∧ rest.Written d

end

theorem depth_of_written_array {depth : Nat} {items : Items}
    (h : (Tree.array items).Written depth) :
    ∃ d, depth = d + 1 ∧ items.Written d := by
  cases depth with
  | zero => exact h.elim
  | succ d => exact ⟨d, rfl, h⟩

theorem depth_of_written_object {depth : Nat} {members : Members}
    (h : (Tree.object members).Written depth) : ∃ d, depth = d + 1 ∧ members.Written d := by
  cases depth with
  | zero => exact h.elim
  | succ d => exact ⟨d, rfl, h⟩

mutual

theorem Tree.generic_of_written {depth : Nat} {v : Tree} (h : v.Written depth) :
    ∃ v', v.generic depth = .ok v' := by
  match v with
  | .null | .bool _ | .natural _ | .text _ => exact ⟨_, by rw [Tree.generic]⟩
  | .array items =>
      obtain ⟨d, rfl, hitems⟩ := depth_of_written_array h
      obtain ⟨items', heq⟩ := Items.generic_of_written hitems
      exact ⟨.array items', Except.map_eq_ok.2 ⟨items', heq, rfl⟩⟩
  | .object members =>
      obtain ⟨d, rfl, hmembers⟩ := depth_of_written_object h
      obtain ⟨members', heq⟩ := Members.generic_of_written hmembers
      exact ⟨.object members', Except.map_eq_ok.2 ⟨members', heq, rfl⟩⟩

theorem Items.generic_of_written {d : Nat} {items : Items} (h : items.Written d) :
    ∃ items', items.generic d = .ok items' := by
  match items with
  | .close => exact ⟨.close, rfl⟩
  | .item v rest =>
      obtain ⟨v', hv⟩ := Tree.generic_of_written h.1
      obtain ⟨rest', hrest⟩ := Items.generic_of_written h.2
      exact ⟨.item v' rest', by rw [Items.generic, hv, hrest]; rfl⟩

theorem Members.generic_of_written {d : Nat} {members : Members} (h : members.Written d) :
    ∃ members', members.generic d = .ok members' := by
  match members with
  | .close => exact ⟨.close, rfl⟩
  | .member none _ _ => exact nomatch h.1
  | .member (some k) v rest =>
      obtain ⟨v', hv⟩ := Tree.generic_of_written h.2.1
      obtain ⟨rest', hrest⟩ := Members.generic_of_written h.2.2
      exact ⟨if some k ∈ rest'.keys then rest' else .member (some k) v' rest',
        by rw [Members.generic, hv, hrest]; rfl⟩

end

theorem skipBlanks_cons {b : UInt8} (h : isBlank b = false) (bs : Bytes) :
    skipBlanks (b :: bs) = b :: bs := by
  simp [skipBlanks, h]

theorem exists_of_isDigit {b : UInt8} (h : isDigit b) : ∃ d < 10, b = UInt8.ofNat (0x30 + d) := by
  simp only [isDigit, UInt8.le_iff_toNat_le, Bool.and_eq_true, decide_eq_true_eq] at h
  have hlow : 0x30 ≤ b.toNat := h.1
  have hhigh : b.toNat ≤ 0x39 := h.2
  refine ⟨b.toNat - 0x30, by omega, ?_⟩
  apply UInt8.toNat_inj.1
  rw [toNat_ofNat_of_lt (by omega)]
  omega

theorem isBlank_of_isDigit {b : UInt8} (h : isDigit b) : isBlank b = false ∧ b ≠ 0x5D := by
  have hall : ∀ d < 10, isBlank (UInt8.ofNat (0x30 + d)) = false ∧
    UInt8.ofNat (0x30 + d) ≠ 0x5D := by decide
  obtain ⟨d, hd, rfl⟩ := exists_of_isDigit h
  exact hall d hd

theorem readValue_digit (fuel : Nat) {b : UInt8} (h : isDigit b) (bs : Bytes) :
    readValue (fuel + 1) (b :: bs) = readNumber false (b :: bs) := by
  have hall : ∀ d < 10, UInt8.ofNat (0x30 + d) ≠ 0x6E ∧ UInt8.ofNat (0x30 + d) ≠ 0x74 ∧
    UInt8.ofNat (0x30 + d) ≠ 0x66 ∧ UInt8.ofNat (0x30 + d) ≠ 0x22 ∧
    UInt8.ofNat (0x30 + d) ≠ 0x2D := by decide
  have hblank := (isBlank_of_isDigit h).1
  obtain ⟨d, hd, rfl⟩ := exists_of_isDigit h
  obtain ⟨hnull, htrue, hfalse, hquote, hminus⟩ := hall d hd
  simp only [readValue, skipBlanks_cons hblank, if_neg hnull, if_neg htrue, if_neg hfalse,
    if_neg hquote, if_neg hminus, if_pos h]

theorem readValue_array {fuel : Nat} {bs rest : Bytes} {items : Items}
    (h : readItems fuel true bs = (items, rest)) :
    readValue (fuel + 1) (0x5B :: bs) = (.array items, rest) := by
  change (Tree.array (readItems fuel true bs).1, (readItems fuel true bs).2) = _
  rw [h]

theorem readValue_object {fuel : Nat} {bs rest : Bytes} {members : Members}
    (h : readMembers fuel true bs = (members, rest)) :
    readValue (fuel + 1) (0x7B :: bs) = (.object members, rest) := by
  change (Tree.object (readMembers fuel true bs).1, (readMembers fuel true bs).2) = _
  rw [h]

theorem readItems_close (fuel : Nat) (first : Bool) (bs : Bytes) :
    readItems (fuel + 1) first (0x5D :: bs) = (.close, bs) := rfl

theorem readItems_first {fuel : Nat} {b : UInt8} {bs middle rest : Bytes} {v : Tree} {items : Items}
    (hb : isBlank b = false ∧ b ≠ 0x5D) (hv : readValue fuel (b :: bs) = (v, middle))
    (hitems : readItems fuel false middle = (items, rest)) :
    readItems (fuel + 1) true (b :: bs) = (.item v items, rest) := by
  simp only [readItems, skipBlanks_cons hb.1, if_neg hb.2, if_true, hv, hitems]

theorem readItems_next {fuel : Nat} {bs middle rest : Bytes} {v : Tree} {items : Items}
    (hv : readValue fuel bs = (v, middle)) (hitems : readItems fuel false middle = (items, rest)) :
    readItems (fuel + 1) false (0x2C :: bs) = (.item v items, rest) := by
  change (Items.item (readValue fuel bs).1 (readItems fuel false (readValue fuel bs).2).1,
    (readItems fuel false (readValue fuel bs).2).2) = _
  simp only [hv, hitems]

theorem readMembers_close (fuel : Nat) (first : Bool) (bs : Bytes) :
    readMembers (fuel + 1) first (0x7D :: bs) = (.close, bs) := rfl

theorem readMembers_first (fuel : Nat) (bs : Bytes) :
    readMembers (fuel + 1) true (0x22 :: bs) = readMember fuel (0x22 :: bs) := rfl

theorem readMembers_next (fuel : Nat) (bs : Bytes) :
    readMembers (fuel + 1) false (0x2C :: 0x22 :: bs) = readMember fuel (0x22 :: bs) := rfl

theorem readMember_eq {fuel : Nat} {bs value middle rest : Bytes} {key : Text} {v : Tree}
    {members : Members} (hkey : readString bs = (.text key, 0x3A :: value))
    (hv : readValue fuel value = (v, middle))
    (hmembers : readMembers fuel false middle = (members, rest)) :
    readMember (fuel + 1) (0x22 :: bs) = (.member (some key) v members, rest) := by
  have hcolon : skipBlanks (0x3A :: value) = 0x3A :: value := skipBlanks_cons rfl value
  simp only [readMember, if_true, hkey, hcolon, hv, hmembers]
  rfl

theorem encode_cons_of_ascii {c : Char} (h : c.toNat < 0x80) (t : Text) :
    encode (c :: t) = UInt8.ofNat c.toNat :: encode t := by
  rw [encode_cons, encodeChar_of_ascii h, List.singleton_append]

theorem head_digits_byte (n : Nat) : ∃ b bs, encode (Text.digits n) = b :: bs ∧ isDigit b := by
  cases hbytes : encode (Text.digits n) with
  | nil =>
      have hne : Text.digits n ≠ [] := List.ne_nil_of_length_pos Nat.length_toDigits_pos
      cases hdigits : Text.digits n with
      | nil => exact absurd hdigits hne
      | cons c t =>
          rw [hdigits, encode_cons] at hbytes
          exact absurd (List.append_eq_nil_iff.1 hbytes).1 (encodeChar_ne_nil c)
  | cons b bs => exact ⟨b, bs, rfl, isDigit_of_mem_digits (n := n) (by rw [hbytes]; exact .head _)⟩

theorem head_render {depth : Nat} {v : Tree} (h : v.Written depth) :
    ∃ b bs, encode v.render = b :: bs ∧ isBlank b = false ∧ b ≠ 0x5D := by
  have hascii : ∀ {c : Char} {t : Text}, c.toNat < 0x80 → isBlank (UInt8.ofNat c.toNat) = false →
      UInt8.ofNat c.toNat ≠ 0x5D → v.render = c :: t →
      ∃ b bs, encode v.render = b :: bs ∧ isBlank b = false ∧ b ≠ 0x5D := by
    intro c t hc hblank hclose heq
    exact ⟨_, _, heq ▸ encode_cons_of_ascii hc t, hblank, hclose⟩
  match v with
  | .null => exact hascii (by decide) (by decide) (by decide) rfl
  | .bool true => exact hascii (by decide) (by decide) (by decide) rfl
  | .bool false => exact hascii (by decide) (by decide) (by decide) rfl
  | .natural n =>
      obtain ⟨b, bs, heq, hb⟩ := head_digits_byte n
      exact ⟨b, bs, heq, isBlank_of_isDigit hb⟩
  | .text t => exact hascii (by decide) (by decide) (by decide) rfl
  | .array .close => exact hascii (by decide) (by decide) (by decide) rfl
  | .array (.item ..) => exact hascii (by decide) (by decide) (by decide) rfl
  | .object .close => exact hascii (by decide) (by decide) (by decide) rfl
  | .object (.member ..) => exact hascii (by decide) (by decide) (by decide) rfl
  | .array (.fault _) =>
      obtain ⟨d, -, hitems⟩ := depth_of_written_array h
      exact hitems.elim
  | .object (.fault ..) =>
      obtain ⟨d, -, hmembers⟩ := depth_of_written_object h
      exact hmembers.elim

theorem length_render_pos {depth : Nat} {v : Tree} (h : v.Written depth) :
    0 < v.render.length := by
  obtain ⟨b, bs, heq, -⟩ := head_render h
  refine List.length_pos_iff.2 ?_
  intro hnil
  rw [hnil] at heq
  exact nomatch heq

theorem items_renderRest {d : Nat} {items : Items} (h : items.Written d) (rest : Bytes) :
    EndsNumber (encode items.renderRest ++ rest) ∧ 0 < items.renderRest.length := by
  match items with
  | .close => exact ⟨by rintro b ⟨⟩; decide, by decide⟩
  | .item .. => exact ⟨by rintro b ⟨⟩; decide, Nat.succ_pos _⟩

theorem members_renderRest {d : Nat} {members : Members} (h : members.Written d) (rest : Bytes) :
    EndsNumber (encode members.renderRest ++ rest) ∧ 0 < members.renderRest.length := by
  match members with
  | .close => exact ⟨by rintro b ⟨⟩; decide, by decide⟩
  | .member .. => exact ⟨by rintro b ⟨⟩; decide, Nat.succ_pos _⟩

theorem encode_member (k : Text) (v : Tree) (members : Members) (rest : Bytes) :
    encode (writeText k ++ ':' :: v.render ++ members.renderRest) ++ rest =
      0x22 :: (encode (k.flatMap escapeChar ++ ['"']) ++
        0x3A :: (encode v.render ++ (encode members.renderRest ++ rest))) := by
  have hquote : encode (writeText k) = 0x22 :: encode (k.flatMap escapeChar ++ ['"']) := rfl
  have hcolon : ∀ t, encode (':' :: t) = 0x3A :: encode t := fun t => rfl
  simp only [encode_append, hquote, hcolon, List.cons_append, List.append_assoc]

mutual

theorem Tree.readValue_render {depth : Nat} {v : Tree} (h : v.Written depth) (fuel : Nat)
    (hfuel : v.render.length ≤ fuel) {rest : Bytes} (hrest : EndsNumber rest) :
    readValue fuel (encode v.render ++ rest) = (v, rest) := by
  obtain ⟨fuel, rfl⟩ : ∃ f, fuel = f + 1 :=
    Nat.exists_eq_succ_of_ne_zero (Nat.ne_of_gt (Nat.lt_of_lt_of_le (length_render_pos h) hfuel))
  match v with
  | .null | .bool true | .bool false => rfl
  | .natural n =>
      obtain ⟨b, bs, heq, hb⟩ := head_digits_byte n
      rw [Tree.render, ← readNumber_digits h hrest, heq]
      exact readValue_digit fuel hb (bs ++ rest)
  | .text t => exact readString_writeText t rest
  | .array .close =>
      rw [Tree.render] at hfuel
      obtain ⟨fuel, rfl⟩ : ∃ f, fuel = f + 1 := Nat.exists_eq_succ_of_ne_zero (by grind)
      exact readValue_array (readItems_close fuel true rest)
  | .array (.item w items) =>
      obtain ⟨d, -, hw, hitems⟩ := depth_of_written_array h
      have hwpos := length_render_pos hw
      obtain ⟨hends, hpos⟩ := items_renderRest hitems rest
      rw [Tree.render, List.length_append, List.length_cons] at hfuel
      obtain ⟨fuel, rfl⟩ : ∃ f, fuel = f + 1 := Nat.exists_eq_succ_of_ne_zero (by omega)
      have hvalue := Tree.readValue_render hw fuel (by omega) hends
      have hothers := Items.readItems_renderRest hitems fuel (by omega) rest
      obtain ⟨b, bs, heq, hb⟩ := head_render hw
      have hbytes : encode (Tree.array (.item w items)).render ++ rest =
          0x5B :: (encode w.render ++ (encode items.renderRest ++ rest)) := by
        rw [Tree.render, encode_append, encode_cons_of_ascii (by decide), List.append_assoc]
        rfl
      rw [hbytes]
      rw [heq] at hvalue ⊢
      exact readValue_array (readItems_first hb hvalue hothers)
  | .array (.fault _) =>
      obtain ⟨d, -, hitems⟩ := depth_of_written_array h
      exact hitems.elim
  | .object .close =>
      rw [Tree.render] at hfuel
      obtain ⟨fuel, rfl⟩ : ∃ f, fuel = f + 1 := Nat.exists_eq_succ_of_ne_zero (by grind)
      exact readValue_object (readMembers_close fuel true rest)
  | .object (.fault ..) =>
      obtain ⟨d, -, hmembers⟩ := depth_of_written_object h
      exact hmembers.elim
  | .object (.member none w members) =>
      obtain ⟨d, -, hkey, -⟩ := depth_of_written_object h
      exact nomatch hkey
  | .object (.member (some k) w members) =>
      obtain ⟨d, -, -, hw, hmembers⟩ := depth_of_written_object h
      obtain ⟨hends, hpos⟩ := members_renderRest hmembers rest
      simp only [Tree.render, List.length_append, List.length_cons, writeText] at hfuel
      obtain ⟨fuel, rfl⟩ : ∃ f, fuel = f + 2 := ⟨fuel - 2, by omega⟩
      have hvalue := Tree.readValue_render hw fuel (by omega) hends
      have hothers := Members.readMembers_renderRest hmembers fuel (by omega) rest
      have hbytes : encode (Tree.object (.member (some k) w members)).render ++ rest =
          0x7B :: (encode (writeText k ++ ':' :: w.render ++ members.renderRest) ++ rest) := by
        rw [Tree.render]
        rfl
      rw [hbytes, encode_member]
      apply readValue_object
      rw [readMembers_first]
      exact readMember_eq (readString_writeText k _) hvalue hothers

theorem Items.readItems_renderRest {d : Nat} {items : Items} (h : items.Written d) (fuel : Nat)
    (hfuel : items.renderRest.length ≤ fuel) (rest : Bytes) :
    readItems fuel false (encode items.renderRest ++ rest) = (items, rest) := by
  obtain ⟨fuel, rfl⟩ : ∃ f, fuel = f + 1 := Nat.exists_eq_succ_of_ne_zero
    (Nat.ne_of_gt (Nat.lt_of_lt_of_le (items_renderRest h rest).2 hfuel))
  match items with
  | .close => exact readItems_close fuel false rest
  | .item w items =>
      obtain ⟨hw, hitems⟩ := h
      have hwpos := length_render_pos hw
      obtain ⟨hends, hpos⟩ := items_renderRest hitems rest
      rw [Items.renderRest, List.length_append, List.length_cons] at hfuel
      have hvalue := Tree.readValue_render hw fuel (by omega) hends
      have hothers := Items.readItems_renderRest hitems fuel (by omega) rest
      have hbytes : encode (Items.item w items).renderRest ++ rest =
          0x2C :: (encode w.render ++ (encode items.renderRest ++ rest)) := by
        rw [Items.renderRest, encode_append, encode_cons_of_ascii (by decide), List.append_assoc]
        rfl
      rw [hbytes]
      exact readItems_next hvalue hothers

theorem Members.readMembers_renderRest {d : Nat} {members : Members} (h : members.Written d)
    (fuel : Nat) (hfuel : members.renderRest.length ≤ fuel) (rest : Bytes) :
    readMembers fuel false (encode members.renderRest ++ rest) = (members, rest) := by
  obtain ⟨fuel, rfl⟩ : ∃ f, fuel = f + 1 := Nat.exists_eq_succ_of_ne_zero
    (Nat.ne_of_gt (Nat.lt_of_lt_of_le (members_renderRest h rest).2 hfuel))
  match members with
  | .close => exact readMembers_close fuel false rest
  | .member none w members => exact nomatch h.1
  | .member (some k) w members =>
      obtain ⟨-, hw, hmembers⟩ := h
      obtain ⟨hends, hpos⟩ := members_renderRest hmembers rest
      simp only [Members.renderRest, List.length_append, List.length_cons, writeText] at hfuel
      obtain ⟨fuel, rfl⟩ : ∃ f, fuel = f + 1 := ⟨fuel - 1, by omega⟩
      have hvalue := Tree.readValue_render hw fuel (by omega) hends
      have hothers := Members.readMembers_renderRest hmembers fuel (by omega) rest
      have hbytes : encode (Members.member (some k) w members).renderRest ++ rest =
          0x2C :: (encode (writeText k ++ ':' :: w.render ++ members.renderRest) ++ rest) := by
        rw [Members.renderRest]
        rfl
      rw [hbytes, encode_member, readMembers_next]
      exact readMember_eq (readString_writeText k _) hvalue hothers

end

theorem length_le_length_encode (t : Text) : t.length ≤ (encode t).length := by
  induction t with
  | nil => exact Nat.le_refl _
  | cons c t ih =>
      have hpos := List.length_pos_iff.2 (encodeChar_ne_nil c)
      rw [encode_cons, List.length_append, List.length_cons]
      omega

theorem parse_render {depth : Nat} {v : Tree} (h : v.Written depth) :
    parse (encode v.render) = ⟨v, false⟩ := by
  have hlength := length_le_length_encode v.render
  have hend : EndsNumber [] := nofun
  have hread := Tree.readValue_render h (3 * (encode v.render).length + 3) (by omega) hend
  rw [List.append_nil] at hread
  rw [parse, hread]
  rfl

end NetBoot.Json
