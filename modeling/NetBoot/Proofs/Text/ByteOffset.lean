import NetBoot.Proofs.Text.Utf8

namespace NetBoot

namespace Utf8

variable {c : Char}

def width (c : Char) : Nat := (encodeChar c).length

theorem width_pos (c : Char) : 0 < width c := List.length_pos_iff.2 (encodeChar_ne_nil c)

theorem width_of_ascii (h : c.toNat < 0x80) : width c = 1 := by
  rw [width, encodeChar_of_ascii h]
  rfl

theorem one_lt_width (h : 0x80 ≤ c.toNat) : 1 < width c := by
  rw [width, encodeChar]
  grind

end Utf8

namespace Text

variable {t : Text} {c : Char} {n : Nat}

def byteLength (t : Text) : Nat := (Utf8.encode t).length

def dropBytes? : Nat → Text → Option Text
  | 0, t => some t
  | _ + 1, [] => none
  | n + 1, c :: t => if Utf8.width c ≤ n + 1 then dropBytes? (n + 1 - Utf8.width c) t else none

def takeBytes? : Nat → Text → Option Text
  | 0, _ => some []
  | _ + 1, [] => none
  | n + 1, c :: t =>
      if Utf8.width c ≤ n + 1 then (takeBytes? (n + 1 - Utf8.width c) t).map (c :: ·) else none

def slice? (start stop : Nat) (t : Text) : Option Text :=
  if start ≤ stop then (dropBytes? start t).bind (takeBytes? (stop - start)) else none

theorem byteLength_append (t u : Text) : byteLength (t ++ u) = byteLength t + byteLength u := by
  rw [byteLength, Utf8.encode_append, List.length_append]
  rfl

theorem byteLength_singleton (c : Char) : byteLength [c] = Utf8.width c := by
  simp [byteLength, Utf8.encode, Utf8.width]

theorem byteLength_cons (c : Char) (t : Text) :
    byteLength (c :: t) = Utf8.width c + byteLength t := by
  rw [← byteLength_singleton, ← byteLength_append]
  rfl

theorem dropBytes?_cons (n : Nat) (c : Char) (t : Text) :
    dropBytes? (Utf8.width c + n) (c :: t) = dropBytes? n t := by
  obtain ⟨m, hm⟩ := Nat.exists_eq_add_one.2 (Utf8.width_pos c)
  have hsum : Utf8.width c + n = m + n + 1 := by omega
  have hrest : m + n + 1 - Utf8.width c = n := by omega
  rw [hsum, dropBytes?, if_pos (by omega), hrest]

theorem takeBytes?_cons (n : Nat) (c : Char) (t : Text) :
    takeBytes? (Utf8.width c + n) (c :: t) = (takeBytes? n t).map (c :: ·) := by
  obtain ⟨m, hm⟩ := Nat.exists_eq_add_one.2 (Utf8.width_pos c)
  have hsum : Utf8.width c + n = m + n + 1 := by omega
  have hrest : m + n + 1 - Utf8.width c = n := by omega
  rw [hsum, takeBytes?, if_pos (by omega), hrest]

theorem dropBytes?_append (a t : Text) (n : Nat) :
    dropBytes? (byteLength a + n) (a ++ t) = dropBytes? n t := by
  induction a with
  | nil => rw [byteLength, Utf8.encode_nil, List.length_nil, Nat.zero_add, List.nil_append]
  | cons c a ih => rw [List.cons_append, byteLength_cons, Nat.add_assoc, dropBytes?_cons, ih]

theorem takeBytes?_append (a t : Text) : takeBytes? (byteLength a) (a ++ t) = some a := by
  induction a with
  | nil => cases t <;> rfl
  | cons c a ih =>
      rw [List.cons_append, byteLength_cons, takeBytes?_cons, ih]
      rfl

theorem dropBytes?_byteLength (a t : Text) : dropBytes? (byteLength a) (a ++ t) = some t := by
  have h := dropBytes?_append a t 0
  cases t <;> exact h

theorem slice?_append (before piece after : Text) :
    slice? (byteLength before) (byteLength (before ++ piece)) (before ++ piece ++ after) =
      some piece := by
  rw [slice?, byteLength_append, if_pos (Nat.le_add_right _ _), List.append_assoc,
    dropBytes?_byteLength, Nat.add_sub_cancel_left]
  exact takeBytes?_append piece after

theorem dropBytes?_inside (before after : Text) (hpos : 0 < n) (h : n < Utf8.width c) :
    dropBytes? (byteLength before + n) (before ++ c :: after) = none := by
  obtain ⟨m, rfl⟩ := Nat.exists_eq_succ_of_ne_zero (Nat.pos_iff_ne_zero.1 hpos)
  rw [dropBytes?_append, dropBytes?, if_neg (by omega)]

theorem slice?_of_dropBytes? {start : Nat} (h : dropBytes? start t = none) (stop : Nat) :
    slice? start stop t = none := by
  rw [slice?, h]
  split <;> rfl

end Text

end NetBoot
