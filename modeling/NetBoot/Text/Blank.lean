import NetBoot.Text.Basic

namespace NetBoot.Text

def isBlank (c : Char) : Bool :=
  let n := c.toNat
  (0x9 ≤ n && n ≤ 0xD) || n == 0x20 || n == 0x85 || n == 0xA0 || n == 0x1680 ||
    (0x2000 ≤ n && n ≤ 0x200A) || n == 0x2028 || n == 0x2029 || n == 0x202F ||
    n == 0x205F || n == 0x3000

def trim (t : Text) : Text := trimWith isBlank t

def IsTrimmed (t : Text) : Prop :=
  (∀ c ∈ t.head?, isBlank c = false) ∧ ∀ c ∈ t.getLast?, isBlank c = false

instance (t : Text) : Decidable (IsTrimmed t) :=
  decidable_of_iff ((t.head?.any isBlank || t.getLast?.any isBlank) = false) <| by
    cases hhead : t.head? <;> cases hlast : t.getLast? <;> simp [IsTrimmed, hhead, hlast]

theorem dropWhile_eq_self {p : Char → Bool} {t : Text} (h : ∀ c ∈ t.head?, p c = false) :
    t.dropWhile p = t := by
  cases t with
  | nil => rfl
  | cons x xs => simp [List.dropWhile, h x (by simp)]

theorem trim_eq_self {t : Text} (h : IsTrimmed t) : trim t = t := by
  have hl : t.dropWhile isBlank = t := dropWhile_eq_self h.1
  have hr : t.reverse.dropWhile isBlank = t.reverse :=
    dropWhile_eq_self (by simpa [List.head?_reverse] using h.2)
  simp [trim, trimWith, dropEndWhile, hl, hr]

theorem IsTrimmed.append_cons {a b : Text} {c : Char} (ha : IsTrimmed a) (hne : a ≠ [])
    (hc : isBlank c = false) (hb : ∀ d ∈ b.getLast?, isBlank d = false) :
    IsTrimmed (a ++ c :: b) := by
  constructor
  · intro d hd
    cases a with
    | nil => exact absurd rfl hne
    | cons x rest => exact ha.1 d hd
  · intro d hd
    rw [List.getLast?_append, List.getLast?_cons, Option.some_or, Option.mem_some_iff] at hd
    cases hlast : b.getLast? with
    | none =>
        rw [hlast, Option.getD_none] at hd
        exact hd ▸ hc
    | some last =>
        rw [hlast, Option.getD_some] at hd
        exact hd ▸ hb last hlast

theorem trim_append_cons {c : Char} (hc : isBlank c = false) (a b : Text) :
    trim (a ++ c :: b) = a.dropWhile isBlank ++ c :: dropEndWhile isBlank b := by
  rw [trim, trimWith, dropWhile_append_cons hc, dropEndWhile_append_cons hc]

theorem trimWith_eq_self {p : Char → Bool} {t : Text} (h : ∀ c ∈ t, p c = false) :
    trimWith p t = t := by
  have hfront : t.dropWhile p = t := dropWhile_eq_self fun c hc => h c (List.mem_of_mem_head? hc)
  have hback : t.reverse.dropWhile p = t.reverse :=
    dropWhile_eq_self fun c hc => h c (List.mem_reverse.1 (List.mem_of_mem_head? hc))
  rw [trimWith, hfront, dropEndWhile, hback, List.reverse_reverse]

theorem trimWith_surrounded {p : Char → Bool} {before after : Text} (hbefore : ∀ c ∈ before, p c)
    (hafter : ∀ c ∈ after, p c) (t : Text) : trimWith p (before ++ t ++ after) = trimWith p t := by
  rw [trimWith, List.append_assoc, List.dropWhile_append_of_pos hbefore]
  by_cases ht : ∃ c ∈ t, p c = false
  · obtain ⟨c, hc, hkept⟩ := ht
    obtain ⟨front, rest, rfl⟩ := List.append_of_mem hc
    rw [List.append_assoc, List.cons_append, dropWhile_append_cons hkept, ← List.cons_append,
      ← List.append_assoc, dropEndWhile_append_of_pos hafter, ← dropWhile_append_cons hkept]
    rfl
  · have hall : ∀ c ∈ t, p c := by simpa using ht
    have hnone (s : Text) (h : ∀ c ∈ s, p c) : s.dropWhile p = [] := by
      rw [← List.append_nil s, List.dropWhile_append_of_pos h, List.dropWhile_nil]
    rw [List.dropWhile_append_of_pos hall, hnone after hafter, trimWith, hnone t hall]

theorem trim_surrounded {before after : Text} (hbefore : ∀ c ∈ before, isBlank c)
    (hafter : ∀ c ∈ after, isBlank c) (t : Text) : trim (before ++ t ++ after) = trim t :=
  trimWith_surrounded hbefore hafter t

end NetBoot.Text
