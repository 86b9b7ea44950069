namespace NetBoot

abbrev Text := List Char

abbrev Bytes := List UInt8

namespace Text

-- Named, so that membership in lists of texts is decided by one proof throughout.
instance : LawfulBEq Text := inferInstance

def splitOnce (c : Char) : Text → Option (Text × Text)
  | [] => none
  | x :: xs =>
      if x = c then some ([], xs)
      else (splitOnce c xs).map fun p => (x :: p.1, p.2)

def splitLast (c : Char) : Text → Option (Text × Text)
  | [] => none
  | x :: xs =>
      match splitLast c xs with
      | some p => some (x :: p.1, p.2)
      | none => if x = c then some ([], xs) else none

def splitAll (c : Char) : Text → List Text
  | [] => [[]]
  | x :: xs =>
      if x = c then [] :: splitAll c xs
      else
        match splitAll c xs with
        | [] => [[x]]
        | piece :: rest => (x :: piece) :: rest

def joinWith (separator : Text) : List Text → Text
  | [] => []
  | [t] => t
  | t :: ts => t ++ separator ++ joinWith separator ts

def after? : (lead : Text) → Text → Option Text
  | [], t => some t
  | _ :: _, [] => none
  | x :: xs, y :: ys => if x = y then after? xs ys else none

def before? (tail : Text) (t : Text) : Option Text :=
  (after? tail.reverse t.reverse).map List.reverse

def startsWith (t lead : Text) : Bool := (after? lead t).isSome

def endsWith (t tail : Text) : Bool := (before? tail t).isSome

def dropEndWhile (p : Char → Bool) (t : Text) : Text := (t.reverse.dropWhile p).reverse

def trimWith (p : Char → Bool) (t : Text) : Text := dropEndWhile p (t.dropWhile p)

def lower (t : Text) : Text := t.map Char.toLower

def digits (n : Nat) : Text := Nat.toDigits 10 n

def natural? (t : Text) : Option Nat :=
  if t ≠ [] ∧ t.all Char.isDigit then
    some (t.foldl (fun n c => 10 * n + (c.toNat - '0'.toNat)) 0)
  else none

def word64? (t : Text) : Option Nat :=
  let digits :=
    match t with
    | '+' :: rest => rest
    | _ => t
  (natural? digits).filter (· < Nat.pow 2 64)

theorem splitOnce_eq_none {c : Char} {t : Text} : splitOnce c t = none ↔ c ∉ t := by
  induction t with
  | nil => simp [splitOnce]
  | cons x xs ih =>
      by_cases h : x = c
      · simp [splitOnce, h]
      · simp [splitOnce, h, ih, Ne.symm h]

theorem splitOnce_append {c : Char} {a b : Text} (h : c ∉ a) :
    splitOnce c (a ++ c :: b) = some (a, b) := by
  induction a with
  | nil => simp [splitOnce]
  | cons x xs ih =>
      simp only [List.mem_cons, not_or] at h
      simp [splitOnce, Ne.symm h.1, ih h.2]

theorem splitOnce_eq_some {c : Char} {t a b : Text} (h : splitOnce c t = some (a, b)) :
    t = a ++ c :: b ∧ c ∉ a := by
  induction t generalizing a with
  | nil => simp [splitOnce] at h
  | cons x xs ih =>
      by_cases hx : x = c
      · simp only [splitOnce, hx, if_true, Option.some.injEq, Prod.mk.injEq] at h
        obtain ⟨rfl, rfl⟩ := h
        simp [hx]
      · simp only [splitOnce, hx, if_false, Option.map_eq_some_iff, Prod.mk.injEq] at h
        obtain ⟨p, hp, rfl, rfl⟩ := h
        obtain ⟨rfl, hm⟩ := ih hp
        simp [hm, Ne.symm hx]

theorem splitOnce_append_left {c : Char} {t a b : Text} (h : splitOnce c t = some (a, b))
    (u : Text) : splitOnce c (t ++ u) = some (a, b ++ u) := by
  obtain ⟨rfl, hc⟩ := splitOnce_eq_some h
  simpa using splitOnce_append (b := b ++ u) hc

theorem splitLast_eq_none {c : Char} {t : Text} : splitLast c t = none ↔ c ∉ t := by
  induction t with
  | nil => simp [splitLast]
  | cons x xs ih =>
      by_cases hm : c ∈ xs
      · have : splitLast c xs ≠ none := fun h => (ih.1 h) hm
        cases hs : splitLast c xs with
        | none => exact absurd hs this
        | some p => simp [splitLast, hs, hm]
      · have hs : splitLast c xs = none := ih.2 hm
        by_cases h : x = c
        · simp [splitLast, hs, h]
        · simp [splitLast, hs, h, hm, Ne.symm h]

theorem splitLast_append {c : Char} {a b : Text} (h : c ∉ b) :
    splitLast c (a ++ c :: b) = some (a, b) := by
  induction a with
  | nil => simp [splitLast, splitLast_eq_none.2 h]
  | cons x xs ih => simp [splitLast, ih]

theorem splitLast_eq_some {c : Char} {t a b : Text} (h : splitLast c t = some (a, b)) :
    t = a ++ c :: b ∧ c ∉ b := by
  induction t generalizing a with
  | nil => simp [splitLast] at h
  | cons x xs ih =>
      cases hs : splitLast c xs with
      | some p =>
          simp only [splitLast, hs, Option.some.injEq, Prod.mk.injEq] at h
          obtain ⟨rfl, rfl⟩ := h
          obtain ⟨rfl, hm⟩ := ih hs
          exact ⟨rfl, hm⟩
      | none =>
          simp only [splitLast, hs, Option.ite_none_right_eq_some, Option.some.injEq,
            Prod.mk.injEq] at h
          obtain ⟨rfl, rfl, rfl⟩ := h
          exact ⟨rfl, splitLast_eq_none.1 hs⟩

theorem after?_append (a b : Text) : after? a (a ++ b) = some b := by
  induction a with
  | nil => simp [after?]
  | cons x xs ih => simp [after?, ih]

theorem after?_eq_some {a t b : Text} (h : after? a t = some b) : t = a ++ b := by
  induction a generalizing t with
  | nil => simpa [after?] using h
  | cons x xs ih =>
      cases t with
      | nil => simp [after?] at h
      | cons y ys =>
          by_cases hxy : x = y
          · simp only [after?, hxy, if_true] at h
            simp [hxy, ih h]
          · simp [after?, hxy] at h

theorem before?_append (a b : Text) : before? b (a ++ b) = some a := by
  simp [before?, after?_append]

theorem before?_eq_some {b t a : Text} (h : before? b t = some a) : t = a ++ b := by
  simp only [before?, Option.map_eq_some_iff] at h
  obtain ⟨r, hr, rfl⟩ := h
  have := congrArg List.reverse (after?_eq_some hr)
  simpa using this

theorem splitAll_ne_nil (c : Char) (t : Text) : splitAll c t ≠ [] := by
  cases t with
  | nil => simp [splitAll]
  | cons x xs =>
      by_cases h : x = c
      · simp [splitAll, h]
      · cases hs : splitAll c xs with
        | nil => simp [splitAll, h, hs]
        | cons p ps => simp [splitAll, h, hs]

theorem joinWith_splitAll (c : Char) (t : Text) : joinWith [c] (splitAll c t) = t := by
  induction t with
  | nil => rfl
  | cons x xs ih =>
      cases hs : splitAll c xs with
      | nil => exact absurd hs (splitAll_ne_nil c xs)
      | cons p ps =>
          rw [hs] at ih
          by_cases h : x = c
          · subst h
            simp only [splitAll, if_true, hs]
            rw [joinWith, ih]
            · simp
            · simp
          · simp only [splitAll, h, if_false, hs]
            cases ps with
            | nil => simp only [joinWith] at ih ⊢; rw [ih]
            | cons q qs => simp only [joinWith] at ih ⊢; rw [← ih]; simp

theorem dropWhile_append_cons {p : Char → Bool} {c : Char} (hc : p c = false) (a b : Text) :
    (a ++ c :: b).dropWhile p = a.dropWhile p ++ c :: b := by
  induction a with
  | nil => simp [hc]
  | cons x xs ih =>
      by_cases hx : p x = true
      · simpa [hx] using ih
      · simp [hx]

theorem dropEndWhile_append_cons {p : Char → Bool} {c : Char} (hc : p c = false) (a b : Text) :
    dropEndWhile p (a ++ c :: b) = a ++ c :: dropEndWhile p b := by
  simp [dropEndWhile, dropWhile_append_cons hc]

theorem dropEndWhile_append_of_pos {p : Char → Bool} {after : Text} (h : ∀ c ∈ after, p c)
    (t : Text) : dropEndWhile p (t ++ after) = dropEndWhile p t := by
  rw [dropEndWhile, List.reverse_append,
    List.dropWhile_append_of_pos fun c hc => h c (List.mem_reverse.1 hc)]
  rfl

theorem mem_dropWhile_iff {p : Char → Bool} {c : Char} (hc : p c = false) (t : Text) :
    c ∈ t.dropWhile p ↔ c ∈ t := by
  induction t with
  | nil => simp
  | cons x xs ih =>
      by_cases hx : p x = true
      · have hne : c ≠ x := fun h => by simp [h, hx] at hc
        simp [hx, ih, hne]
      · simp [hx]

theorem mem_dropEndWhile_iff {p : Char → Bool} {c : Char} (hc : p c = false) (t : Text) :
    c ∈ dropEndWhile p t ↔ c ∈ t := by
  simp [dropEndWhile, mem_dropWhile_iff hc]

theorem lookup_filter_of_ne {β : Type} {d e : Text} (h : d ≠ e) (c : List (Text × β)) :
    List.lookup d (c.filter fun p => p.1 ≠ e) = List.lookup d c := by
  induction c with
  | nil => rfl
  | cons x xs ih =>
      obtain ⟨k, v⟩ := x
      by_cases hk : k = e
      · subst hk
        have hb : (d == k) = false := by simpa using h
        simpa [List.lookup_cons, hb] using ih
      · simp only [List.filter_cons, ne_eq, hk, not_false_eq_true, decide_true, if_true,
          List.lookup_cons]
        split
        · rfl
        · simpa using ih

theorem lookup_filter_self {β : Type} (d : Text) (c : List (Text × β)) :
    List.lookup d (c.filter fun p => p.1 ≠ d) = none := by
  rw [List.lookup_eq_none_iff]
  intro p hp
  have hne : p.1 ≠ d := by simpa using (List.mem_filter.1 hp).2
  simpa using Ne.symm hne

end Text

end NetBoot
