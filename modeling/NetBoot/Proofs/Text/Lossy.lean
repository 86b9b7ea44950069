import NetBoot.Proofs.Text.Utf8

namespace NetBoot.Utf8

variable {b : UInt8} {c : Char} {p : Pending}

def Pending.owed : Pending → Nat
  | .none => 0
  | .some .. => 1

@[simp] theorem Pending.owed_none : Pending.none.owed = 0 := rfl

@[simp] theorem Pending.owed_some (left code low high : Nat) :
    (Pending.some left code low high).owed = 1 := rfl

def Pending.InRange : Pending → Prop
  | .none => True
  | .some _ _ low high => 0x80 ≤ low ∧ high ≤ 0xBF

theorem lead_cases (n : Nat) :
    (∃ c, lead n = (some c, .none)) ∨ ∃ p, lead n = (none, p) ∧ p.owed = 1 ∧ p.InRange := by
  unfold lead
  grind [Pending.owed, Pending.InRange]

theorem scan_restart {left code low high : Nat} (h : ¬ (low ≤ b.toNat ∧ b.toNat ≤ high))
    (bs : Bytes) : scan (.some left code low high) (b :: bs) = none :: scan .none (b :: bs) := by
  rw [scan, scan]
  exact if_neg h

def IsUnit (unit : Bytes) : Prop :=
  ∀ p : Pending, p.InRange → ∃ p' : Pending, p'.InRange ∧ ∀ bs,
    (scan p (unit ++ bs)).length + p'.owed ≤ p.owed + 1 + (scan p' bs).length

theorem length_scan_byte (b : UInt8) : ∃ p : Pending, p.InRange ∧ ∀ bs,
    (scan .none (b :: bs)).length + p.owed = 1 + (scan p bs).length := by
  rcases lead_cases b.toNat with ⟨c, hlead⟩ | ⟨p, hlead, howed, hrange⟩
  · refine ⟨.none, trivial, fun bs => ?_⟩
    rw [scan, hlead]
    simp [Nat.add_comm]
  · refine ⟨p, hrange, fun bs => ?_⟩
    rw [scan, hlead, howed]
    exact Nat.add_comm _ _

theorem isUnit_byte (b : UInt8) : IsUnit [b] := by
  intro p hp
  obtain ⟨fresh, hfresh, hlength⟩ := length_scan_byte b
  cases p with
  | none => exact ⟨fresh, hfresh, fun bs => Nat.le_of_eq (hlength bs)⟩
  | some left code low high =>
      by_cases hnext : low ≤ b.toNat ∧ b.toNat ≤ high
      · by_cases hleft : left ≤ 1
        · refine ⟨.none, trivial, fun bs => ?_⟩
          rw [List.singleton_append, scan_pending hnext.1 hnext.2, if_pos hleft]
          simp only [List.length_cons, Pending.owed_none, Pending.owed_some]
          omega
        · refine ⟨.some (left - 1) (64 * code + (b.toNat - 0x80)) 0x80 0xBF,
            ⟨Nat.le_refl _, Nat.le_refl _⟩, fun bs => ?_⟩
          rw [List.singleton_append, scan_pending hnext.1 hnext.2, if_neg hleft]
          simp only [Pending.owed_some]
          omega
      · refine ⟨fresh, hfresh, fun bs => ?_⟩
        have hbs := hlength bs
        rw [List.singleton_append, scan_restart hnext, List.length_cons]
        simp only [Pending.owed_some]
        omega

theorem isUnit_encodeChar (c : Char) : IsUnit (encodeChar c) := by
  intro p hp
  refine ⟨.none, trivial, fun bs => ?_⟩
  cases p with
  | none =>
      rw [scan_encodeChar, List.length_cons]
      simp only [Pending.owed_none]
      omega
  | some left code low high =>
      cases hbytes : encodeChar c with
      | nil => exact absurd hbytes (encodeChar_ne_nil c)
      | cons b rest =>
          -- A character never begins with a byte that could lead on in the one before.
          have hnext : ¬ (low ≤ b.toNat ∧ b.toNat ≤ high) := by
            have hstart := lead_encodeChar hbytes
            have := hp.1
            have := hp.2
            omega
          rw [List.cons_append, scan_restart hnext, ← List.cons_append, ← hbytes, scan_encodeChar]
          simp only [List.length_cons, Pending.owed_none, Pending.owed_some]
          omega

theorem length_scan_flatten_le {units : List Bytes} (h : ∀ unit ∈ units, IsUnit unit)
    (hp : p.InRange) : (scan p units.flatten).length ≤ p.owed + units.length := by
  induction units generalizing p with
  | nil => cases p <;> exact Nat.le_refl _
  | cons unit units ih =>
      obtain ⟨p', hp', hstep⟩ := h unit (.head _) p hp
      have hrest := ih (fun unit hunit => h unit (.tail _ hunit)) hp'
      have hunit := hstep units.flatten
      rw [List.flatten_cons, List.length_cons]
      omega

theorem length_decodeLossy_flatten_le {units : List Bytes} (h : ∀ unit ∈ units, IsUnit unit) :
    (decodeLossy units.flatten).length ≤ units.length := by
  have hscan := length_scan_flatten_le h (p := .none) trivial
  rw [decodeLossy, List.length_map]
  simpa using hscan

theorem decodeLossy_encode (t : Text) : decodeLossy (encode t) = t := by
  induction t with
  | nil => rfl
  | cons c t ih =>
      rw [decodeLossy, encode_cons, scan_encodeChar, List.map_cons]
      exact congrArg (c :: ·) ih

end NetBoot.Utf8
