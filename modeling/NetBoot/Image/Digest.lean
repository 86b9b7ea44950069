import NetBoot.Text.Basic

namespace NetBoot

structure Digest where
  algorithm : Text
  encoded : Text
  deriving DecidableEq, Repr

namespace Digest

def isAlgorithmChar (c : Char) : Bool :=
  ('a' ≤ c && c ≤ 'z') || c.isDigit || c = '+' || c = '.' || c = '_' || c = '-'

def isEncodedChar (c : Char) : Bool :=
  c.isAlphanum || c = '=' || c = '_' || c = '-'

def IsAlgorithm (t : Text) : Prop := t ≠ [] ∧ t.all isAlgorithmChar

def IsEncoded (t : Text) : Prop := t ≠ [] ∧ t.all isEncodedChar

instance (t : Text) : Decidable (IsAlgorithm t) := inferInstanceAs (Decidable (_ ∧ _))

instance (t : Text) : Decidable (IsEncoded t) := inferInstanceAs (Decidable (_ ∧ _))

def parse? (t : Text) : Option Digest :=
  match Text.splitOnce ':' t with
  | none => none
  | some (algorithm, encoded) =>
      if IsAlgorithm algorithm ∧ IsEncoded encoded then some ⟨algorithm, encoded⟩ else none

def toText (d : Digest) : Text := d.algorithm ++ ':' :: d.encoded

def sha256 : Text := "sha256".toList

def toSegment (d : Digest) : Text := "sha256-".toList ++ d.encoded

def ofSegment (segment : Text) : Except Text Digest :=
  match Text.after? "sha256-".toList segment with
  | none => .error segment
  | some encoded =>
      let t := "sha256:".toList ++ encoded
      match parse? t with
      | none => .error t
      | some d => .ok d

theorem colon_not_mem_of_isAlgorithm {t : Text} (h : IsAlgorithm t) : ':' ∉ t := by
  intro hm
  have := List.all_eq_true.1 h.2 ':' hm
  simp [isAlgorithmChar] at this

theorem parse?_eq_some {t : Text} {d : Digest} (h : parse? t = some d) :
    t = d.toText ∧ IsAlgorithm d.algorithm ∧ IsEncoded d.encoded := by
  simp only [parse?] at h
  split at h
  · simp at h
  · next a e hs =>
      split at h
      · next hok =>
          simp only [Option.some.injEq] at h
          subst h
          exact ⟨(Text.splitOnce_eq_some hs).1, hok⟩
      · simp at h

theorem parse?_toText {d : Digest} (ha : IsAlgorithm d.algorithm) (he : IsEncoded d.encoded) :
    parse? d.toText = some d := by
  simp [parse?, toText, Text.splitOnce_append (colon_not_mem_of_isAlgorithm ha), ha, he]

end Digest

end NetBoot
