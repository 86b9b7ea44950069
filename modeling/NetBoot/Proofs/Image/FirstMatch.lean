import Mathlib.Data.List.Perm.Basic
import NetBoot.Text.Basic

namespace NetBoot

namespace Text

theorem startsWith_iff {t lead : Text} : startsWith t lead ↔ lead <+: t := by
  constructor
  · intro h
    obtain ⟨rest, hrest⟩ := Option.isSome_iff_exists.1 h
    exact ⟨rest, (after?_eq_some hrest).symm⟩
  · rintro ⟨rest, rfl⟩
    exact congrArg Option.isSome (after?_append lead rest)

theorem endsWith_iff {t tail : Text} : endsWith t tail ↔ tail <:+ t := by
  constructor
  · intro h
    obtain ⟨stem, hstem⟩ := Option.isSome_iff_exists.1 h
    exact ⟨stem, (before?_eq_some hstem).symm⟩
  · rintro ⟨stem, rfl⟩
    exact congrArg Option.isSome (before?_append stem tail)

end Text

namespace Selection

variable {α : Type} {p : α → Prop} {q : α → Bool} {l l' : List α} {a b : α}

def IsFirst (p : α → Prop) (l : List α) (a : α) : Prop :=
  ∃ before after, l = before ++ a :: after ∧ p a ∧ ∀ b ∈ before, ¬ p b

theorem IsFirst.mem (h : IsFirst p l a) : a ∈ l := by
  obtain ⟨before, after, rfl, -⟩ := h
  simp

theorem IsFirst.holds (h : IsFirst p l a) : p a := by
  obtain ⟨before, after, -, ha, -⟩ := h
  exact ha

theorem not_isFirst_nil : ¬ IsFirst p [] a := fun h => nomatch h.mem

theorem isFirst_cons_iff : IsFirst p (b :: l) a ↔ b = a ∧ p a ∨ ¬ p b ∧ IsFirst p l a := by
  constructor
  · rintro ⟨before, after, heq, ha, hbefore⟩
    cases before with
    | nil =>
        obtain ⟨rfl, -⟩ := List.cons.inj heq
        exact .inl ⟨rfl, ha⟩
    | cons x before =>
        obtain ⟨rfl, rfl⟩ := List.cons.inj heq
        exact .inr ⟨hbefore b (.head _), before, after, rfl, ha, fun c hc => hbefore c (.tail _ hc)⟩
  · rintro (⟨rfl, ha⟩ | ⟨hb, before, after, rfl, ha, hbefore⟩)
    · exact ⟨[], l, rfl, ha, nofun⟩
    · exact ⟨b :: before, after, rfl, ha, List.forall_mem_cons.2 ⟨hb, hbefore⟩⟩

theorem find?_eq_some_iff (hq : ∀ a, q a ↔ p a) : l.find? q = some a ↔ IsFirst p l a := by
  simp only [List.find?_eq_some_iff_append, hq, Bool.not_eq_true', ← Bool.not_eq_true]
  constructor
  · rintro ⟨ha, before, after, rfl, hbefore⟩
    exact ⟨before, after, rfl, ha, hbefore⟩
  · rintro ⟨before, after, rfl, ha, hbefore⟩
    exact ⟨ha, before, after, rfl, hbefore⟩

theorem find?_eq_none_iff (hq : ∀ a, q a ↔ p a) : l.find? q = none ↔ ∀ a ∈ l, ¬ p a := by
  simp only [List.find?_eq_none, hq]

def AtMostOne (p : α → Prop) (l : List α) : Prop := ∀ a ∈ l, ∀ b ∈ l, p a → p b → a = b

instance [DecidableEq α] [DecidablePred p] : Decidable (AtMostOne p l) :=
  inferInstanceAs (Decidable (∀ a ∈ l, ∀ b ∈ l, p a → p b → a = b))

theorem find?_perm (hq : ∀ a, q a ↔ p a) (hone : AtMostOne p l) (h : l.Perm l') :
    l.find? q = l'.find? q := by
  cases hfind : l.find? q with
  | none =>
      have hnone := (find?_eq_none_iff hq).1 hfind
      exact ((find?_eq_none_iff hq).2 fun a ha => hnone a (h.mem_iff.2 ha)).symm
  | some a =>
      have ha := (find?_eq_some_iff hq).1 hfind
      cases hfind' : l'.find? q with
      | none => exact absurd ha.holds ((find?_eq_none_iff hq).1 hfind' a (h.mem_iff.1 ha.mem))
      | some b =>
          have hb := (find?_eq_some_iff hq).1 hfind'
          rw [hone a ha.mem b (h.mem_iff.2 hb.mem) ha.holds hb.holds]

inductive SameBut (p : α → Prop) : List α → List α → Prop
  | nil : SameBut p [] []
  | shared (a : α) {l l' : List α} : SameBut p l l' → SameBut p (a :: l) (a :: l')
  | dropped (a : α) {l l' : List α} : p a → SameBut p l l' → SameBut p (a :: l) l'
  | added (a : α) {l l' : List α} : p a → SameBut p l l' → SameBut p l (a :: l')

theorem SameBut.find?_eq (hq : ∀ a, p a → q a = false) (h : SameBut p l l') :
    l.find? q = l'.find? q := by
  induction h with
  | nil => rfl
  | shared a _ ih => simp only [List.find?_cons, ih]
  | dropped a ha _ ih => rw [List.find?_cons, hq a ha, ih]
  | added a ha _ ih => rw [List.find?_cons, hq a ha, ih]

end Selection

end NetBoot
