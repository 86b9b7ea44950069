import Mathlib.Data.List.Nodup
import NetBoot.Text.Basic

namespace NetBoot.Text

variable {β : Type} {l : List (Text × β)} {key : Text} {p q : Text × β} {b : β}

theorem lookup_eq_none : List.lookup key l = none ↔ key ∉ l.map Prod.fst := by
  induction l with
  | nil => simp
  | cons p l ih =>
      obtain ⟨k, b⟩ := p
      rw [List.lookup_cons]
      by_cases h : key = k
      · simp [h]
      · have hb : (key == k) = false := by simpa using h
        simp only [hb, ih, List.map_cons, List.mem_cons, h, false_or]

theorem mem_of_lookup (h : List.lookup key l = some b) : (key, b) ∈ l := by
  induction l with
  | nil => exact nomatch h
  | cons p l ih =>
      obtain ⟨k, c⟩ := p
      rw [List.lookup_cons] at h
      by_cases hkey : key = k
      · subst hkey
        simp only [beq_self_eq_true, Option.some.injEq] at h
        subst h
        exact .head _
      · have hb : (key == k) = false := by simpa using hkey
        simp only [hb] at h
        exact .tail _ (ih h)

theorem eq_of_key_eq (hkeys : (l.map Prod.fst).Nodup) (hp : p ∈ l) (hq : q ∈ l)
    (h : p.1 = q.1) : p = q := by
  induction l with
  | nil => exact nomatch hp
  | cons x l ih =>
      simp only [List.map_cons, List.nodup_cons, List.mem_map, not_exists, not_and] at hkeys
      rcases List.mem_cons.1 hp with rfl | hpl
      · rcases List.mem_cons.1 hq with rfl | hql
        · rfl
        · exact absurd h.symm (hkeys.1 q hql)
      · rcases List.mem_cons.1 hq with rfl | hql
        · exact absurd h (hkeys.1 p hpl)
        · exact ih hkeys.2 hpl hql

theorem lookup_eq_some_iff (hkeys : (l.map Prod.fst).Nodup) :
    List.lookup key l = some b ↔ (key, b) ∈ l := by
  refine ⟨mem_of_lookup, fun h => ?_⟩
  cases hlookup : List.lookup key l with
  | none => exact absurd (List.mem_map_of_mem h) (lookup_eq_none.1 hlookup)
  | some b' =>
      have hsame : (key, b') = (key, b) := eq_of_key_eq hkeys (mem_of_lookup hlookup) h rfl
      exact congrArg some (congrArg Prod.snd hsame)

theorem filter_key_of_not_mem (h : key ∉ l.map Prod.fst) :
    (l.filter fun p => p.1 ≠ key) = l := by
  refine List.filter_eq_self.2 fun p hp => ?_
  have hne : p.1 ≠ key := fun heq => h (heq ▸ List.mem_map_of_mem hp)
  simpa using hne

theorem mem_keys_filter {other : Text} :
    other ∈ (l.filter fun p => p.1 ≠ key).map Prod.fst ↔ other ∈ l.map Prod.fst ∧ other ≠ key := by
  simp only [List.mem_map, List.mem_filter, ne_eq, decide_not, Bool.not_eq_true',
    decide_eq_false_iff_not]
  constructor
  · rintro ⟨p, ⟨hp, hne⟩, rfl⟩
    exact ⟨⟨p, hp, rfl⟩, hne⟩
  · rintro ⟨⟨p, hp, rfl⟩, hne⟩
    exact ⟨p, ⟨hp, hne⟩, rfl⟩

theorem nodup_keys_filter (h : (l.map Prod.fst).Nodup) (key : Text) :
    ((l.filter fun p => p.1 ≠ key).map Prod.fst).Nodup :=
  h.sublist (List.filter_sublist.map Prod.fst)

end NetBoot.Text
