import Mathlib.Data.Set.Basic
import NetBoot.Proofs.Image.CanonicalName
import NetBoot.Proofs.Image.ShownForms
import NetBoot.Registry.Policy

namespace NetBoot

namespace Text

variable {t item piece : Text}

def IsTrimOf (item piece : Text) : Prop :=
  IsTrimmed item ∧ ∃ before after, piece = before ++ item ++ after ∧
    (∀ c ∈ before, isBlank c) ∧ ∀ c ∈ after, isBlank c

theorem exists_dropEndWhile_append (p : Char → Bool) (t : Text) :
    ∃ after, dropEndWhile p t ++ after = t ∧ ∀ c ∈ after, p c := by
  refine ⟨(t.reverse.takeWhile p).reverse, ?_, fun c hc => ?_⟩
  · rw [dropEndWhile, ← List.reverse_append, List.takeWhile_append_dropWhile, List.reverse_reverse]
  · exact List.mem_takeWhile_imp (List.mem_reverse.1 hc)

theorem isTrimOf_trim (t : Text) : IsTrimOf (trim t) t := by
  obtain ⟨after, hafter, hblank⟩ := exists_dropEndWhile_append isBlank (t.dropWhile isBlank)
  refine ⟨isTrimmed_trim t, t.takeWhile isBlank, after, ?_, fun c => List.mem_takeWhile_imp, hblank⟩
  calc t = t.takeWhile isBlank ++ t.dropWhile isBlank := List.takeWhile_append_dropWhile.symm
    _ = t.takeWhile isBlank ++ (trim t ++ after) := by rw [trim, trimWith, hafter]
    _ = t.takeWhile isBlank ++ trim t ++ after := (List.append_assoc _ _ _).symm

theorem isTrimOf_iff : IsTrimOf item piece ↔ trim piece = item := by
  constructor
  · rintro ⟨htrimmed, before, after, rfl, hbefore, hafter⟩
    rw [trim_surrounded hbefore hafter, trim_eq_self htrimmed]
  · rintro rfl
    exact isTrimOf_trim piece

theorem trim_eq_nil_iff : trim t = [] ↔ ∀ c ∈ t, isBlank c := by
  constructor
  · intro h c hc
    by_contra hkept
    have hkept : isBlank c = false := by simpa using hkept
    have hmem : c ∈ trim t := (mem_dropEndWhile_iff hkept _).2 ((mem_dropWhile_iff hkept t).2 hc)
    rw [h] at hmem
    exact nomatch hmem
  · intro h
    calc trim t = trim (t ++ [] ++ []) := by rw [List.append_nil, List.append_nil]
      _ = trim [] := trim_surrounded h (by simp) []
      _ = [] := rfl

end Text

namespace RegistryPolicy

variable {list allowed blocked allowed' blocked' domain item : Text} {pieces pieces' : List Text}

def listed (list : Text) : Set Text :=
  {item | item ≠ [] ∧ ∃ piece ∈ list.splitOn ',', Text.IsTrimOf item piece}

theorem mem_items_iff : item ∈ items list ↔ item ∈ listed list := by
  simp only [items, listed, List.mem_filter, List.mem_map, Set.mem_ofPred_eq, Text.isTrimOf_iff,
    Text.splitAll_eq_splitOn, ne_eq, decide_not, Bool.not_eq_true', decide_eq_false_iff_not]
  exact and_comm

theorem items_eq_nil_iff : items list = [] ↔ listed list = ∅ := by
  simp only [List.eq_nil_iff_forall_not_mem, mem_items_iff, Set.eq_empty_iff_forall_notMem]

theorem listed_eq_empty_iff : listed list = ∅ ↔ ∀ c ∈ list, c = ',' ∨ Text.isBlank c := by
  have hpieces : listed list = ∅ ↔
      ∀ piece ∈ Text.splitAll ',' list, ∀ c ∈ piece, Text.isBlank c := by
    rw [← items_eq_nil_iff, items, List.filter_eq_nil_iff, List.forall_mem_map]
    simp only [ne_eq, decide_not, Bool.not_eq_true', decide_eq_false_iff_not, not_not,
      Text.trim_eq_nil_iff]
  rw [hpieces]
  constructor
  · intro h c hc
    by_cases hcomma : c = ','
    · exact .inl hcomma
    · obtain ⟨piece, hpiece, hmem⟩ := Text.exists_mem_splitAll_iff.2 ⟨hc, hcomma⟩
      exact .inr (h piece hpiece c hmem)
  · intro h piece hpiece c hc
    obtain ⟨hmem, hcomma⟩ := Text.exists_mem_splitAll_iff.1 ⟨piece, hpiece, hc⟩
    exact (h c hmem).resolve_left hcomma

theorem configured_of_empty (h : listed list = ∅) : configured list = none :=
  if_pos (items_eq_nil_iff.2 h)

theorem configured_of_nonempty (h : (listed list).Nonempty) : configured list = some (items list) :=
  if_neg fun hnil => h.ne_empty (items_eq_nil_iff.1 hnil)

theorem admits_of_allowed (h : (listed allowed).Nonempty) :
    (ofLists allowed blocked).admits domain = true ↔ domain ∈ listed allowed := by
  rw [ofLists, configured_of_nonempty h, ← mem_items_iff]
  exact decide_eq_true_iff

theorem admits_of_blocked (hallowed : listed allowed = ∅) (h : (listed blocked).Nonempty) :
    (ofLists allowed blocked).admits domain = true ↔ domain ∉ listed blocked := by
  rw [ofLists, configured_of_empty hallowed, configured_of_nonempty h, ← mem_items_iff]
  exact decide_eq_true_iff

theorem ofLists_eq_denyAll_iff :
    ofLists allowed blocked = denyAll ↔ listed allowed = ∅ ∧ listed blocked = ∅ := by
  simp only [ofLists, denyAll, configured, RegistryPolicy.mk.injEq, ite_eq_left_iff, reduceCtorEq,
    imp_false, not_not, items_eq_nil_iff]

theorem admits_ofLists_iff :
    (ofLists allowed blocked).admits domain = true ↔
      (listed allowed).Nonempty ∧ domain ∈ listed allowed ∨
        listed allowed = ∅ ∧ (listed blocked).Nonempty ∧ domain ∉ listed blocked := by
  rcases (listed allowed).eq_empty_or_nonempty with hallowed | hallowed
  · rcases (listed blocked).eq_empty_or_nonempty with hblocked | hblocked
    · rw [ofLists_eq_denyAll_iff.2 ⟨hallowed, hblocked⟩]
      simp [denyAll, admits, hallowed, hblocked]
    · rw [admits_of_blocked hallowed hblocked]
      simp [hallowed, hblocked]
  · rw [admits_of_allowed hallowed]
    simp [hallowed, hallowed.ne_empty]

theorem admits_congr (hallowed : listed allowed = listed allowed')
    (hblocked : listed allowed = ∅ → listed blocked = listed blocked') :
    (ofLists allowed blocked).admits domain = (ofLists allowed' blocked').admits domain := by
  rw [Bool.eq_iff_iff, admits_ofLists_iff, admits_ofLists_iff, ← hallowed]
  rcases (listed allowed).eq_empty_or_nonempty with hempty | hnonempty
  · rw [hblocked hempty]
  · simp [hnonempty, hnonempty.ne_empty]

def SameItems (pieces pieces' : List Text) : Prop :=
  ∀ item ≠ [], (∃ piece ∈ pieces, Text.IsTrimOf item piece) ↔
    ∃ piece ∈ pieces', Text.IsTrimOf item piece

theorem listed_intercalate (h : ∀ piece ∈ pieces, ',' ∉ piece) :
    listed ([','].intercalate pieces) =
      {item | item ≠ [] ∧ ∃ piece ∈ pieces, Text.IsTrimOf item piece} := by
  cases pieces with
  | nil =>
      have hempty : listed ([','].intercalate []) = ∅ := listed_eq_empty_iff.2 (by simp)
      rw [hempty]
      simp
  | cons piece rest => rw [listed, List.splitOn_intercalate ',' h (List.cons_ne_nil piece rest)]

theorem listed_of_sameItems (h : ∀ piece ∈ pieces, ',' ∉ piece)
    (h' : ∀ piece ∈ pieces', ',' ∉ piece) (hsame : SameItems pieces pieces') :
    listed ([','].intercalate pieces) = listed ([','].intercalate pieces') := by
  rw [listed_intercalate h, listed_intercalate h']
  exact Set.ext fun item => and_congr_right (hsame item)

theorem admits_by_listed (allowed blocked : Text) :
    (∀ domain, (ofLists allowed blocked).admits domain = true ↔
      (listed allowed).Nonempty ∧ domain ∈ listed allowed ∨
        listed allowed = ∅ ∧ (listed blocked).Nonempty ∧ domain ∉ listed blocked) ∧
    (∀ allowed' blocked', listed allowed = listed allowed' → listed blocked = listed blocked' →
      ∀ domain, (ofLists allowed blocked).admits domain =
        (ofLists allowed' blocked').admits domain) ∧
    ((listed allowed).Nonempty → ∀ blocked' domain,
      (ofLists allowed blocked).admits domain = (ofLists allowed blocked').admits domain) ∧
    (listed allowed = ∅ → (listed blocked).Nonempty →
      ∀ blocked', listed blocked ⊆ listed blocked' → ∀ domain,
        (ofLists allowed blocked).admits domain = false →
          (ofLists allowed blocked').admits domain = false) ∧
    (listed allowed = ∅ ∧ listed blocked = ∅ ↔ ofLists allowed blocked = denyAll) ∧
    (∀ domain, denyAll.admits domain = false) ∧
    (∀ list, listed list = ∅ ↔ ∀ c ∈ list, c = ',' ∨ Text.isBlank c) ∧
    ∀ pieces pieces' : List Text, (∀ piece ∈ pieces, ',' ∉ piece) →
      (∀ piece ∈ pieces', ',' ∉ piece) → SameItems pieces pieces' →
        listed ([','].intercalate pieces) = listed ([','].intercalate pieces') := by
  refine ⟨fun domain => admits_ofLists_iff, fun allowed' blocked' hallowed hblocked domain => ?_,
    fun hallowed blocked' domain => ?_, fun hallowed hblocked blocked' hsub domain hdenied => ?_,
    ofLists_eq_denyAll_iff.symm, fun domain => rfl, fun list => listed_eq_empty_iff,
    fun pieces pieces' h h' hsame => listed_of_sameItems h h' hsame⟩
  · exact admits_congr hallowed fun _ => hblocked
  · exact admits_congr rfl fun hempty => absurd hempty hallowed.ne_empty
  · have hmem : domain ∈ listed blocked := by
      by_contra hout
      rw [(admits_of_blocked hallowed hblocked).2 hout] at hdenied
      exact nomatch hdenied
    by_contra hadmitted
    rw [Bool.not_eq_false, admits_of_blocked hallowed (hblocked.mono hsub)] at hadmitted
    exact hadmitted (hsub hmem)

theorem admits_by_listed_of_blank_allowed :
    let allowed : Text := " ,\t,".toList
    let blocked : Text := "ghcr.io,\u00a0quay.io".toList
    let rewritten : Text := "quay.io,,quay.io , ghcr.io".toList
    listed allowed = ∅ ∧ listed blocked = listed rewritten ∧
      (∀ domain, (ofLists allowed blocked).admits domain =
        (ofLists allowed rewritten).admits domain) ∧
      (ofLists allowed blocked).admits "quay.io".toList = false ∧
      (ofLists allowed blocked).admits "docker.io".toList = true ∧
      ofLists allowed blocked ≠ denyAll := by
  intro allowed blocked rewritten
  obtain ⟨-, hsame, -, -, -, -, hempty, hrewritten⟩ := admits_by_listed allowed blocked
  have hallowed : listed allowed = ∅ := (hempty allowed).2 (by simp [allowed, Text.isBlank])
  have hblocked : listed blocked = listed rewritten := by
    refine hrewritten ["ghcr.io".toList, "\u00a0quay.io".toList]
      ["quay.io".toList, [], "quay.io ".toList, " ghcr.io".toList] (by decide) (by decide) ?_
    intro item hitem
    have hghcr : Text.trim " ghcr.io".toList = Text.trim "ghcr.io".toList := by decide
    have hquay : Text.trim "\u00a0quay.io".toList = Text.trim "quay.io".toList := by decide
    have hquay' : Text.trim "quay.io ".toList = Text.trim "quay.io".toList := by decide
    have hnil : Text.trim [] = [] := rfl
    simp only [Text.isTrimOf_iff, List.mem_cons, List.not_mem_nil, or_false, exists_eq_or_imp,
      exists_eq_left, hghcr, hquay, hquay', hnil, hitem.symm, false_or, or_self_left]
    exact or_comm
  exact ⟨hallowed, hblocked, fun domain => hsame allowed rewritten rfl hblocked domain, by decide,
    by decide, by decide⟩

end RegistryPolicy

end NetBoot
