import Mathlib.Logic.ExistsUnique
import NetBoot.Proofs.Image.TaggedName
import NetBoot.Proofs.Url.Path

namespace NetBoot

theorem Text.splitAll_eq_splitOn (c : Char) (t : Text) : splitAll c t = t.splitOn c := by
  rw [List.splitOn_eq_splitOnP]
  induction t with
  | nil => rfl
  | cons x t ih =>
      rw [List.splitOnP_cons_eq_if_modifyHead, ← ih]
      by_cases hx : x = c
      · subst hx
        rw [splitAll_cons_self, if_pos (beq_self_eq_true x)]
      · have hne : ¬ (x == c) = true := by simpa using hx
        rw [splitAll_cons_of_ne hx, if_neg hne]

namespace ImageName

variable {name other : Text} {image image' : ImageName}

inductive Denotes : Text → ImageName → Prop
  | hosted (host rest : Text) : '/' ∉ host → '.' ∈ host ∨ ':' ∈ host →
      Denotes (host ++ '/' :: rest) ⟨host, rest⟩
  | nested (first rest : Text) : '/' ∉ first → '.' ∉ first → ':' ∉ first →
      Denotes (first ++ '/' :: rest) ⟨defaultRegistry, first ++ '/' :: rest⟩
  | single (name : Text) : '/' ∉ name → Denotes name ⟨defaultRegistry, "library/".toList ++ name⟩

theorem denotes_locate (name : Text) : Denotes name (locate name) := by
  unfold locate
  split
  · next first rest hsplit =>
      obtain ⟨rfl, hslash⟩ := Text.splitOnce_eq_some hsplit
      split
      · next hlooks => exact .hosted first rest hslash (looksLikeHost_iff.1 hlooks)
      · next hlooks =>
          rw [looksLikeHost_iff, not_or] at hlooks
          exact .nested first rest hslash hlooks.1 hlooks.2
  · next hsplit => exact .single name (Text.splitOnce_eq_none.1 hsplit)

theorem locate_of_denotes (h : Denotes name image) : locate name = image := by
  cases h with
  | hosted host rest hslash hlooks =>
      have hhost : looksLikeHost host = true := looksLikeHost_iff.2 hlooks
      rw [locate, Text.splitOnce_append hslash]
      exact if_pos hhost
  | nested first rest hslash hdot hcolon =>
      have hfirst : ¬ looksLikeHost first = true := by
        rw [looksLikeHost_iff, not_or]
        exact ⟨hdot, hcolon⟩
      rw [locate, Text.splitOnce_append hslash]
      exact if_neg hfirst
  | single name hslash => rw [locate, Text.splitOnce_eq_none.2 hslash]

theorem existsUnique_denotes (name : Text) : ∃! image, Denotes name image :=
  ⟨locate name, denotes_locate name, fun _ h => (locate_of_denotes h).symm⟩

def IsPlainPath (t : Text) : Prop :=
  ∀ segment ∈ t.splitOn '/', segment ∉ ["".toList, ".".toList, "..".toList]

theorem isPlainPath_iff {t : Text} :
    IsPlainPath t ↔ (Text.splitAll '/' t).all isPlainSegment := by
  simp [IsPlainPath, isPlainSegment, Text.splitAll_eq_splitOn, and_assoc]

theorem IsPlainPath.ne_nil {t : Text} (h : IsPlainPath t) : t ≠ [] := by
  rintro rfl
  exact h [] (by simp) (.head _)

theorem parse_eq_ok_iff :
    parse name = .ok image ↔ name ≠ [] ∧ Denotes name image ∧ IsPlainPath image.repository := by
  constructor
  · intro h
    obtain ⟨rfl, hname⟩ := parse_eq_ok h
    have hplain := isPlainPath_iff.2 (List.all_eq_true.2 (isPlainSegment_of_parse h))
    exact ⟨hname, denotes_locate name, hplain⟩
  · rintro ⟨hname, hdenotes, hpath⟩
    obtain rfl := locate_of_denotes hdenotes
    have hne : ¬ (name = [] ∨ (locate name).repository = []) := by
      rintro (hnil | hnil)
      · exact hname hnil
      · exact hpath.ne_nil hnil
    rw [parse, if_neg hne, if_pos (isPlainPath_iff.1 hpath)]

theorem Denotes.shown (h : Denotes name image) : Denotes image.toText image := by
  have hslash : '/' ∉ defaultRegistry := by decide
  have hdot : '.' ∈ defaultRegistry := by decide
  cases h with
  | hosted host rest hhost hlooks => exact .hosted host rest hhost hlooks
  | nested first rest => exact .hosted defaultRegistry _ hslash (.inl hdot)
  | single name => exact .hosted defaultRegistry _ hslash (.inl hdot)

theorem parse_toText (h : parse name = .ok image) : parse image.toText = .ok image := by
  obtain ⟨-, hdenotes, hpath⟩ := parse_eq_ok_iff.1 h
  exact parse_eq_ok_iff.2 ⟨by simp [toText], hdenotes.shown, hpath⟩

theorem eq_of_toText_eq (h : parse name = .ok image) (h' : parse other = .ok image')
    (htext : image.toText = image'.toText) : image = image' := by
  have hread : parse image.toText = .ok image' := htext ▸ parse_toText h'
  exact Except.ok.inj ((parse_toText h).symm.trans hread)

theorem parse_canonical :
    (∀ name, ∃! image, Denotes name image) ∧
      (∀ name image, parse name = .ok image ↔
        name ≠ [] ∧ Denotes name image ∧ IsPlainPath image.repository) ∧
      (∀ name image, parse name = .ok image →
        parse image.toText = .ok image ∧ '/' ∉ image.registry ∧ image.registry ≠ []) ∧
      ∀ name other image image', parse name = .ok image → parse other = .ok image' →
        (image.registry = image'.registry ∧ image.repository = image'.repository ↔
          image.toText = image'.toText) := by
  refine ⟨existsUnique_denotes, fun name image => parse_eq_ok_iff, fun name image h => ?_,
    fun name other image image' h h' => ⟨?_, ?_⟩⟩
  · exact ⟨parse_toText h, slash_not_mem_registry h, registry_ne_nil h⟩
  · rintro ⟨hregistry, hrepository⟩
    rw [toText, toText, hregistry, hrepository]
  · intro htext
    rw [eq_of_toText_eq h h' htext]
    exact ⟨rfl, rfl⟩

theorem short_names_shown_alike :
    let os : ImageName := ⟨"registry-1.docker.io".toList, "library/os".toList⟩
    parse "os".toList = .ok os ∧ parse "library/os".toList = .ok os ∧
      (os.registry = os.registry ∧ os.repository = os.repository ↔ os.toText = os.toText) ∧
      parse ".:/.:/...".toList = .ok ⟨".:".toList, ".:/...".toList⟩ ∧
      parse (toText ⟨".:".toList, ".:/...".toList⟩) = .ok ⟨".:".toList, ".:/...".toList⟩ ∧
      '/' ∉ ".:".toList ∧ ".:".toList ≠ [] := by
  intro os
  have hshort : parse "os".toList = .ok os := by rfl
  have hlong : parse "library/os".toList = .ok os := by rfl
  have hsigns : parse ".:/.:/...".toList = .ok ⟨".:".toList, ".:/...".toList⟩ := by rfl
  obtain ⟨-, -, hshown, halike⟩ := parse_canonical
  exact ⟨hshort, hlong, halike _ _ _ _ hshort hlong, hsigns, hshown _ _ hsigns⟩

end ImageName

end NetBoot
