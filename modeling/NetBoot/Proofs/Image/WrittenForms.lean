import NetBoot.Proofs.Image.TaggedName
import NetBoot.Proofs.Text.Utf8

namespace NetBoot

namespace Digest

variable {c : Char} {d : Digest}

theorem isBlank_of_isEncodedChar (h : isEncodedChar c) : Text.isBlank c = false := by
  simp only [isEncodedChar, Bool.or_eq_true, decide_eq_true_eq] at h
  rcases h with ((halnum | rfl) | rfl) | rfl
  · have hcode := Utf8.isAlphanum_iff.1 halnum
    refine Bool.eq_false_iff.2 fun hblank => ?_
    simp only [Text.isBlank, Bool.or_eq_true, Bool.and_eq_true, decide_eq_true_eq,
      beq_iff_eq] at hblank
    omega
  · decide
  · decide
  · decide

theorem isBlank_of_mem_getLast? (h : parse? d.toText = some d) (hc : c ∈ d.toText.getLast?) :
    Text.isBlank c = false := by
  obtain ⟨-, -, hne, hchars⟩ := parse?_eq_some h
  rw [toText, List.getLast?_append, List.getLast?_cons, Option.some_or, Option.mem_some_iff] at hc
  cases hlast : d.encoded.getLast? with
  | none => exact absurd (List.getLast?_eq_none_iff.1 hlast) hne
  | some last =>
      rw [hlast, Option.getD_some] at hc
      subst hc
      exact isBlank_of_isEncodedChar (List.all_eq_true.1 hchars last (List.mem_of_getLast? hlast))

end Digest

namespace ImageReference

variable {t name tag : Text} {image : ImageName} {r : ImageReference} {d : Digest}

theorem splitTag_eq_some_iff :
    splitTag t = some (name, tag) ↔ t = name ++ ':' :: tag ∧ ':' ∉ tag ∧ '/' ∉ tag := by
  constructor
  · intro h
    unfold splitTag at h
    split at h
    · cases h
    · next hlast =>
        split at h
        · cases h
        · next hslash =>
            cases h
            obtain ⟨ht, hcolon⟩ := Text.splitLast_eq_some hlast
            exact ⟨ht, hcolon, hslash⟩
  · rintro ⟨rfl, hcolon, hslash⟩
    exact splitTag_append hcolon hslash

theorem split_of_at_not_mem (h : '@' ∉ t) {written : Option Text} {digest : Option Digest} :
    split t = .ok (name, written, digest) ↔
      ∃ tag, tag ≠ [] ∧ splitTag t = some (name, tag) ∧ written = some tag ∧ digest = none := by
  rw [split, Text.splitOnce_eq_none.2 h]
  dsimp only
  rcases splitTag t with _ | ⟨name', tag⟩
  · simp
  · by_cases htag : tag = []
    · simp +contextual [htag]
    · simp [htag]
      grind

theorem at_not_mem_of_split (h : split t = .ok (name, some tag, none)) : '@' ∉ t := by
  rw [split] at h
  split at h
  · split at h
    · cases h
    · split at h
      · cases h
      · split at h <;> simp at h
  · next hat => exact Text.splitOnce_eq_none.1 hat

theorem withTag_keeps_parts_iff (hname : ImageName.parse name = .ok image)
    (hnameTrimmed : Text.IsTrimmed name) (htagTrimmed : Text.IsTrimmed tag)
    (h : withTag name tag = .ok r) :
    r = ⟨name, image, some tag, none⟩ ∧ r.manifestReference = tag ↔
      '@' ∉ name ∧ '@' ∉ tag ∧ ':' ∉ tag := by
  have htrim : Text.trim (name ++ ':' :: tag) = name ++ ':' :: tag :=
    Text.trim_eq_self
      (hnameTrimmed.append_cons (ImageName.parse_eq_ok hname).2 (by decide) htagTrimmed.2)
  have hat : '@' ∉ name ++ ':' :: tag ↔ '@' ∉ name ∧ '@' ∉ tag := by simp
  obtain ⟨hsplit, himage⟩ := parse_eq_ok_iff.1 h
  rw [htrim] at hsplit
  constructor
  · rintro ⟨rfl, -⟩
    have hnot := at_not_mem_of_split hsplit
    obtain ⟨_, -, hcut, heq, -⟩ := (split_of_at_not_mem hnot).1 hsplit
    cases heq
    have hcolon := (splitTag_eq_some_iff.1 hcut).2.1
    exact ⟨(hat.1 hnot).1, (hat.1 hnot).2, hcolon⟩
  · rintro ⟨hatName, hatTag, hcolon⟩
    obtain ⟨tag', -, hcut, htag, hdigest⟩ :=
      (split_of_at_not_mem (hat.2 ⟨hatName, hatTag⟩)).1 hsplit
    obtain ⟨heq, hcolon', -⟩ := splitTag_eq_some_iff.1 hcut
    -- Both texts end with their last colon and what follows it, which is the same.
    have hlast := Text.splitLast_append (a := name) hcolon
    rw [heq, Text.splitLast_append hcolon'] at hlast
    cases hlast
    cases hname.symm.trans himage
    obtain ⟨_, _, _, _⟩ := r
    cases htag
    cases hdigest
    exact ⟨rfl, rfl⟩

theorem withTag_keeps_parts_of_port :
    withTag "localhost:5000/os".toList "1.0".toList =
        .ok ⟨"localhost:5000/os".toList, ⟨"localhost:5000".toList, "os".toList⟩,
          some "1.0".toList, none⟩ ∧
      '@' ∉ "localhost:5000/os".toList ∧ '@' ∉ "1.0".toList ∧ ':' ∉ "1.0".toList := by
  have hname : ImageName.parse "localhost:5000/os".toList =
      .ok ⟨"localhost:5000".toList, "os".toList⟩ := by rfl
  have htag : withTag "localhost:5000/os".toList "1.0".toList =
      .ok ⟨"localhost:5000/os".toList, ⟨"localhost:5000".toList, "os".toList⟩,
        some "1.0".toList, none⟩ := by rfl
  exact ⟨htag, (withTag_keeps_parts_iff hname (by decide) (by decide) htag).1 ⟨rfl, rfl⟩⟩

theorem withTag_moves_parts :
    (∀ parts ∈ [("evil".toList, "80/x:latest".toList), ("os@sha256".toList, "0".toList),
        ("os".toList, "1@sha256:0".toList)],
      Text.IsTrimmed parts.1 ∧ Text.IsTrimmed parts.2 ∧
        ∃ image r, ImageName.parse parts.1 = .ok image ∧ withTag parts.1 parts.2 = .ok r ∧
          r.tag ≠ some parts.2 ∧ r.manifestReference ≠ parts.2) ∧
      ∃ r, withTag "evil".toList "80/x:latest".toList = .ok r ∧
        r.image = ⟨"evil:80".toList, "x".toList⟩ := by
  refine ⟨fun parts hparts => ?_, _, rfl, rfl⟩
  simp only [List.mem_cons, List.not_mem_nil, or_false] at hparts
  rcases hparts with rfl | rfl | rfl
  · exact ⟨by decide, by decide, _, _, rfl, rfl, by decide, by decide⟩
  · exact ⟨by decide, by decide, _, _, rfl, rfl, by decide, by decide⟩
  · exact ⟨by decide, by decide, _, _, rfl, rfl, by decide, by decide⟩

section Forms

variable {before after : Text}

structure ReadsAs (t : Text) (r : ImageReference) (asked : Text) : Prop where
  parses : parse t = .ok r
  shown : r.toText = Text.trim t
  asks : r.manifestReference = asked

def IsRefused (t : Text) : Prop :=
  ∃ reason, parse t = .error (.invalidReference (Text.trim t) reason)

theorem parse_surrounded (hbefore : ∀ c ∈ before, Text.isBlank c)
    (hafter : ∀ c ∈ after, Text.isBlank c) (t : Text) : parse (before ++ t ++ after) = parse t := by
  rw [parse, parse, Text.trim_surrounded hbefore hafter]

theorem ReadsAs.surrounded {asked : Text} (hbefore : ∀ c ∈ before, Text.isBlank c)
    (hafter : ∀ c ∈ after, Text.isBlank c) (h : ReadsAs t r asked) :
    ReadsAs (before ++ t ++ after) r asked where
  parses := (parse_surrounded hbefore hafter t).trans h.parses
  shown := h.shown.trans (Text.trim_surrounded hbefore hafter t).symm
  asks := h.asks

theorem IsRefused.surrounded (hbefore : ∀ c ∈ before, Text.isBlank c)
    (hafter : ∀ c ∈ after, Text.isBlank c) (h : IsRefused t) :
    IsRefused (before ++ t ++ after) := by
  obtain ⟨reason, h⟩ := h
  refine ⟨reason, ?_⟩
  rw [parse_surrounded hbefore hafter, Text.trim_surrounded hbefore hafter, h]

theorem isRefused_of_split {reason : Text} (ht : Text.IsTrimmed t)
    (h : split t = .error (.invalidReference t reason)) : IsRefused t := by
  refine ⟨reason, ?_⟩
  rw [parse, Text.trim_eq_self ht, h]
  rfl

theorem split_append_digest {base : Text} (hbase : base ≠ []) (hat : '@' ∉ base)
    (hd : Digest.parse? d.toText = some d) :
    split (base ++ '@' :: d.toText) =
      match splitTag base with
      | some (name, tag) => .ok (name, nonempty tag, some d)
      | none => .ok (base, none, some d) := by
  have hne : ¬ (base = [] ∨ d.toText = []) := by simp [hbase, Digest.toText]
  rw [split, Text.splitOnce_append hat]
  dsimp only
  rw [if_neg hne]
  rcases splitTag base with _ | ⟨name, tag⟩ <;> rw [hd]

theorem readsAs_of_split (ht : Text.IsTrimmed t) (hshown : r.toText = t)
    (hsplit : split t = .ok (r.name, r.tag, r.digest))
    (hname : ImageName.parse r.name = .ok r.image) : ReadsAs t r r.manifestReference where
  parses := by
    rw [parse_eq_ok_iff, Text.trim_eq_self ht]
    exact ⟨hsplit, hname⟩
  shown := hshown.trans (Text.trim_eq_self ht).symm
  asks := rfl

theorem refused_of_incomplete (hne : name ≠ []) (ht : Text.IsTrimmed name) (hat : '@' ∉ name)
    (hnone : splitTag name = none) :
    ∀ t ∈ [name, name ++ [':'], name ++ ['@']], IsRefused t := by
  have hcolon : Text.IsTrimmed (name ++ [':']) := ht.append_cons hne (by decide) (by simp)
  have hsign : Text.IsTrimmed (name ++ ['@']) := ht.append_cons hne (by decide) (by simp)
  have hbare : split name =
      .error (.invalidReference name "expected name:tag or name@digest".toList) := by
    rw [split, Text.splitOnce_eq_none.2 hat, hnone]
  have hnoTag : split (name ++ [':']) =
      .error (.invalidReference (name ++ [':']) "empty tag".toList) := by
    rw [split, Text.splitOnce_eq_none.2 (by simpa using hat), splitTag_append (by simp) (by simp)]
    rfl
  have hnoDigest : split (name ++ ['@']) =
      .error (.invalidReference (name ++ ['@']) "empty name or digest".toList) := by
    rw [split, Text.splitOnce_append hat]
    simp
  simp only [List.mem_cons, List.not_mem_nil, or_false, forall_eq_or_imp, forall_eq]
  exact ⟨isRefused_of_split ht hbare, isRefused_of_split hcolon hnoTag,
    isRefused_of_split hsign hnoDigest⟩

theorem forms_read_as_written (h : Plain name tag image)
    (hport : ∀ rest, ':' :: rest <:+ name → '/' ∈ rest)
    (hd : Digest.parse? d.toText = some d) (hbefore : ∀ c ∈ before, Text.isBlank c)
    (hafter : ∀ c ∈ after, Text.isBlank c) :
    ReadsAs (before ++ (name ++ ':' :: tag) ++ after) ⟨name, image, some tag, none⟩ tag ∧
      ReadsAs (before ++ (name ++ '@' :: d.toText) ++ after) ⟨name, image, none, some d⟩
        d.toText ∧
      ReadsAs (before ++ (name ++ ':' :: tag ++ '@' :: d.toText) ++ after)
        ⟨name, image, some tag, some d⟩ d.toText ∧
      ∀ t ∈ [name, name ++ [':'], name ++ ['@']], IsRefused (before ++ t ++ after) := by
  have hne : name ≠ [] := (ImageName.parse_eq_ok h.name_parses).2
  have hdigest : ∀ c ∈ d.toText.getLast?, Text.isBlank c = false :=
    fun c => Digest.isBlank_of_mem_getLast? hd
  have hsign {c : Char} (hc : c ∈ "/:@".toList) : c ∉ tag := fun htag => (h.tag_chars c htag).1 hc
  have htag : splitTag (name ++ ':' :: tag) = some (name, tag) :=
    splitTag_append (hsign (by decide)) (hsign (by decide))
  have hnone : splitTag name = none := by
    refine Option.eq_none_iff_forall_ne_some.2 fun ⟨host, rest⟩ hcut => ?_
    obtain ⟨hname, -, hslash⟩ := splitTag_eq_some_iff.1 hcut
    exact hslash (hport rest ⟨host, hname.symm⟩)
  have hbase : '@' ∉ name ++ ':' :: tag := by
    simpa [h.at_not_mem] using hsign (c := '@') (by decide)
  refine ⟨.surrounded hbefore hafter ⟨withTag_of_plain h, ?_, rfl⟩,
    .surrounded hbefore hafter (readsAs_of_split ?_ ?_ ?_ h.name_parses),
    .surrounded hbefore hafter (readsAs_of_split ?_ ?_ ?_ h.name_parses), fun t ht => ?_⟩
  · rw [Text.trim_eq_self h.isTrimmed]
    simp [toText]
  · exact h.trimmed.append_cons hne (by decide) hdigest
  · simp [toText]
  · rw [split_append_digest hne h.at_not_mem hd, hnone]
  · exact h.isTrimmed.append_cons (by simp) (by decide) hdigest
  · simp [toText]
  · rw [split_append_digest (by simp) hbase hd, htag]
    simp [nonempty, h.tag_ne_nil]
  · exact (refused_of_incomplete hne h.trimmed h.at_not_mem hnone t ht).surrounded hbefore hafter

theorem forms_read_as_written_of_port :
    ReadsAs " localhost:5000/org/os:1.0@sha256:abc\n".toList
        ⟨"localhost:5000/org/os".toList, ⟨"localhost:5000".toList, "org/os".toList⟩,
          some "1.0".toList, some ⟨Digest.sha256, "abc".toList⟩⟩ "sha256:abc".toList ∧
      IsRefused " localhost:5000/org/os\n".toList := by
  have hplain : Plain "localhost:5000/org/os".toList "1.0".toList
      ⟨"localhost:5000".toList, "org/os".toList⟩ :=
    ⟨rfl, by decide, by decide, by decide, by simp; decide⟩
  have hport : ∀ rest, ':' :: rest <:+ "localhost:5000/org/os".toList → '/' ∈ rest := by
    simp [List.suffix_cons_iff]
  have hd : Digest.parse? (Digest.toText ⟨Digest.sha256, "abc".toList⟩) =
      some ⟨Digest.sha256, "abc".toList⟩ := by decide
  have hspace : ∀ c ∈ [' '], Text.isBlank c := by simp [Text.isBlank]
  have hline : ∀ c ∈ ['\n'], Text.isBlank c := by simp [Text.isBlank]
  obtain ⟨-, -, hboth, hrefused⟩ := forms_read_as_written hplain hport hd hspace hline
  exact ⟨hboth, hrefused _ (.head _)⟩

end Forms

end ImageReference

end NetBoot
