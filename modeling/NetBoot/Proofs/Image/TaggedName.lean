import NetBoot.Image.Reference
import NetBoot.Proofs.Success

namespace NetBoot

namespace ImageName

def host? (name : Text) : Option Text :=
  match Text.splitOnce '/' name with
  | some (first, _) => if looksLikeHost first then some first else none
  | none => none

theorem registry_locate (name : Text) :
    (locate name).registry = (host? name).getD defaultRegistry := by
  unfold locate host?
  cases Text.splitOnce '/' name with
  | none => rfl
  | some p => by_cases hl : looksLikeHost p.1 = true <;> simp [hl]

theorem parse_eq_ok {name : Text} {image : ImageName} (h : parse name = .ok image) :
    image = locate name ∧ name ≠ [] := by
  simp only [parse] at h
  split at h
  · simp at h
  · next hn =>
      split at h
      · simp only [Except.ok.injEq] at h
        exact ⟨h.symm, fun hnil => hn (.inl hnil)⟩
      · simp at h

theorem isPlainSegment_of_parse {name : Text} {image : ImageName} (h : parse name = .ok image) :
    ∀ s ∈ Text.splitAll '/' image.repository, isPlainSegment s := by
  simp only [parse] at h
  split at h
  · cases h
  · split at h
    · next hall =>
        cases h
        exact List.all_eq_true.1 hall
    · cases h

theorem looksLikeHost_of_host? {name host : Text} (h : host? name = some host) :
    looksLikeHost host := by
  unfold host? at h
  split at h
  · split at h
    · next hlooks =>
        cases h
        exact hlooks
    · cases h
  · cases h

theorem looksLikeHost_registry {name : Text} {image : ImageName} (h : parse name = .ok image) :
    looksLikeHost image.registry := by
  rw [(parse_eq_ok h).1, registry_locate]
  cases hhost : host? name with
  | none => decide
  | some host => exact looksLikeHost_of_host? hhost

theorem registry_ne_nil {name : Text} {image : ImageName} (h : parse name = .ok image) :
    image.registry ≠ [] := by
  intro hnil
  have hlooks := looksLikeHost_registry h
  rw [hnil] at hlooks
  cases hlooks

theorem slash_not_mem_of_host? {name host : Text} (h : host? name = some host) : '/' ∉ host := by
  unfold host? at h
  split at h
  · next first rest hs =>
      split at h
      · simp only [Option.some.injEq] at h
        exact h ▸ (Text.splitOnce_eq_some hs).2
      · simp at h
  · simp at h

theorem slash_not_mem_registry {name : Text} {image : ImageName} (h : parse name = .ok image) :
    '/' ∉ image.registry := by
  rw [(parse_eq_ok h).1, registry_locate]
  cases hh : host? name with
  | none => decide
  | some host => exact slash_not_mem_of_host? hh

theorem at_not_mem_registry {name : Text} {image : ImageName} (h : parse name = .ok image)
    (hat : '@' ∉ name) : '@' ∉ image.registry := by
  rw [(parse_eq_ok h).1, registry_locate]
  cases hhost : host? name with
  | none => decide
  | some host =>
      unfold host? at hhost
      split at hhost
      · next first rest hs =>
          obtain ⟨rfl, -⟩ := Text.splitOnce_eq_some hs
          split at hhost
          · cases hhost
            exact fun hmem => hat (List.mem_append_left _ hmem)
          · cases hhost
      · cases hhost

theorem host?_append {t u : Text} (hu : '/' ∉ u) : host? (t ++ u) = host? t := by
  unfold host?
  cases hs : Text.splitOnce '/' t with
  | none =>
      have ht : '/' ∉ t := Text.splitOnce_eq_none.1 hs
      rw [Text.splitOnce_eq_none.2 (by simp [ht, hu])]
  | some p => rw [Text.splitOnce_append_left hs]

theorem looksLikeHost_iff {t : Text} : looksLikeHost t ↔ '.' ∈ t ∨ ':' ∈ t := by
  simp only [looksLikeHost, List.any_eq_true, Bool.or_eq_true, decide_eq_true_eq]
  constructor
  · rintro ⟨c, hc, rfl | rfl⟩
    · exact .inl hc
    · exact .inr hc
  · rintro (hc | hc)
    · exact ⟨'.', hc, .inl rfl⟩
    · exact ⟨':', hc, .inr rfl⟩

theorem looksLikeHost_dropWhile_isBlank (t : Text) :
    looksLikeHost (t.dropWhile Text.isBlank) = looksLikeHost t := by
  rw [Bool.eq_iff_iff, looksLikeHost_iff, looksLikeHost_iff, Text.mem_dropWhile_iff (by decide),
    Text.mem_dropWhile_iff (by decide)]

theorem host?_dropWhile_isBlank (name : Text) :
    host? (name.dropWhile Text.isBlank) = (host? name).map (·.dropWhile Text.isBlank) := by
  unfold host?
  cases hs : Text.splitOnce '/' name with
  | none =>
      have hn : '/' ∉ name.dropWhile Text.isBlank := by
        rw [Text.mem_dropWhile_iff (by decide)]
        exact Text.splitOnce_eq_none.1 hs
      rw [Text.splitOnce_eq_none.2 hn]
      rfl
  | some p =>
      obtain ⟨rfl, hp⟩ := Text.splitOnce_eq_some hs
      rw [Text.dropWhile_append_cons (by decide), Text.splitOnce_append
        (by rwa [Text.mem_dropWhile_iff (by decide)])]
      by_cases hl : looksLikeHost p.1 = true <;> simp [looksLikeHost_dropWhile_isBlank, hl]

theorem host?_append_of_mem {name t : Text} (hn : '/' ∈ name) :
    host? (name ++ t) = host? name := by
  unfold host?
  cases hs : Text.splitOnce '/' name with
  | none => exact absurd hn (Text.splitOnce_eq_none.1 hs)
  | some p => rw [Text.splitOnce_append_left hs]

theorem host?_eq_none {name : Text} (hn : '/' ∉ name) : host? name = none := by
  unfold host?
  rw [Text.splitOnce_eq_none.2 hn]

theorem host?_append_colon_of_not_mem {name tag : Text} (hn : '/' ∉ name) (ht : '/' ∈ tag) :
    ∃ port, host? (name ++ ':' :: tag) = some (name ++ ':' :: port) := by
  cases hs : Text.splitOnce '/' tag with
  | none => exact absurd ht (Text.splitOnce_eq_none.1 hs)
  | some p =>
      obtain ⟨rfl, hp⟩ := Text.splitOnce_eq_some hs
      refine ⟨p.1, ?_⟩
      have hsplit : Text.splitOnce '/' (name ++ ':' :: (p.1 ++ '/' :: p.2)) =
          some (name ++ ':' :: p.1, p.2) := by
        simpa using Text.splitOnce_append (a := name ++ ':' :: p.1) (b := p.2) (by simp [hn, hp])
      simp [host?, hsplit, looksLikeHost]

end ImageName

theorem Digest.slash_not_mem_of_parse? {t : Text} {d : Digest} (h : Digest.parse? t = some d) :
    '/' ∉ t := by
  obtain ⟨rfl, ha, he⟩ := Digest.parse?_eq_some h
  have hna : '/' ∉ d.algorithm := fun hm => by
    simpa [Digest.isAlgorithmChar] using List.all_eq_true.1 ha.2 '/' hm
  have hne : '/' ∉ d.encoded := fun hm => by
    simpa [Digest.isEncodedChar] using List.all_eq_true.1 he.2 '/' hm
  simp [Digest.toText, hna, hne]

namespace ImageReference

theorem splitTag_eq_some {t name tag : Text} (h : splitTag t = some (name, tag)) :
    t = name ++ ':' :: tag ∧ '/' ∉ tag := by
  unfold splitTag at h
  split at h
  · simp at h
  · next n g hs =>
      split at h
      · simp at h
      · next hg =>
          simp only [Option.some.injEq, Prod.mk.injEq] at h
          obtain ⟨rfl, rfl⟩ := h
          exact ⟨(Text.splitLast_eq_some hs).1, hg⟩

theorem splitTag_append {name tag : Text} (hcolon : ':' ∉ tag) (hslash : '/' ∉ tag) :
    splitTag (name ++ ':' :: tag) = some (name, tag) := by
  rw [splitTag, Text.splitLast_append hcolon]
  exact if_neg hslash

theorem split_eq_ok {t name : Text} {tag : Option Text} {digest : Option Digest}
    (h : split t = .ok (name, tag, digest)) : ∃ rest, t = name ++ rest ∧ '/' ∉ rest := by
  unfold split at h
  split at h
  · next base d hs =>
      obtain ⟨rfl, -⟩ := Text.splitOnce_eq_some hs
      split at h
      · simp at h
      · split at h
        · simp at h
        · next hd =>
            have hslash := Digest.slash_not_mem_of_parse? hd
            split at h
            · next hb =>
                obtain ⟨rfl, hg⟩ := splitTag_eq_some hb
                simp only [Except.ok.injEq, Prod.mk.injEq] at h
                refine ⟨_, by rw [← h.1, List.append_assoc], ?_⟩
                simp [hg, hslash]
            · simp only [Except.ok.injEq, Prod.mk.injEq] at h
              exact ⟨_, by rw [← h.1], by simp [hslash]⟩
  · split at h
    · simp at h
    · next hb =>
        obtain ⟨rfl, hg⟩ := splitTag_eq_some hb
        split at h
        · simp at h
        · simp only [Except.ok.injEq, Prod.mk.injEq] at h
          exact ⟨_, by rw [← h.1], by simp [hg]⟩

theorem at_not_mem_name {t name : Text} {tag : Option Text} {digest : Option Digest}
    (h : split t = .ok (name, tag, digest)) : '@' ∉ name := by
  unfold split at h
  split at h
  · next base d hs =>
      obtain ⟨-, hbase⟩ := Text.splitOnce_eq_some hs
      split at h
      · cases h
      · split at h
        · cases h
        · split at h
          · next hb =>
              obtain ⟨rfl, -⟩ := splitTag_eq_some hb
              cases h
              exact fun hat => hbase (List.mem_append_left _ hat)
          · cases h
            exact hbase
  · next hnone =>
      split at h
      · cases h
      · next hb =>
          obtain ⟨rfl, -⟩ := splitTag_eq_some hb
          split at h
          · cases h
          · cases h
            exact fun hat => Text.splitOnce_eq_none.1 hnone (List.mem_append_left _ hat)

theorem parse_eq_ok_iff {input : Text} {r : ImageReference} :
    parse input = .ok r ↔
      split (Text.trim input) = .ok (r.name, r.tag, r.digest) ∧
        ImageName.parse r.name = .ok r.image := by
  rw [parse]
  refine Except.bind_eq_ok.trans ⟨?_, ?_⟩
  · rintro ⟨⟨name, tag, digest⟩, hsplit, h⟩
    dsimp only at h
    split at h
    · cases h
    · obtain ⟨image, himage, h⟩ := Except.bind_eq_ok.1 h
      obtain rfl := Except.pure_eq_ok.1 h
      exact ⟨hsplit, himage⟩
  · rintro ⟨hsplit, himage⟩
    refine ⟨_, hsplit, ?_⟩
    dsimp only
    rw [if_neg (ImageName.parse_eq_ok himage).2, himage]
    rfl

theorem parse_eq_ok {input : Text} {r : ImageReference} (h : parse input = .ok r) :
    ImageName.parse r.name = .ok r.image ∧
      ∃ rest, Text.trim input = r.name ++ rest ∧ '/' ∉ rest := by
  obtain ⟨hsplit, himage⟩ := parse_eq_ok_iff.1 h
  exact ⟨himage, split_eq_ok hsplit⟩

theorem at_not_mem_registry {input : Text} {r : ImageReference} (h : parse input = .ok r) :
    '@' ∉ r.image.registry := by
  obtain ⟨hsplit, himage⟩ := parse_eq_ok_iff.1 h
  exact ImageName.at_not_mem_registry himage (at_not_mem_name hsplit)

structure Plain (name tag : Text) (image : ImageName) : Prop where
  name_parses : ImageName.parse name = .ok image
  at_not_mem : '@' ∉ name
  trimmed : Text.IsTrimmed name
  tag_ne_nil : tag ≠ []
  tag_chars : ∀ c ∈ tag, c ∉ "/:@".toList ∧ Text.isBlank c = false

theorem Plain.isTrimmed {name tag : Text} {image : ImageName} (h : Plain name tag image) :
    Text.IsTrimmed (name ++ ':' :: tag) :=
  h.trimmed.append_cons (ImageName.parse_eq_ok h.name_parses).2 (by decide)
    fun c hc => (h.tag_chars c (List.mem_of_getLast? hc)).2

theorem withTag_of_plain {name tag : Text} {image : ImageName} (h : Plain name tag image) :
    withTag name tag = .ok ⟨name, image, some tag, none⟩ := by
  have hsign {c : Char} (hc : c ∈ "/:@".toList) : c ∉ tag := fun htag => (h.tag_chars c htag).1 hc
  have hat : Text.splitOnce '@' (name ++ ':' :: tag) = none := by
    rw [Text.splitOnce_eq_none, List.mem_append, List.mem_cons]
    rintro (hc | hc | hc)
    · exact h.at_not_mem hc
    · cases hc
    · exact hsign (by decide) hc
  have hsplit : split (name ++ ':' :: tag) = .ok (name, some tag, none) := by
    rw [split, hat]
    dsimp only
    rw [splitTag_append (hsign (by decide)) (hsign (by decide))]
    exact if_neg h.tag_ne_nil
  rw [withTag, parse_eq_ok_iff, Text.trim_eq_self h.isTrimmed]
  exact ⟨hsplit, h.name_parses⟩

/-- Whether a tag leaves a name on its registry: it must not make a host of a name without slashes,
and the host must not lose blanks in front of it. -/
def KeepsRegistry (name tag : Text) : Prop :=
  ('/' ∈ name ∨ '/' ∉ tag) ∧
    ∀ host ∈ ImageName.host? name, host.dropWhile Text.isBlank = host

theorem host?_withTag {name tag : Text} {r : ImageReference} (h : withTag name tag = .ok r) :
    ImageName.host? r.name =
      ImageName.host?
        (name.dropWhile Text.isBlank ++ ':' :: Text.dropEndWhile Text.isBlank tag) := by
  obtain ⟨-, rest, ht, hslash⟩ := parse_eq_ok h
  rw [Text.trim_append_cons (by decide)] at ht
  rw [ht, ImageName.host?_append hslash]

theorem registry_withTag_eq_iff {name tag : Text} {image : ImageName} {r : ImageReference}
    (hi : ImageName.parse name = .ok image) (hr : withTag name tag = .ok r) :
    r.image.registry = image.registry ↔ KeepsRegistry name tag := by
  have hreg : r.image.registry = (ImageName.host? r.name).getD ImageName.defaultRegistry := by
    rw [(ImageName.parse_eq_ok (parse_eq_ok hr).1).1, ImageName.registry_locate]
  rw [hreg, (ImageName.parse_eq_ok hi).1, ImageName.registry_locate, host?_withTag hr]
  by_cases hn : '/' ∈ name
  · have hn' : '/' ∈ name.dropWhile Text.isBlank := (Text.mem_dropWhile_iff (by decide) _).2 hn
    rw [ImageName.host?_append_of_mem hn', ImageName.host?_dropWhile_isBlank]
    cases hh : ImageName.host? name with
    | none => simp [KeepsRegistry, hn, hh]
    | some host => simp [KeepsRegistry, hn, hh]
  · have hn' : '/' ∉ name.dropWhile Text.isBlank :=
      fun h => hn ((Text.mem_dropWhile_iff (by decide) _).1 h)
    by_cases ht : '/' ∈ tag
    · obtain ⟨port, hport⟩ := ImageName.host?_append_colon_of_not_mem hn'
        ((Text.mem_dropEndWhile_iff (p := Text.isBlank) (by decide) tag).2 ht)
      have hcolon : ':' ∉ ImageName.defaultRegistry := by decide
      rw [hport, ImageName.host?_eq_none hn]
      simp only [KeepsRegistry, hn, ht, Option.getD_some, Option.getD_none, not_true, or_self,
        false_and, iff_false]
      intro heq
      exact hcolon (heq ▸ by simp)
    · have ht' : '/' ∉ Text.dropEndWhile Text.isBlank tag :=
        fun h => ht ((Text.mem_dropEndWhile_iff (by decide) _).1 h)
      rw [ImageName.host?_eq_none (by simp [hn', ht']), ImageName.host?_eq_none hn]
      simp [KeepsRegistry, ht, ImageName.host?_eq_none hn]

end ImageReference

end NetBoot
