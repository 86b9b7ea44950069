import NetBoot.Proofs.Image.FirstMatch
import NetBoot.Registry.Resolver

namespace NetBoot

namespace Selection

variable {flavor architecture : Text} {entry : Descriptor} {entries entries' : List Descriptor}

structure LegacyEntry (flavor architecture : Text) (entry : Descriptor) : Prop where
  flavored : ∃ cname, entry.annotation? Annotations.cname = some cname ∧ flavor <+: cname
  architecture : entry.annotation? Annotations.architecture = some architecture

def PlatformEntry (architecture : Text) (entry : Descriptor) : Prop :=
  ∃ platform, entry.platform = some platform ∧ platform.architecture = architecture

def Unmatched (flavor architecture : Text) (entry : Descriptor) : Prop :=
  ¬ LegacyEntry flavor architecture entry ∧ ¬ PlatformEntry architecture entry

theorem isLegacyMatch_iff :
    isLegacyMatch flavor architecture entry ↔ LegacyEntry flavor architecture entry := by
  unfold isLegacyMatch
  rw [Bool.and_eq_true, decide_eq_true_eq]
  cases hcname : entry.annotation? Annotations.cname with
  | none =>
      constructor
      · rintro ⟨hflavor, -⟩
        exact nomatch hflavor
      · rintro ⟨⟨cname, hcname', -⟩, -⟩
        exact nomatch hcname.symm.trans hcname'
  | some cname =>
      constructor
      · rintro ⟨hflavor, harchitecture⟩
        exact ⟨⟨cname, hcname, Text.startsWith_iff.1 hflavor⟩, harchitecture⟩
      · rintro ⟨⟨cname', hcname', hflavor⟩, harchitecture⟩
        cases hcname.symm.trans hcname'
        exact ⟨Text.startsWith_iff.2 hflavor, harchitecture⟩

theorem isPlatformMatch_iff :
    isPlatformMatch architecture entry ↔ PlatformEntry architecture entry := by
  simp [isPlatformMatch, PlatformEntry, Descriptor.architecture?]

instance : DecidablePred (LegacyEntry flavor architecture) :=
  fun _ => decidable_of_iff _ isLegacyMatch_iff

instance : DecidablePred (PlatformEntry architecture) :=
  fun _ => decidable_of_iff _ isPlatformMatch_iff

instance : DecidablePred (Unmatched flavor architecture) :=
  fun _ => inferInstanceAs (Decidable (_ ∧ _))

theorem entry?_eq_some_iff : entry? flavor architecture entries = some entry ↔
    IsFirst (LegacyEntry flavor architecture) entries entry ∨
      (∀ e ∈ entries, ¬ LegacyEntry flavor architecture e) ∧
        IsFirst (PlatformEntry architecture) entries entry := by
  rw [Selection.entry?, Option.orElse_eq_orElse, Option.orElse_eq_or, Option.or_eq_some_iff,
    find?_eq_some_iff fun _ => isLegacyMatch_iff, find?_eq_none_iff fun _ => isLegacyMatch_iff,
    find?_eq_some_iff fun _ => isPlatformMatch_iff]

theorem entry?_eq_none_iff : entry? flavor architecture entries = none ↔
    ∀ e ∈ entries, Unmatched flavor architecture e := by
  rw [Selection.entry?, Option.orElse_eq_orElse, Option.orElse_eq_or, Option.or_eq_none_iff,
    find?_eq_none_iff fun _ => isLegacyMatch_iff, find?_eq_none_iff fun _ => isPlatformMatch_iff]
  constructor
  · rintro ⟨hlegacy, hplatform⟩ e he
    exact ⟨hlegacy e he, hplatform e he⟩
  · intro h
    exact ⟨fun e he => (h e he).1, fun e he => (h e he).2⟩

theorem entry?_perm (hlegacy : AtMostOne (LegacyEntry flavor architecture) entries)
    (hplatform : AtMostOne (PlatformEntry architecture) entries) (h : entries.Perm entries') :
    entry? flavor architecture entries = entry? flavor architecture entries' := by
  unfold entry?
  rw [find?_perm (fun _ => isLegacyMatch_iff) hlegacy h,
    find?_perm (fun _ => isPlatformMatch_iff) hplatform h]

theorem SameBut.entry?_eq (h : SameBut (Unmatched flavor architecture) entries entries') :
    entry? flavor architecture entries = entry? flavor architecture entries' := by
  have hlegacy (e : Descriptor) (he : Unmatched flavor architecture e) :
      isLegacyMatch flavor architecture e = false :=
    Bool.eq_false_iff.2 (mt isLegacyMatch_iff.1 he.1)
  have hplatform (e : Descriptor) (he : Unmatched flavor architecture e) :
      isPlatformMatch architecture e = false :=
    Bool.eq_false_iff.2 (mt isPlatformMatch_iff.1 he.2)
  unfold entry?
  rw [h.find?_eq hlegacy, h.find?_eq hplatform]

end Selection

namespace Resolver

open Selection

theorem selectEntry_prefers_flavor (r : Resolver) (architecture : Text) (i : ImageIndex) :
    (∀ entry, selectEntry r architecture i = .ok entry ↔
      IsFirst (LegacyEntry r.flavor architecture) i.manifests entry ∨
        (∀ e ∈ i.manifests, ¬ LegacyEntry r.flavor architecture e) ∧
          IsFirst (PlatformEntry architecture) i.manifests entry) ∧
    (∀ error, selectEntry r architecture i = .error error ↔
      error = .architectureNotFound architecture ∧
        ∀ e ∈ i.manifests, Unmatched r.flavor architecture e) ∧
    (AtMostOne (LegacyEntry r.flavor architecture) i.manifests →
      AtMostOne (PlatformEntry architecture) i.manifests →
        ∀ i' : ImageIndex, i.manifests.Perm i'.manifests →
          selectEntry r architecture i = selectEntry r architecture i') ∧
    ∀ i' : ImageIndex, SameBut (Unmatched r.flavor architecture) i.manifests i'.manifests →
      selectEntry r architecture i = selectEntry r architecture i' := by
  refine ⟨fun entry => ?_, fun error => ?_, fun hlegacy hplatform i' h => ?_, fun i' h => ?_⟩
  · rw [← entry?_eq_some_iff, selectEntry]
    cases entry? r.flavor architecture i.manifests <;> simp
  · rw [← entry?_eq_none_iff, selectEntry]
    cases entry? r.flavor architecture i.manifests <;> simp [eq_comm]
  · rw [selectEntry, selectEntry, entry?_perm hlegacy hplatform h]
  · rw [selectEntry, selectEntry, h.entry?_eq]

def platformEntry : Descriptor :=
  (Descriptor.plain MediaType.ociManifest "sha256:1".toList 1).withArchitecture "amd64".toList

def annotatedEntry (digest cname : Text) : Descriptor :=
  Descriptor.withAnnotation
    (Descriptor.withAnnotation (Descriptor.plain MediaType.ociManifest digest 1)
      Annotations.cname cname)
    Annotations.architecture "amd64".toList

def flavoredEntry : Descriptor :=
  annotatedEntry "sha256:2".toList "metal_pxe-amd64".toList

def strangeEntry : Descriptor :=
  annotatedEntry "sha256:3".toList "kvm-amd64".toList

def selected (entries : List Descriptor) : Except RegistryError Descriptor :=
  selectEntry ⟨{}, "metal_pxe".toList⟩ "amd64".toList (.ofEntries entries)

theorem flavored_entry_selected_anywhere :
    (selected [platformEntry, strangeEntry, flavoredEntry]).toOption = some flavoredEntry ∧
      selected [platformEntry, strangeEntry, flavoredEntry] =
        selected [flavoredEntry, strangeEntry, platformEntry] ∧
      selected [platformEntry, strangeEntry, flavoredEntry] =
        selected [strangeEntry, strangeEntry, platformEntry, flavoredEntry] := by
  have hlegacy : AtMostOne (LegacyEntry "metal_pxe".toList "amd64".toList)
      [platformEntry, strangeEntry, flavoredEntry] := by decide
  have hplatform : AtMostOne (PlatformEntry "amd64".toList)
      [platformEntry, strangeEntry, flavoredEntry] := by decide
  have hstrange : Unmatched "metal_pxe".toList "amd64".toList strangeEntry := by decide
  obtain ⟨-, -, horder, hothers⟩ := selectEntry_prefers_flavor ⟨{}, "metal_pxe".toList⟩
    "amd64".toList (.ofEntries [platformEntry, strangeEntry, flavoredEntry])
  refine ⟨by decide, horder hlegacy hplatform (.ofEntries _) (by decide), hothers (.ofEntries _) ?_⟩
  exact .added _ hstrange (.added _ hstrange (.shared _ (.dropped _ hstrange (.shared _ .nil))))

end Resolver

end NetBoot
