import NetBoot.Image.Document.Reader
import NetBoot.Proofs.Json.Generic

namespace NetBoot

open Json

namespace Annotations

theorem erase_erase (key other : Text) (a : Annotations) :
    erase key (erase other a) = erase other (erase key a) := by
  simp only [erase, List.filter_filter, Bool.and_comm]

theorem erase_set_self (key value : Text) (a : Annotations) :
    erase key (set key value a) = erase key a := by
  simp [set, erase]

theorem erase_set_of_ne {key other : Text} (h : key ≠ other) (value : Text) (a : Annotations) :
    erase key (set other value a) = set other value (erase key a) := by
  have hother : erase key [(other, value)] = [(other, value)] := by
    simp [erase, Ne.symm h]
  rw [set, set, erase_erase, erase, List.filter_append, ← erase, ← erase, hother]

theorem set_eq_of_erase_eq {key : Text} {a b : Annotations} (h : erase key a = erase key b)
    (value : Text) : set key value a = set key value b := by
  rw [set, set, h]

end Annotations

namespace Document

def readAnnotation (a : Annotations) (key : Text) (v : Tree) : Except Fault Annotations :=
  v.toText.map fun t => Annotations.set key t a

theorem readAnnotations_object (members : Members) :
    readAnnotations (.object members) = members.fold readAnnotation [] := rfl

/-- A key that comes again makes up for any difference in what it had before. -/
theorem fold_readAnnotation_congr {key : Text} {members : Members} {a b a' : Annotations}
    (hkey : some key ∈ members.keys) (hab : Annotations.erase key a = Annotations.erase key b)
    (ha : members.fold readAnnotation a = .ok a') : members.fold readAnnotation b = .ok a' := by
  match members with
  | .close => simp [Members.keys] at hkey
  | .fault .. => simp [Members.keys] at hkey
  | .member none _ _ => simp [Members.fold] at ha
  | .member (some k) v rest =>
      obtain ⟨a₁, hstep, hfold⟩ := Members.fold_member.1 ha
      obtain ⟨t, ht, rfl⟩ := Except.map_eq_ok.1 hstep
      refine Members.fold_member.2 ⟨Annotations.set k t b, Except.map_eq_ok.2 ⟨t, ht, rfl⟩, ?_⟩
      by_cases hk : key = k
      · subst hk
        rw [← Annotations.set_eq_of_erase_eq hab]
        exact hfold
      · have hrest : some key ∈ rest.keys := by simpa [Members.keys, hk] using hkey
        refine fold_readAnnotation_congr hrest ?_ hfold
        rw [Annotations.erase_set_of_ne hk, Annotations.erase_set_of_ne hk, hab]

theorem stableStep_readAnnotation : StableStep readAnnotation where
  stable a key := stable_toText.map _
  superseded := by
    intro a key v a₁ rest a' hstep hkey hfold
    obtain ⟨t, ht, rfl⟩ := Except.map_eq_ok.1 hstep
    exact fold_readAnnotation_congr hkey (Annotations.erase_set_self key t a) hfold

theorem stable_readAnnotations : Stable readAnnotations := by
  intro depth v v' a hv ha
  cases v with
  | object members =>
      obtain ⟨d, members', hmembers, rfl⟩ := depth_of_generic_object hv
      rw [readAnnotations_object] at ha ⊢
      exact stableStep_readAnnotation.fold_generic hmembers ha
  | _ => simp [readAnnotations] at ha

def PlatformFields.slots : List (Slot PlatformFields) :=
  [.of architectureKey (·.architecture) (fun f x => { f with architecture := x }) Tree.toText,
    .of osKey (·.os) (fun f x => { f with os := x }) Tree.toText,
    .of variantKey (·.variant) (fun f x => { f with variant := x }) (Tree.toOption Tree.toText)]

theorem PlatformFields.lawful : ∀ slot ∈ slots, slot.Lawful slots := by
  simp only [slots, List.forall_mem_cons]
  refine ⟨?architecture, ?os, ?variant, List.forall_mem_nil _⟩
  case architecture => exact .of (fun _ _ => rfl) stable_toText (by simp [Slot.of])
  case os => exact .of (fun _ _ => rfl) stable_toText (by simp [Slot.of])
  case variant => exact .of (fun _ _ => rfl) stable_toText.toOption (by simp [Slot.of])

theorem stableOrder_platformInOrder : StableOrder platformInOrder := by
  refine .next stable_toText _ fun architecture => ?_
  refine .next stable_toText _ fun os => ?_
  refine .next stable_toText.toOption _ fun variant => ?_
  exact .pure _

theorem stable_readPlatform : Stable readPlatform :=
  (Slot.stableStep_readAll PlatformFields.lawful).toRecord _ _ stableOrder_platformInOrder

def DescriptorFields.slots : List (Slot DescriptorFields) :=
  [.of mediaTypeKey (·.mediaType) (fun f x => { f with mediaType := x }) Tree.toText,
    .of digestKey (·.digest) (fun f x => { f with digest := x }) Tree.toText,
    .of sizeKey (·.size) (fun f x => { f with size := x }) (Tree.toNatural sizeBound),
    .of platformKey (·.platform) (fun f x => { f with platform := x }) (Tree.toOption readPlatform),
    .of annotationsKey (·.annotations) (fun f x => { f with annotations := x })
      (Tree.toOption readAnnotations)]

theorem DescriptorFields.lawful : ∀ slot ∈ slots, slot.Lawful slots := by
  simp only [slots, List.forall_mem_cons]
  refine ⟨?mediaType, ?digest, ?size, ?platform, ?annotations, List.forall_mem_nil _⟩
  case mediaType => exact .of (fun _ _ => rfl) stable_toText (by simp [Slot.of])
  case digest => exact .of (fun _ _ => rfl) stable_toText (by simp [Slot.of])
  case size => exact .of (fun _ _ => rfl) (stable_toNatural sizeBound) (by simp [Slot.of])
  case platform => exact .of (fun _ _ => rfl) stable_readPlatform.toOption (by simp [Slot.of])
  case annotations => exact .of (fun _ _ => rfl) stable_readAnnotations.toOption (by simp [Slot.of])

theorem stableOrder_descriptorInOrder : StableOrder descriptorInOrder := by
  refine .next stable_toText _ fun mediaType => ?_
  refine .next stable_toText _ fun digest => ?_
  refine .next (stable_toNatural sizeBound) _ fun size => ?_
  refine .next stable_readPlatform.toOption _ fun platform => ?_
  refine .next stable_readAnnotations.toOption _ fun annotations => ?_
  exact .pure _

theorem stable_readDescriptor : Stable readDescriptor :=
  (Slot.stableStep_readAll DescriptorFields.lawful).toRecord _ _
    stableOrder_descriptorInOrder

def ManifestFields.slots : List (Slot ManifestFields) :=
  [.of schemaVersionKey (·.schemaVersion) (fun f x => { f with schemaVersion := x })
      (Tree.toNatural versionBound),
    .of mediaTypeKey (·.mediaType) (fun f x => { f with mediaType := x })
      (Tree.toOption Tree.toText),
    .of configKey (·.config) (fun f x => { f with config := x }) (Tree.toOption readDescriptor),
    .of layersKey (·.layers) (fun f x => { f with layers := x }) (Tree.toList readDescriptor),
    .of annotationsKey (·.annotations) (fun f x => { f with annotations := x })
      (Tree.toOption readAnnotations)]

theorem ManifestFields.lawful : ∀ slot ∈ slots, slot.Lawful slots := by
  simp only [slots, List.forall_mem_cons]
  refine ⟨?schemaVersion, ?mediaType, ?config, ?layers, ?annotations, List.forall_mem_nil _⟩
  case schemaVersion =>
    exact .of (fun _ _ => rfl) (stable_toNatural versionBound) (by simp [Slot.of])
  case mediaType => exact .of (fun _ _ => rfl) stable_toText.toOption (by simp [Slot.of])
  case config => exact .of (fun _ _ => rfl) stable_readDescriptor.toOption (by simp [Slot.of])
  case layers => exact .of (fun _ _ => rfl) stable_readDescriptor.toList (by simp [Slot.of])
  case annotations => exact .of (fun _ _ => rfl) stable_readAnnotations.toOption (by simp [Slot.of])

theorem stableOrder_manifestInOrder : StableOrder manifestInOrder := by
  refine .next (stable_toNatural versionBound) _ fun schemaVersion => ?_
  refine .next stable_toText.toOption _ fun mediaType => ?_
  refine .next stable_readDescriptor.toOption _ fun config => ?_
  refine .next stable_readDescriptor.toList _ fun layers => ?_
  refine .next stable_readAnnotations.toOption _ fun annotations => ?_
  exact .pure _

theorem stable_readManifest : Stable readManifest :=
  (Slot.stableStep_readAll ManifestFields.lawful).toRecord _ _
    stableOrder_manifestInOrder

def IndexFields.slots : List (Slot IndexFields) :=
  [.of schemaVersionKey (·.schemaVersion) (fun f x => { f with schemaVersion := x })
      (Tree.toNatural versionBound),
    .of mediaTypeKey (·.mediaType) (fun f x => { f with mediaType := x })
      (Tree.toOption Tree.toText),
    .of manifestsKey (·.manifests) (fun f x => { f with manifests := x })
      (Tree.toList readDescriptor),
    .of annotationsKey (·.annotations) (fun f x => { f with annotations := x })
      (Tree.toOption readAnnotations)]

theorem IndexFields.lawful : ∀ slot ∈ slots, slot.Lawful slots := by
  simp only [slots, List.forall_mem_cons]
  refine ⟨?schemaVersion, ?mediaType, ?manifests, ?annotations, List.forall_mem_nil _⟩
  case schemaVersion =>
    exact .of (fun _ _ => rfl) (stable_toNatural versionBound) (by simp [Slot.of])
  case mediaType => exact .of (fun _ _ => rfl) stable_toText.toOption (by simp [Slot.of])
  case manifests => exact .of (fun _ _ => rfl) stable_readDescriptor.toList (by simp [Slot.of])
  case annotations => exact .of (fun _ _ => rfl) stable_readAnnotations.toOption (by simp [Slot.of])

theorem stableOrder_indexInOrder : StableOrder indexInOrder := by
  refine .next (stable_toNatural versionBound) _ fun schemaVersion => ?_
  refine .next stable_toText.toOption _ fun mediaType => ?_
  refine .next stable_readDescriptor.toList _ fun manifests => ?_
  refine .next stable_readAnnotations.toOption _ fun annotations => ?_
  exact .pure _

theorem stable_readIndex : Stable readIndex :=
  (Slot.stableStep_readAll IndexFields.lawful).toRecord _ _ stableOrder_indexInOrder

end Document

end NetBoot
