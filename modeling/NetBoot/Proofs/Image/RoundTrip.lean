import NetBoot.Proofs.Image.StableReaders
import NetBoot.Proofs.Json.ReadBack
import NetBoot.Proofs.Text.Keys

namespace NetBoot

open Json

namespace Annotations

def IsProper (a : Annotations) : Prop := (a.map Prod.fst).Nodup

theorem set_of_not_mem {key value : Text} {a : Annotations} (h : key ∉ a.map Prod.fst) :
    set key value a = a ++ [(key, value)] := by
  rw [set, erase, Text.filter_key_of_not_mem h]

theorem IsProper.set {a : Annotations} (h : a.IsProper) (key value : Text) :
    (set key value a).IsProper := by
  rw [IsProper, Annotations.set, List.map_append, List.nodup_append]
  refine ⟨Text.nodup_keys_filter h key, by simp, ?_⟩
  intro name hname other hother heq
  rw [List.map_cons, List.map_nil, List.mem_singleton] at hother
  rw [heq, hother] at hname
  exact (Text.mem_keys_filter.1 hname).2 rfl

end Annotations

namespace Document

theorem leads_annotations {a b : Annotations} (h : (b ++ a).IsProper) :
    Leads readAnnotation b (a.map fun p => (p.1, .text p.2)) (b ++ a) := by
  induction a generalizing b with
  | nil =>
      rw [List.append_nil]
      exact Leads.nil b
  | cons p a ih =>
      obtain ⟨key, value⟩ := p
      have hkey : key ∉ b.map Prod.fst := by
        intro hmem
        rw [Annotations.IsProper, List.map_append, List.nodup_append] at h
        exact h.2.2 key hmem key (.head _) rfl
      have hstep : readAnnotation b key (.text value) = .ok (b ++ [(key, value)]) :=
        congrArg Except.ok (Annotations.set_of_not_mem hkey)
      have hassoc : b ++ (key, value) :: a = (b ++ [(key, value)]) ++ a := by simp
      rw [hassoc] at h ⊢
      exact Leads.member hstep (ih h)

theorem readsBack_annotations :
    ReadsBack 1 Annotations.IsProper writeAnnotations readAnnotations where
  read_write a ha := leads_annotations (b := []) ha
  written a _ k := by
    change (Members.ofList (a.map fun p => (p.1, Tree.text p.2))).Written k
    rw [members_written]
    intro m hm
    obtain ⟨p, -, rfl⟩ := List.mem_map.1 hm
    exact readsBack_text.written p.2 trivial k
  ne_null a := nofun

theorem getD_map_some {α : Type} (o : Option α) : (o.map some).getD none = o := by
  cases o <;> rfl

theorem readsBack_platform : ReadsBack 1 (fun _ => True) writePlatform readPlatform where
  read_write p _ := by
    have harchitecture : PlatformFields.read ⟨none, none, none⟩ architectureKey
        (.text p.architecture) = .ok ⟨some p.architecture, none, none⟩ := rfl
    have hos : PlatformFields.read ⟨some p.architecture, none, none⟩ osKey (.text p.os) =
        .ok ⟨some p.architecture, some p.os, none⟩ := rfl
    have hvariant : ∀ t ∈ p.variant, PlatformFields.read ⟨some p.architecture, some p.os, none⟩
        variantKey (.text t) = .ok ⟨some p.architecture, some p.os, some (some t)⟩ :=
      fun t _ => rfl
    refine toRecord_writeObject (Leads.append (.member harchitecture (.member hos (.nil _)))
      (.optional (PlatformFields.mk (some p.architecture) (some p.os)) hvariant)) ?_
    simp only [PlatformFields.build, getD_map_some]
    rfl
  written p _ k := by
    change (Members.ofList _).Written k
    rw [members_written]
    simp only [List.mem_append]
    rintro m (hm | hm)
    · simp only [List.mem_cons, List.not_mem_nil, or_false] at hm
      rcases hm with rfl | rfl
      · exact readsBack_text.written p.architecture trivial k
      · exact readsBack_text.written p.os trivial k
    · exact readsBack_text.written_optional (fun _ _ => trivial) k m hm
  ne_null p := nofun

end Document

structure Descriptor.IsProper (d : Descriptor) : Prop where
  size_lt : d.size < Document.sizeBound
  annotations : ∀ a ∈ d.annotations, a.IsProper

structure Manifest.IsProper (m : Manifest) : Prop where
  schemaVersion_lt : m.schemaVersion < Document.versionBound
  config : ∀ d ∈ m.config, d.IsProper
  layers : ∀ d ∈ m.layers, d.IsProper
  annotations : ∀ a ∈ m.annotations, a.IsProper

structure ImageIndex.IsProper (i : ImageIndex) : Prop where
  schemaVersion_lt : i.schemaVersion < Document.versionBound
  manifests : ∀ d ∈ i.manifests, d.IsProper
  annotations : ∀ a ∈ i.annotations, a.IsProper

namespace Document

theorem readsBack_size : ReadsBack 0 (· < sizeBound) Tree.natural (Tree.toNatural sizeBound) :=
  readsBack_natural (Nat.le_refl _)

theorem readsBack_version :
    ReadsBack 0 (· < versionBound) Tree.natural (Tree.toNatural versionBound) :=
  readsBack_natural (by decide)

theorem readsBack_descriptor :
    ReadsBack 2 Descriptor.IsProper writeDescriptor readDescriptor where
  read_write d hd := by
    have hmediaType : DescriptorFields.read ⟨none, none, none, none, none⟩ mediaTypeKey
        (.text d.mediaType) = .ok ⟨some d.mediaType, none, none, none, none⟩ := rfl
    have hdigest : DescriptorFields.read ⟨some d.mediaType, none, none, none, none⟩ digestKey
        (.text d.digest) = .ok ⟨some d.mediaType, some d.digest, none, none, none⟩ := rfl
    have hsize : DescriptorFields.read ⟨some d.mediaType, some d.digest, none, none, none⟩ sizeKey
        (.natural d.size) = .ok ⟨some d.mediaType, some d.digest, some d.size, none, none⟩ :=
      Except.map_eq_ok.2 ⟨_, readsBack_size.once hd.size_lt, rfl⟩
    have hplatform : ∀ p ∈ d.platform, DescriptorFields.read
        ⟨some d.mediaType, some d.digest, some d.size, none, none⟩ platformKey (writePlatform p) =
          .ok ⟨some d.mediaType, some d.digest, some d.size, some (some p), none⟩ :=
      fun p _ => Except.map_eq_ok.2 ⟨_, readsBack_platform.once_toOption trivial, rfl⟩
    have hannotations : ∀ a ∈ d.annotations, DescriptorFields.read
        ⟨some d.mediaType, some d.digest, some d.size, d.platform.map some, none⟩ annotationsKey
          (writeAnnotations a) = .ok ⟨some d.mediaType, some d.digest, some d.size,
            d.platform.map some, some (some a)⟩ :=
      fun a ha => Except.map_eq_ok.2
        ⟨_, readsBack_annotations.once_toOption (hd.annotations a ha), rfl⟩
    refine toRecord_writeObject (Leads.append (Leads.append
      (.member hmediaType (.member hdigest (.member hsize (.nil _))))
      (.optional (fun o => DescriptorFields.mk (some d.mediaType) (some d.digest) (some d.size) o
        none) hplatform))
      (.optional (DescriptorFields.mk (some d.mediaType) (some d.digest) (some d.size)
        (d.platform.map some)) hannotations)) ?_
    simp only [DescriptorFields.build, getD_map_some]
    rfl
  written d hd k := by
    change (Members.ofList _).Written (k + 1)
    rw [members_written]
    simp only [List.mem_append]
    rintro m ((hm | hm) | hm)
    · simp only [List.mem_cons, List.not_mem_nil, or_false] at hm
      rcases hm with rfl | rfl | rfl
      · exact readsBack_text.written d.mediaType trivial (k + 1)
      · exact readsBack_text.written d.digest trivial (k + 1)
      · exact readsBack_size.written d.size hd.size_lt (k + 1)
    · exact readsBack_platform.written_optional (fun _ _ => trivial) k m hm
    · exact readsBack_annotations.written_optional hd.annotations k m hm
  ne_null d := nofun

theorem readsBack_manifest : ReadsBack 4 Manifest.IsProper writeManifest readManifest where
  read_write m hm := by
    have hversion : ManifestFields.read ⟨none, none, none, none, none⟩ schemaVersionKey
        (.natural m.schemaVersion) = .ok ⟨some m.schemaVersion, none, none, none, none⟩ :=
      Except.map_eq_ok.2 ⟨_, readsBack_version.once hm.schemaVersion_lt, rfl⟩
    have hmediaType : ∀ t ∈ m.mediaType, ManifestFields.read
        ⟨some m.schemaVersion, none, none, none, none⟩ mediaTypeKey (.text t) =
          .ok ⟨some m.schemaVersion, some (some t), none, none, none⟩ := fun t _ => rfl
    have hconfig : ∀ d ∈ m.config, ManifestFields.read
        ⟨some m.schemaVersion, m.mediaType.map some, none, none, none⟩ configKey
          (writeDescriptor d) =
            .ok ⟨some m.schemaVersion, m.mediaType.map some, some (some d), none, none⟩ :=
      fun d hd => Except.map_eq_ok.2
        ⟨_, readsBack_descriptor.once_toOption (hm.config d hd), rfl⟩
    have hlayers : ManifestFields.read
        ⟨some m.schemaVersion, m.mediaType.map some, m.config.map some, none, none⟩ layersKey
          (writeList writeDescriptor m.layers) = .ok ⟨some m.schemaVersion, m.mediaType.map some,
            m.config.map some, some m.layers, none⟩ :=
      Except.map_eq_ok.2 ⟨_, readsBack_descriptor.list.once hm.layers, rfl⟩
    have hannotations : ∀ a ∈ m.annotations, ManifestFields.read
        ⟨some m.schemaVersion, m.mediaType.map some, m.config.map some, some m.layers, none⟩
          annotationsKey (writeAnnotations a) = .ok ⟨some m.schemaVersion, m.mediaType.map some,
            m.config.map some, some m.layers, some (some a)⟩ :=
      fun a ha => Except.map_eq_ok.2
        ⟨_, readsBack_annotations.once_toOption (hm.annotations a ha), rfl⟩
    refine toRecord_writeObject (Leads.append (Leads.append (Leads.append (Leads.append
      (.member hversion (.nil _))
      (.optional (fun o => ManifestFields.mk (some m.schemaVersion) o none none none) hmediaType))
      (.optional (fun o => ManifestFields.mk (some m.schemaVersion) (m.mediaType.map some) o none
        none) hconfig))
      (.member hlayers (.nil _)))
      (.optional (ManifestFields.mk (some m.schemaVersion) (m.mediaType.map some)
        (m.config.map some) (some m.layers)) hannotations)) ?_
    simp only [ManifestFields.build, getD_map_some]
    rfl
  written m hm k := by
    change (Members.ofList _).Written (k + 3)
    rw [members_written]
    simp only [List.mem_append, List.mem_singleton]
    rintro member ((((rfl | hmember) | hmember) | rfl) | hmember)
    · exact readsBack_version.written m.schemaVersion hm.schemaVersion_lt (k + 3)
    · exact readsBack_text.written_optional (fun _ _ => trivial) (k + 3) member hmember
    · exact readsBack_descriptor.written_optional hm.config (k + 1) member hmember
    · exact readsBack_descriptor.list.written m.layers hm.layers k
    · exact readsBack_annotations.written_optional hm.annotations (k + 2) member hmember
  ne_null m := nofun

theorem readsBack_index : ReadsBack 4 ImageIndex.IsProper writeIndex readIndex where
  read_write i hi := by
    have hversion : IndexFields.read ⟨none, none, none, none⟩ schemaVersionKey
        (.natural i.schemaVersion) = .ok ⟨some i.schemaVersion, none, none, none⟩ :=
      Except.map_eq_ok.2 ⟨_, readsBack_version.once hi.schemaVersion_lt, rfl⟩
    have hmediaType : ∀ t ∈ i.mediaType, IndexFields.read
        ⟨some i.schemaVersion, none, none, none⟩ mediaTypeKey (.text t) =
          .ok ⟨some i.schemaVersion, some (some t), none, none⟩ := fun t _ => rfl
    have hmanifests : IndexFields.read ⟨some i.schemaVersion, i.mediaType.map some, none, none⟩
        manifestsKey (writeList writeDescriptor i.manifests) =
          .ok ⟨some i.schemaVersion, i.mediaType.map some, some i.manifests, none⟩ :=
      Except.map_eq_ok.2 ⟨_, readsBack_descriptor.list.once hi.manifests, rfl⟩
    have hannotations : ∀ a ∈ i.annotations, IndexFields.read
        ⟨some i.schemaVersion, i.mediaType.map some, some i.manifests, none⟩ annotationsKey
          (writeAnnotations a) =
            .ok ⟨some i.schemaVersion, i.mediaType.map some, some i.manifests, some (some a)⟩ :=
      fun a ha => Except.map_eq_ok.2
        ⟨_, readsBack_annotations.once_toOption (hi.annotations a ha), rfl⟩
    refine toRecord_writeObject (Leads.append (Leads.append (Leads.append
      (.member hversion (.nil _))
      (.optional (fun o => IndexFields.mk (some i.schemaVersion) o none none) hmediaType))
      (.member hmanifests (.nil _)))
      (.optional (IndexFields.mk (some i.schemaVersion) (i.mediaType.map some) (some i.manifests))
        hannotations)) ?_
    simp only [IndexFields.build, getD_map_some]
    rfl
  written i hi k := by
    change (Members.ofList _).Written (k + 3)
    rw [members_written]
    simp only [List.mem_append, List.mem_singleton]
    rintro member (((rfl | hmember) | rfl) | hmember)
    · exact readsBack_version.written i.schemaVersion hi.schemaVersion_lt (k + 3)
    · exact readsBack_text.written_optional (fun _ _ => trivial) (k + 3) member hmember
    · exact readsBack_descriptor.list.written i.manifests hi.manifests k
    · exact readsBack_annotations.written_optional hi.annotations (k + 2) member hmember
  ne_null i := nofun

theorem yields_annotations : Yields Annotations.IsProper readAnnotations := by
  intro v a h
  cases v with
  | object members =>
      rw [readAnnotations_object] at h
      have hempty : Annotations.IsProper [] := List.nodup_nil
      refine Members.fold_keeps ?_ hempty h
      intro b key w b' hb hstep
      obtain ⟨t, -, rfl⟩ := Except.map_eq_ok.1 hstep
      exact hb.set key t
  | _ => cases h

theorem yields_anything {α : Type} (read : Tree → Except Fault α) : Yields (fun _ => True) read :=
  fun _ _ _ => trivial

theorem getD_yields {α : Type} {p : α → Prop} {o : Option (Option α)}
    (h : ∀ b ∈ o, ∀ a ∈ b, p a) : ∀ a ∈ o.getD none, p a := by
  cases o with
  | none => exact nofun
  | some b => exact h b rfl

theorem getD_nil_yields {α : Type} {p : α → Prop} {o : Option (List α)}
    (h : ∀ as ∈ o, ∀ a ∈ as, p a) : ∀ a ∈ o.getD [], p a := by
  cases o with
  | none => exact nofun
  | some as => exact h as rfl

structure DescriptorFields.IsProper (f : DescriptorFields) : Prop where
  size_lt : ∀ n ∈ f.size, n < sizeBound
  annotations : ∀ o ∈ f.annotations, ∀ a ∈ o, Annotations.IsProper a

theorem DescriptorFields.IsProper.read {f f' : DescriptorFields} {key : Text} {v : Tree}
    (hf : f.IsProper) (h : f.read key v = .ok f') : f'.IsProper := by
  unfold DescriptorFields.read at h
  split at h
  · obtain ⟨mediaType, -, rfl⟩ := Except.map_eq_ok.1 h
    exact ⟨hf.size_lt, hf.annotations⟩
  split at h
  · obtain ⟨digest, -, rfl⟩ := Except.map_eq_ok.1 h
    exact ⟨hf.size_lt, hf.annotations⟩
  split at h
  · obtain ⟨size, hsize, rfl⟩ := Except.map_eq_ok.1 h
    exact ⟨(yields_toNatural sizeBound).once hsize, hf.annotations⟩
  split at h
  · obtain ⟨platform, -, rfl⟩ := Except.map_eq_ok.1 h
    exact ⟨hf.size_lt, hf.annotations⟩
  split at h
  · obtain ⟨annotations, hannotations, rfl⟩ := Except.map_eq_ok.1 h
    exact ⟨hf.size_lt, yields_annotations.toOption.once hannotations⟩
  · exact eq_of_passOver h ▸ hf

theorem yieldsInOrder_descriptor : YieldsInOrder Descriptor.IsProper descriptorInOrder := by
  refine YieldsInOrder.next (yields_anything _) error_yields fun mediaType _ => ?_
  refine YieldsInOrder.next (yields_anything _) error_yields fun digest _ => ?_
  refine YieldsInOrder.next (yields_toNatural sizeBound) error_yields fun size hsize => ?_
  refine YieldsInOrder.next (yields_anything _) error_yields fun platform _ => ?_
  refine YieldsInOrder.next yields_annotations.toOption error_yields
    fun annotations hannotations => ?_
  exact YieldsInOrder.pure ⟨hsize, hannotations⟩

theorem yields_descriptor : Yields Descriptor.IsProper readDescriptor := by
  refine Yields.toRecord (Q := DescriptorFields.IsProper) ⟨nofun, nofun⟩
    (fun f key v f' hf h => hf.read h) ?_ yieldsInOrder_descriptor
  intro f d hf h
  obtain ⟨mediaType, -, h⟩ := Except.bind_eq_ok.1 h
  obtain ⟨digest, -, h⟩ := Except.bind_eq_ok.1 h
  obtain ⟨size, hsize, h⟩ := Except.bind_eq_ok.1 h
  obtain rfl := Except.pure_eq_ok.1 h
  exact ⟨hf.size_lt size (required_eq_ok.1 hsize), getD_yields hf.annotations⟩

structure ManifestFields.IsProper (f : ManifestFields) : Prop where
  schemaVersion_lt : ∀ n ∈ f.schemaVersion, n < versionBound
  config : ∀ o ∈ f.config, ∀ d ∈ o, Descriptor.IsProper d
  layers : ∀ ds ∈ f.layers, ∀ d ∈ ds, Descriptor.IsProper d
  annotations : ∀ o ∈ f.annotations, ∀ a ∈ o, Annotations.IsProper a

theorem ManifestFields.IsProper.read {f f' : ManifestFields} {key : Text} {v : Tree}
    (hf : f.IsProper) (h : f.read key v = .ok f') : f'.IsProper := by
  unfold ManifestFields.read at h
  split at h
  · obtain ⟨schemaVersion, hversion, rfl⟩ := Except.map_eq_ok.1 h
    exact { hf with schemaVersion_lt := (yields_toNatural versionBound).once hversion }
  split at h
  · obtain ⟨mediaType, -, rfl⟩ := Except.map_eq_ok.1 h
    exact ⟨hf.schemaVersion_lt, hf.config, hf.layers, hf.annotations⟩
  split at h
  · obtain ⟨config, hconfig, rfl⟩ := Except.map_eq_ok.1 h
    exact { hf with config := yields_descriptor.toOption.once hconfig }
  split at h
  · obtain ⟨layers, hlayers, rfl⟩ := Except.map_eq_ok.1 h
    exact { hf with layers := yields_descriptor.toList.once hlayers }
  split at h
  · obtain ⟨annotations, hannotations, rfl⟩ := Except.map_eq_ok.1 h
    exact { hf with annotations := yields_annotations.toOption.once hannotations }
  · exact eq_of_passOver h ▸ hf

theorem yieldsInOrder_manifest : YieldsInOrder Manifest.IsProper manifestInOrder := by
  refine YieldsInOrder.next (yields_toNatural versionBound) error_yields
    fun schemaVersion hversion => ?_
  refine YieldsInOrder.next (yields_anything _) (fun _ _ => trivial) fun mediaType _ => ?_
  refine YieldsInOrder.next yields_descriptor.toOption none_yields fun config hconfig => ?_
  refine YieldsInOrder.next yields_descriptor.toList nil_yields fun layers hlayers => ?_
  refine YieldsInOrder.next yields_annotations.toOption none_yields
    fun annotations hannotations => ?_
  exact YieldsInOrder.pure ⟨hversion, hconfig, hlayers, hannotations⟩

theorem yields_manifest : Yields Manifest.IsProper readManifest := by
  refine Yields.toRecord (Q := ManifestFields.IsProper) ⟨nofun, nofun, nofun, nofun⟩
    (fun f key v f' hf h => hf.read h) ?_ yieldsInOrder_manifest
  intro f m hf h
  obtain ⟨schemaVersion, hversion, h⟩ := Except.bind_eq_ok.1 h
  obtain rfl := Except.pure_eq_ok.1 h
  exact ⟨hf.schemaVersion_lt schemaVersion (required_eq_ok.1 hversion), getD_yields hf.config,
    getD_nil_yields hf.layers, getD_yields hf.annotations⟩

structure IndexFields.IsProper (f : IndexFields) : Prop where
  schemaVersion_lt : ∀ n ∈ f.schemaVersion, n < versionBound
  manifests : ∀ ds ∈ f.manifests, ∀ d ∈ ds, Descriptor.IsProper d
  annotations : ∀ o ∈ f.annotations, ∀ a ∈ o, Annotations.IsProper a

theorem IndexFields.IsProper.read {f f' : IndexFields} {key : Text} {v : Tree}
    (hf : f.IsProper) (h : f.read key v = .ok f') : f'.IsProper := by
  unfold IndexFields.read at h
  split at h
  · obtain ⟨schemaVersion, hversion, rfl⟩ := Except.map_eq_ok.1 h
    exact { hf with schemaVersion_lt := (yields_toNatural versionBound).once hversion }
  split at h
  · obtain ⟨mediaType, -, rfl⟩ := Except.map_eq_ok.1 h
    exact ⟨hf.schemaVersion_lt, hf.manifests, hf.annotations⟩
  split at h
  · obtain ⟨manifests, hmanifests, rfl⟩ := Except.map_eq_ok.1 h
    exact { hf with manifests := yields_descriptor.toList.once hmanifests }
  split at h
  · obtain ⟨annotations, hannotations, rfl⟩ := Except.map_eq_ok.1 h
    exact { hf with annotations := yields_annotations.toOption.once hannotations }
  · exact eq_of_passOver h ▸ hf

theorem yieldsInOrder_index : YieldsInOrder ImageIndex.IsProper indexInOrder := by
  refine YieldsInOrder.next (yields_toNatural versionBound) error_yields
    fun schemaVersion hversion => ?_
  refine YieldsInOrder.next (yields_anything _) (fun _ _ => trivial) fun mediaType _ => ?_
  refine YieldsInOrder.next yields_descriptor.toList nil_yields fun manifests hmanifests => ?_
  refine YieldsInOrder.next yields_annotations.toOption none_yields
    fun annotations hannotations => ?_
  exact YieldsInOrder.pure ⟨hversion, hmanifests, hannotations⟩

theorem yields_index : Yields ImageIndex.IsProper readIndex := by
  refine Yields.toRecord (Q := IndexFields.IsProper) ⟨nofun, nofun, nofun⟩
    (fun f key v f' hf h => hf.read h) ?_ yieldsInOrder_index
  intro f i hf h
  obtain ⟨schemaVersion, hversion, h⟩ := Except.bind_eq_ok.1 h
  obtain rfl := Except.pure_eq_ok.1 h
  exact ⟨hf.schemaVersion_lt schemaVersion (required_eq_ok.1 hversion),
    getD_nil_yields hf.manifests, getD_yields hf.annotations⟩

structure Survives {α : Type} (write : α → Tree) (read : Tree → Except Fault α) (a : α) :
    Prop where
  text : (Json.parse (Utf8.encode (write a).render)).read read = .ok a
  generic : ∃ v, (Json.parse (Utf8.encode (write a).render)).generic = .ok v ∧
    fromGeneric read v = .ok a
  value : fromGeneric read (write a) = .ok a

theorem survives {α : Type} {depth : Nat} {proper : α → Prop} {write : α → Tree}
    {read : Tree → Except Fault α} (h : ReadsBack depth proper write read) (hread : Stable read)
    (hdepth : depth ≤ depthLimit) {a : α} (ha : proper a) : Survives write read a := by
  have hwritten : (write a).Written depthLimit := by
    have := h.written a ha (depthLimit - depth)
    rwa [Nat.sub_add_cancel hdepth] at this
  have hparse := parse_render hwritten
  obtain ⟨v, hv⟩ := Tree.generic_of_written hwritten
  constructor
  case text =>
    rw [hparse]
    exact Document.read_eq_ok.2 ⟨h.read_write a ha, rfl⟩
  case generic =>
    refine ⟨v, ?_, ?_⟩
    · rw [hparse]
      exact Document.read_eq_ok.2 ⟨hv, rfl⟩
    · exact Except.mapError_eq_ok.2 (hread depthLimit (write a) v a hv (h.read_write a ha))
  case value => exact Except.mapError_eq_ok.2 (h.read_write a ha)

structure RoundTrips {α : Type} (proper : α → Prop) (write : α → Tree)
    (read : Tree → Except Fault α) : Prop where
  of_proper : ∀ a, proper a → Survives write read a
  of_read : ∀ data a, (Json.parse data).read read = .ok a → Survives write read a

theorem roundTrips {α : Type} {depth : Nat} {proper : α → Prop} {write : α → Tree}
    {read : Tree → Except Fault α} (h : ReadsBack depth proper write read) (hread : Stable read)
    (hdepth : depth ≤ depthLimit) (hproper : Yields proper read) :
    RoundTrips proper write read where
  of_proper a ha := survives h hread hdepth ha
  of_read data a ha := by
    have hread' := (Document.read_eq_ok.1 ha).1
    exact survives h hread hdepth (hproper _ a hread')

theorem documents_survive :
    RoundTrips Descriptor.IsProper writeDescriptor readDescriptor ∧
      RoundTrips Manifest.IsProper writeManifest readManifest ∧
      RoundTrips ImageIndex.IsProper writeIndex readIndex := by
  refine ⟨?_, ?_, ?_⟩
  · exact roundTrips readsBack_descriptor stable_readDescriptor (by decide) yields_descriptor
  · exact roundTrips readsBack_manifest stable_readManifest (by decide) yields_manifest
  · exact roundTrips readsBack_index stable_readIndex (by decide) yields_index

def strangeManifest : Manifest where
  schemaVersion := 4294967295
  mediaType := some []
  config := some
    { mediaType := "a\"b\\c\u0000".toList
      digest := "\u20ac\n😀".toList
      size := 18446744073709551615
      platform := some ⟨"amd64".toList, [], some "v3".toList⟩
      annotations := some [("k\t".toList, []), ([], "null".toList)] }
  layers := []
  annotations := some []

theorem strangeManifest_survives :
    strangeManifest.IsProper ∧ Survives writeManifest readManifest strangeManifest := by
  have hproper : strangeManifest.IsProper := by
    refine ⟨by decide, ?_, nofun, ?_⟩
    · intro d hd
      obtain rfl := Option.some.inj hd
      refine ⟨by decide, fun a ha => ?_⟩
      obtain rfl := Option.some.inj ha
      rw [Annotations.IsProper]
      decide
    · intro a ha
      obtain rfl := Option.some.inj ha
      exact List.nodup_nil
  exact ⟨hproper, documents_survive.2.1.of_proper strangeManifest hproper⟩

end Document

end NetBoot
