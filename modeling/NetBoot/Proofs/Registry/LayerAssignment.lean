import NetBoot.Proofs.Image.FirstMatch
import NetBoot.Proofs.Registry.LayerByKind

namespace NetBoot

namespace Selection

variable {architecture : Text} {available : List Descriptor} {kinds : List Artifact}
  {kind : Artifact} {layer other : Descriptor} {a : Assignment} {p : Descriptor → Prop}
  {q : Descriptor → Bool}

def Fits (architecture : Text) (layer : Descriptor) : Prop :=
  ∀ annotated, layer.annotation? Annotations.layerArchitecture = some annotated →
    annotated = architecture

def Typed (kind : Artifact) (layer : Descriptor) : Prop := layer.mediaType ∈ kind.mediaTypes

def Titled (kind : Artifact) (layer : Descriptor) : Prop :=
  ∃ title, layer.annotation? Annotations.title = some title ∧ kind.fileSuffix <:+ title

/-- The layer for a kind: the first of its type, else the first of its title, else the only layer.
Layers for other architectures are passed over, but are counted. -/
inductive Picks (architecture : Text) (available : List Descriptor) (kind : Artifact) :
    Descriptor → Prop
  | typed (layer : Descriptor) :
      IsFirst (fun l => Fits architecture l ∧ Typed kind l) available layer →
        Picks architecture available kind layer
  | titled (layer : Descriptor) :
      (∀ l ∈ available, ¬ (Fits architecture l ∧ Typed kind l)) →
      IsFirst (fun l => Fits architecture l ∧ Titled kind l) available layer →
        Picks architecture available kind layer
  | only (layer : Descriptor) :
      (∀ l ∈ available, ¬ (Fits architecture l ∧ Typed kind l)) →
      (∀ l ∈ available, ¬ (Fits architecture l ∧ Titled kind l)) →
      available = [layer] → Fits architecture layer → Picks architecture available kind layer

def Assigns (architecture : Text) (available : List Descriptor) (kinds : List Artifact)
    (a : Assignment) : Prop :=
  List.Forall₂ (fun kind p => p.1 = kind ∧ Picks architecture available kind p.2) kinds a

theorem isEligible_iff : isEligible architecture layer ↔ Fits architecture layer := by
  unfold isEligible Fits
  cases layer.annotation? Annotations.layerArchitecture with
  | none => simp
  | some annotated => simp

theorem hasSuffix_iff : hasSuffix kind layer ↔ Titled kind layer := by
  unfold hasSuffix Titled
  cases layer.annotation? Annotations.title with
  | none => simp
  | some title => simp [Text.endsWith_iff]

theorem isTyped_iff : decide (layer.mediaType ∈ kind.mediaTypes) ↔ Typed kind layer :=
  decide_eq_true_iff

theorem eligible_and_iff (hq : ∀ l, q l ↔ p l) (l : Descriptor) :
    decide (isEligible architecture l ∧ q l) ↔ Fits architecture l ∧ p l := by
  rw [decide_eq_true_iff, isEligible_iff, hq]

theorem onlyLayer_eq_some_iff :
    (if available.length = 1 then (available.filter (isEligible architecture)).head? else none) =
        some layer ↔
      available = [layer] ∧ Fits architecture layer := by
  by_cases hlength : available.length = 1
  · obtain ⟨only, rfl⟩ := List.length_eq_one_iff.1 hlength
    rw [if_pos hlength, ← isEligible_iff]
    by_cases heligible : isEligible architecture only
    · rw [List.filter_cons_of_pos heligible]
      constructor
      · rintro h
        cases h
        exact ⟨rfl, heligible⟩
      · rintro ⟨h, -⟩
        cases h
        rfl
    · rw [List.filter_cons_of_neg heligible]
      constructor
      · exact nofun
      · rintro ⟨h, hlayer⟩
        cases h
        exact absurd hlayer heligible
  · rw [if_neg hlength]
    constructor
    · exact nofun
    · rintro ⟨rfl, -⟩
      exact absurd rfl hlength

theorem layer?_eq_some_iff :
    layer? architecture available kind = some layer ↔ Picks architecture available kind layer := by
  simp only [layer?, Option.orElse_eq_orElse, Option.orElse_eq_or, Option.or_eq_some_iff,
    List.find?_filter]
  rw [find?_eq_some_iff (eligible_and_iff fun _ => isTyped_iff),
    find?_eq_none_iff (eligible_and_iff fun _ => isTyped_iff),
    find?_eq_some_iff (eligible_and_iff fun _ => hasSuffix_iff),
    find?_eq_none_iff (eligible_and_iff fun _ => hasSuffix_iff), onlyLayer_eq_some_iff]
  constructor
  · rintro (htyped | ⟨huntyped, htitled | ⟨huntitled, honly, hfits⟩⟩)
    · exact .typed layer htyped
    · exact .titled layer huntyped htitled
    · exact .only layer huntyped huntitled honly hfits
  · intro h
    cases h with
    | typed htyped => exact .inl htyped
    | titled huntyped htitled => exact .inr ⟨huntyped, .inl htitled⟩
    | only huntyped huntitled honly hfits =>
        exact .inr ⟨huntyped, .inr ⟨huntitled, honly, hfits⟩⟩

theorem layer?_eq_none_iff :
    layer? architecture available kind = none ↔
      ∀ layer, ¬ Picks architecture available kind layer := by
  simp only [Option.eq_none_iff_forall_ne_some, ne_eq, layer?_eq_some_iff]

theorem Picks.unique (h : Picks architecture available kind layer)
    (h' : Picks architecture available kind other) : layer = other :=
  Option.some.inj ((layer?_eq_some_iff.2 h).symm.trans (layer?_eq_some_iff.2 h'))

theorem Picks.mem_fits (h : Picks architecture available kind layer) :
    layer ∈ available ∧ Fits architecture layer := by
  cases h with
  | typed hfirst => exact ⟨hfirst.mem, hfirst.holds.1⟩
  | titled _ hfirst => exact ⟨hfirst.mem, hfirst.holds.1⟩
  | only _ _ heq hfits => exact ⟨heq ▸ List.mem_singleton_self layer, hfits⟩

theorem layers_eq_ok_iff :
    layers architecture available kinds = .ok a ↔ Assigns architecture available kinds a := by
  induction kinds generalizing a with
  | nil =>
      constructor
      · intro h
        cases h
        exact .nil
      · intro h
        cases h
        rfl
  | cons kind kinds ih =>
      rw [layers]
      cases hlayer : layer? architecture available kind with
      | none =>
          constructor
          · intro h
            cases h
          · rintro (_ | ⟨⟨-, hpicks⟩, -⟩)
            exact absurd hpicks (layer?_eq_none_iff.1 hlayer _)
      | some layer =>
          rw [Except.map_eq_ok]
          constructor
          · rintro ⟨rest, hrest, rfl⟩
            exact .cons ⟨rfl, layer?_eq_some_iff.1 hlayer⟩ (ih.1 hrest)
          · rintro (_ | @⟨_, ⟨other, found⟩, _, rest, ⟨rfl, hpicks⟩, hrest⟩)
            cases hpicks.unique (layer?_eq_some_iff.1 hlayer)
            exact ⟨rest, ih.2 hrest, rfl⟩

theorem layers_eq_error_iff : layers architecture available kinds = .error kind ↔
    IsFirst (fun k => ∀ layer, ¬ Picks architecture available k layer) kinds kind := by
  induction kinds with
  | nil =>
      exact ⟨nofun, fun h => absurd h not_isFirst_nil⟩
  | cons first kinds ih =>
      rw [layers, isFirst_cons_iff]
      cases hlayer : layer? architecture available first with
      | none =>
          have hnone := layer?_eq_none_iff.1 hlayer
          constructor
          · intro h
            cases h
            exact .inl ⟨rfl, hnone⟩
          · rintro (⟨rfl, -⟩ | ⟨hsome, -⟩)
            · rfl
            · exact absurd hnone hsome
      | some layer =>
          have hsome := layer?_eq_some_iff.1 hlayer
          rw [Except.map_eq_error, ih]
          constructor
          · exact fun h => .inr ⟨fun hnone => hnone layer hsome, h⟩
          · rintro (⟨rfl, hnone⟩ | ⟨-, h⟩)
            · exact absurd hsome (hnone layer)
            · exact h

theorem Assigns.get?_eq (h : Assigns architecture available kinds a) (hkind : kind ∈ kinds) :
    ∃ layer, Picks architecture available kind layer ∧ a.get? kind = some layer := by
  induction h with
  | nil => exact nomatch hkind
  | @cons first p kinds a hfirst _ ih =>
      obtain ⟨other, found⟩ := p
      obtain ⟨rfl, hpicks⟩ := hfirst
      rw [Assignment.get?_cons]
      by_cases heq : other = kind
      · subst heq
        exact ⟨found, hpicks, if_pos rfl⟩
      · rw [if_neg heq]
        exact ih ((List.mem_cons.1 hkind).resolve_left (Ne.symm heq))

theorem Assigns.mem_fits (h : Assigns architecture available kinds a) :
    ∀ p ∈ a, p.2 ∈ available ∧ Fits architecture p.2 := by
  induction h with
  | nil => exact nofun
  | cons hfirst _ ih => exact List.forall_mem_cons.2 ⟨hfirst.2.mem_fits, ih⟩

end Selection

namespace Resolver

open Selection

theorem selectLayers_assigns (architecture : Text) (m : Manifest) (kinds : List Artifact) :
    ((∃ a, selectLayers architecture m kinds = .ok a) ↔
      ∀ kind ∈ kinds, ∃ layer, Picks architecture m.layers kind layer) ∧
    (∀ error, selectLayers architecture m kinds = .error error ↔
      ∃ kind, IsFirst (fun k => ∀ layer, ¬ Picks architecture m.layers k layer) kinds kind ∧
        error = .layerNotFound kind.toText) ∧
    ∀ a, selectLayers architecture m kinds = .ok a →
      Assigns architecture m.layers kinds a ∧
      (∀ kind ∈ kinds, ∃ layer, (∀ l, Picks architecture m.layers kind l ↔ l = layer) ∧
        a.get? kind = some layer ∧ a.digest? kind = some layer.digest ∧ take kind a = .ok layer) ∧
      (∀ others b, selectLayers architecture m others = .ok b →
        ∀ kind ∈ kinds, kind ∈ others → a.get? kind = b.get? kind) ∧
      ∀ p ∈ a, p.2 ∈ m.layers ∧ Fits architecture p.2 := by
  have hok (kinds : List Artifact) (a : Assignment) :
      selectLayers architecture m kinds = .ok a ↔ Assigns architecture m.layers kinds a := by
    rw [selectLayers, Except.mapError_eq_ok, layers_eq_ok_iff]
  have herror (error : RegistryError) : selectLayers architecture m kinds = .error error ↔
      ∃ kind, IsFirst (fun k => ∀ layer, ¬ Picks architecture m.layers k layer) kinds kind ∧
        error = .layerNotFound kind.toText := by
    rw [selectLayers, Except.mapError_eq_error]
    exact exists_congr fun kind => and_congr layers_eq_error_iff eq_comm
  refine ⟨⟨?_, fun hall => ?_⟩, herror, fun a ha => ?_⟩
  · rintro ⟨a, ha⟩ kind hkind
    obtain ⟨layer, hpicks, -⟩ := ((hok kinds a).1 ha).get?_eq hkind
    exact ⟨layer, hpicks⟩
  · cases hresult : selectLayers architecture m kinds with
    | ok a => exact ⟨a, rfl⟩
    | error error =>
        obtain ⟨kind, hfirst, -⟩ := (herror error).1 hresult
        obtain ⟨layer, hpicks⟩ := hall kind hfirst.mem
        exact absurd hpicks (hfirst.holds layer)
  · have hassigns := (hok kinds a).1 ha
    refine ⟨hassigns, fun kind hkind => ?_, fun others b hb kind hkind hother => ?_,
      hassigns.mem_fits⟩
    · obtain ⟨layer, hpicks, hget⟩ := hassigns.get?_eq hkind
      refine ⟨layer, fun l => ⟨fun h => h.unique hpicks, fun h => h ▸ hpicks⟩, hget, ?_, ?_⟩
      · rw [Assignment.digest?, hget, Option.map_some]
      · rw [take, Assignment.take?_eq_get?, hget]
    · obtain ⟨layer, hpicks, hget⟩ := hassigns.get?_eq hkind
      obtain ⟨layer', hpicks', hget'⟩ := ((hok others b).1 hb).get?_eq hother
      rw [hget, hget', hpicks.unique hpicks']

def armKernel : Descriptor :=
  Descriptor.withAnnotation (.plain MediaType.kernel "sha256:1".toList 1)
    Annotations.layerArchitecture "arm64".toList

def titledInitrd : Descriptor :=
  Descriptor.withAnnotation (.plain MediaType.initrd "sha256:2".toList 1) Annotations.title
    "boot.vmlinuz".toList

def legacyKernel : Descriptor :=
  Descriptor.withAnnotation (.plain MediaType.kernelLegacy "sha256:3".toList 1)
    Annotations.layerArchitecture "amd64".toList

def mixedManifest : Manifest := .ofLayers [armKernel, titledInitrd, legacyKernel]

theorem mixed_layers_assigned :
    selectLayers "amd64".toList mixedManifest [.kernel, .initrd, .kernel] =
        .ok [(.kernel, legacyKernel), (.initrd, titledInitrd), (.kernel, legacyKernel)] ∧
      take .kernel [(.kernel, legacyKernel), (.initrd, titledInitrd), (.kernel, legacyKernel)] =
        .ok legacyKernel ∧
      Picks "amd64".toList mixedManifest.layers .kernel legacyKernel := by
  have hok : selectLayers "amd64".toList mixedManifest [.kernel, .initrd, .kernel] =
      .ok [(.kernel, legacyKernel), (.initrd, titledInitrd), (.kernel, legacyKernel)] :=
    Except.toOption_eq_some.1 (by decide)
  obtain ⟨-, -, hassigned⟩ :=
    selectLayers_assigns "amd64".toList mixedManifest [.kernel, .initrd, .kernel]
  obtain ⟨-, hlookups, -⟩ := hassigned _ hok
  obtain ⟨layer, hpicks, hget, -, htake⟩ := hlookups .kernel (by decide)
  cases hget
  exact ⟨hok, htake, (hpicks legacyKernel).2 rfl⟩

end Resolver

end NetBoot
