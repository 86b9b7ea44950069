import NetBoot.Proofs.Registry.HeadFallback
import NetBoot.Proofs.Registry.SniffedShape

namespace NetBoot

open Http Registry Json
open Document (readIndex readManifest sniff embeddedMediaType? manifestsKey layersKey mediaTypeKey)
open Dialogue (steady result_ask result_bind_except)

def RegistryError.blurred : RegistryError → RegistryError
  | .json _ => .json .unfit
  | e => e

namespace Resolver

structure IsIndexText (data : Bytes) : Prop where
  generic : ∃ v, (Json.parse data).generic = .ok v
  unrepeated : (Json.parse data).tree.repeatsKey = false
  entries : some manifestsKey ∈ (Json.parse data).tree.keys
  layerless : some layersKey ∉ (Json.parse data).tree.keys
  embedded : ∀ v, (Json.parse data).tree.get? mediaTypeKey = some v →
    ∃ mt : MediaType, v = .text mt ∧ mt.isIndex

/-- The type of an index as it is told: by the header, or by the index where there is no header. A
header that leaves the type open tells it too, since the shape is looked at then. -/
inductive Told (data : Bytes) : Option MediaType → Prop
  | index (mt : MediaType) : mt.isIndex → Told data (some mt)
  | inconclusive (mt : MediaType) : ¬ mt.IsConclusive → Told data (some mt)
  | embedded : (embeddedMediaType? data).isSome → Told data none

def serving (registry : Call → Except CallError Reply) (url : Text) (reply : Reply) (q : Call) :
    Except CallError Reply :=
  if q.url = url then .ok reply else registry q

def resolvedFrom (r : Resolver) (reference : ImageReference) (architecture : Text)
    (kinds : List Artifact) (auth : Option Text) (registry : Call → Except CallError Reply)
    (head reply : Reply) : Except RegistryError Selection.Assignment :=
  (resolveWith r reference architecture kinds auth).run.result (steady (withHead
    (serving registry (manifestUrl r.config reference.image reference.manifestReference) reply)
      head)) ()

def layersOf (r : Resolver) (image : ImageName) (architecture : Text) (kinds : List Artifact)
    (auth : Option Text) (registry : Call → Except CallError Reply) :
    Document → Except RegistryError Selection.Assignment
  | .manifest m => selectLayers architecture m kinds
  | .index i =>
      match selectEntry r architecture i with
      | .error e => .error e
      | .ok entry => do
          let nested ← received (contentOutcome image entry)
            (registry (manifestCall .get (manifestUrl r.config image entry.digest) auth))
          let m ← (parseDocument entry.mediaType nested).bind (onlyManifest entry.mediaType)
          selectLayers architecture m kinds

variable {r : Resolver} {reference : ImageReference} {image : ImageName} {architecture url : Text}
  {kinds : List Artifact} {auth : Option Text} {registry : Call → Except CallError Reply}
  {head reply reply' : Reply} {data : Bytes} {hs : Headers} {mt mt' : MediaType}

section Reading

theorem IsIndexText.generic_eq (h : IsIndexText data) :
    (Json.parse data).tree.generic depthLimit = .ok (Json.parse data).tree ∧
      (Json.parse data).trailing = false := by
  obtain ⟨v, hv⟩ := h.generic
  obtain ⟨htree, htrailing⟩ := Document.read_eq_ok.1 hv
  exact ⟨Tree.eq_of_generic htree h.unrepeated ▸ htree, htrailing⟩

theorem IsIndexText.exists_members (h : IsIndexText data) :
    ∃ members, (Json.parse data).tree = .object members ∧ some manifestsKey ∈ members.keys ∧
      some layersKey ∉ members.keys := by
  obtain ⟨-, -, hentries, hlayerless, -⟩ := h
  cases htree : (Json.parse data).tree with
  | object members =>
      rw [htree] at hentries hlayerless
      exact ⟨members, rfl, hentries, hlayerless⟩
  | _ =>
      rw [htree] at hentries
      exact nomatch hentries

theorem isSome_lookup {key : Text} {members : Members} (h : some key ∈ members.keys) :
    (members.lookup key).isSome := by
  match members with
  | .close => exact nomatch h
  | .fault .. => exact nomatch h
  | .member k v rest =>
      rw [Members.lookup]
      split
      · rfl
      · next hne => exact isSome_lookup ((List.mem_cons.1 h).resolve_left (Ne.symm hne))

theorem IsIndexText.embedded_isIndex (h : IsIndexText data)
    (hmt : embeddedMediaType? data = some mt) : mt.isIndex := by
  have hgeneric : (Json.parse data).generic = .ok (Json.parse data).tree :=
    Document.read_eq_ok.2 h.generic_eq
  rw [embeddedMediaType?, hgeneric] at hmt
  obtain ⟨v, hv, htext⟩ := Option.bind_eq_some_iff.1 hmt
  obtain ⟨mt', rfl, hindex⟩ := h.embedded v hv
  cases htext
  exact hindex

theorem IsIndexText.blurred_parseDocument (h : IsIndexText data) (hmt : mt.isIndex)
    (hmt' : ¬ mt'.IsConclusive) :
    (parseDocument mt data).mapError RegistryError.blurred =
      (parseDocument mt' data).mapError RegistryError.blurred := by
  obtain ⟨hgeneric, htrailing⟩ := h.generic_eq
  obtain ⟨members, hmembers, hkey, -⟩ := h.exists_members
  have hentries : ((Json.parse data).tree.get? manifestsKey).isSome := by
    rw [hmembers]
    exact isSome_lookup hkey
  have hsniff : sniff (Json.parse data) =
      ((fromGeneric readIndex (Json.parse data).tree).map .index).mapError .json := by
    rw [sniff, Json.Document.generic, Document.read_eq_ok.2 ⟨hgeneric, htrailing⟩]
    exact if_pos hentries
  rw [parseDocument, parseDocument, Document.parse_of_isIndex hmt,
    Document.parse_of_inconclusive hmt', hsniff, fromGeneric, Json.Document.read, htrailing]
  cases readIndex (Json.parse data).tree <;> rfl

theorem IsIndexText.blurred_of_told (h : IsIndexText data)
    (htold : Told data (headerMediaType? hs)) :
    (parseDocument (mediaTypeOf hs data) data).mapError RegistryError.blurred =
      (parseDocument MediaType.ociIndex data).mapError RegistryError.blurred := by
  have hopen : ¬ MediaType.IsConclusive "application/json".toList := by decide
  have hoci : MediaType.ociIndex.isIndex := by decide
  rw [mediaTypeOf]
  generalize headerMediaType? hs = told at htold
  cases htold with
  | index mt hmt =>
      exact (h.blurred_parseDocument hmt hopen).trans (h.blurred_parseDocument hoci hopen).symm
  | inconclusive mt hmt => exact (h.blurred_parseDocument hoci hmt).symm
  | embedded hsome =>
      obtain ⟨mt, hmt⟩ := Option.isSome_iff_exists.1 hsome
      rw [hmt]
      exact (h.blurred_parseDocument (h.embedded_isIndex hmt) hopen).trans
        (h.blurred_parseDocument hoci hopen).symm

theorem exists_manifest_of_parseDocument {document : Document} (hmt : mt.isManifest)
    (h : parseDocument mt data = .ok document) : ∃ m, document = .manifest m := by
  rw [parseDocument, Except.mapError_eq_ok, Document.parse_of_isManifest hmt,
    Except.mapError_eq_ok, Except.map_eq_ok] at h
  obtain ⟨m, -, rfl⟩ := h
  exact ⟨m, rfl⟩

theorem IsIndexText.layers_eq_nil (h : IsIndexText data) {m : Manifest}
    (hm : parseDocument mt data = .ok (.manifest m)) : m.layers = [] := by
  obtain ⟨members, hmembers, -, hkey⟩ := h.exists_members
  have hreads := Document.readsAs_manifest (parseDocument_eq_ok.1 hm)
  rw [hmembers] at hreads
  exact hreads.layers_eq_nil hkey

theorem parseDocument_of_isManifest (hmt : mt.isManifest) :
    parseDocument mt data = parseDocument MediaType.ociManifest data := by
  have hoci : MediaType.ociManifest.isManifest := by decide
  rw [parseDocument, parseDocument, Document.parse_of_isManifest hmt,
    Document.parse_of_isManifest hoci]
  cases (Json.parse data).read readManifest <;> rfl

end Reading

section Resolving

theorem contentOutcome_congr (h : Brings reply data) (h' : Brings reply' data) (image : ImageName)
    (d : Descriptor) : contentOutcome image d reply = contentOutcome image d reply' := by
  have hstatus : checkStatus reply image d.digest = .ok () := checkStatus_eq_ok.2 h.success
  have hstatus' : checkStatus reply' image d.digest = .ok () := checkStatus_eq_ok.2 h'.success
  simp only [contentOutcome, bodyOf, hstatus, hstatus', h.bytes, h'.bytes]

theorem layersOf_congr (h : Brings reply data) (h' : Brings reply' data) :
    layersOf r image architecture kinds auth (serving registry url reply) =
      layersOf r image architecture kinds auth (serving registry url reply') := by
  funext document
  cases document with
  | manifest m => rfl
  | index i =>
      dsimp only [layersOf, serving]
      cases selectEntry r architecture i with
      | error e => rfl
      | ok entry =>
          dsimp only
          split
          · rw [received_ok, received_ok, contentOutcome_congr h h']
          · rfl

theorem result_fetchManifest (root : Descriptor × Bytes) :
    ((fetchManifest r image architecture auth root).run.result (steady (withHead registry head)) ()
        >>= fun m => selectLayers architecture m kinds) =
      parseDocument root.1.mediaType root.2 >>=
        layersOf r image architecture kinds auth registry := by
  rw [run_fetchManifest]
  cases parseDocument root.1.mediaType root.2 with
  | error e => rfl
  | ok document =>
      cases document with
      | manifest m => rfl
      | index i =>
          change _ = layersOf r image architecture kinds auth registry (.index i)
          dsimp only [layersOf]
          cases selectEntry r architecture i with
          | error e => rfl
          | ok entry =>
              have hcall (url : Text) : withHead registry head (manifestCall .get url auth) =
                  registry (manifestCall .get url auth) := rfl
              dsimp only
              rw [result_ask, hcall]
              cases received (contentOutcome image entry)
                (registry (manifestCall .get (manifestUrl r.config image entry.digest) auth))
                <;> rfl

theorem verify_derivedDescriptor (pinned : Option Digest) (hs hs' : Headers) (data : Bytes) :
    verify (derivedDescriptor pinned hs data) data =
      verify (derivedDescriptor pinned hs' data) data := rfl

theorem resolvedFrom_eq (hhead : head.isSuccess = false) (h404 : head.status ≠ 404)
    (h : Brings reply data) :
    resolvedFrom r reference architecture kinds auth registry head reply =
      verify (derivedDescriptor reference.digest reply.headers data) data >>= fun _ =>
        parseDocument (mediaTypeOf reply.headers data) data >>=
          layersOf r reference.image architecture kinds auth (serving registry
            (manifestUrl r.config reference.image reference.manifestReference) reply) := by
  have hnone : headOutcome reference.image reference.manifestReference reference.digest head =
      .ok none := headOutcome_eq_none.2 ⟨h404, fun hs => nomatch hhead.symm.trans hs⟩
  have hserved (url : Text) : serving registry url reply (manifestCall .get url auth) = .ok reply :=
    if_pos rfl
  rw [resolvedFrom, resolveWith, result_bind_except, result_fetchRoot, hnone]
  change rootOutcome _ _ _ _ none >>= _ = _
  rw [rootOutcome, hserved, received_ok, getOutcome_of_brings h]
  cases verify (derivedDescriptor reference.digest reply.headers data) data with
  | error e => rfl
  | ok _ =>
      refine (result_bind_except _ _ _).trans ?_
      exact result_fetchManifest _

end Resolving

theorem index_resolved_alike_where_told (r : Resolver) (reference : ImageReference)
    (architecture : Text) (kinds : List Artifact) (auth : Option Text)
    (registry : Call → Except CallError Reply) {data : Bytes} {head reply reply' : Reply}
    (hdata : IsIndexText data) (hhead : head.isSuccess = false) (h404 : head.status ≠ 404)
    (hreply : Brings reply data) (hreply' : Brings reply' data) :
    (Told data (headerMediaType? reply.headers) → Told data (headerMediaType? reply'.headers) →
      (resolvedFrom r reference architecture kinds auth registry head reply).mapError
          RegistryError.blurred =
        (resolvedFrom r reference architecture kinds auth registry head reply').mapError
          RegistryError.blurred) ∧
    (headerMediaType? reply.headers = none → embeddedMediaType? data = none →
      (∀ mt, headerMediaType? reply'.headers = some mt → mt.isManifest →
        resolvedFrom r reference architecture kinds auth registry head reply =
          resolvedFrom r reference architecture kinds auth registry head reply') ∧
      ∀ a, resolvedFrom r reference architecture kinds auth registry head reply = .ok a →
        kinds = []) := by
  constructor
  · intro htold htold'
    rw [resolvedFrom_eq hhead h404 hreply, resolvedFrom_eq hhead h404 hreply',
      verify_derivedDescriptor reference.digest reply'.headers reply.headers,
      Except.mapError_bind, Except.mapError_bind]
    simp only [Except.mapError_bind, hdata.blurred_of_told htold, hdata.blurred_of_told htold',
      layersOf_congr hreply hreply']
  · intro hheader hembedded
    have hoci : mediaTypeOf reply.headers data = MediaType.ociManifest := by
      rw [mediaTypeOf, hheader, hembedded]
      rfl
    rw [resolvedFrom_eq hhead h404 hreply, hoci]
    constructor
    · intro mt hmt hmanifest
      have hmt' : mediaTypeOf reply'.headers data = mt := by
        rw [mediaTypeOf, hmt]
        rfl
      rw [resolvedFrom_eq hhead h404 hreply', hmt', parseDocument_of_isManifest hmanifest,
        verify_derivedDescriptor reference.digest reply'.headers reply.headers,
        layersOf_congr hreply hreply']
    · intro a ha
      obtain ⟨-, -, ha⟩ := Except.bind_eq_ok.1 ha
      obtain ⟨document, hdocument, hlayers⟩ := Except.bind_eq_ok.1 ha
      obtain ⟨m, rfl⟩ := exists_manifest_of_parseDocument (by decide) hdocument
      exact selectLayers_of_layers_eq_nil (hdata.layers_eq_nil hdocument) hlayers

def untypedIndex : Bytes :=
  Utf8.encode (Document.writeIndex ⟨2, none,
    [(Descriptor.plain MediaType.ociManifest "sha512:a".toList 159).withArchitecture
      "amd64".toList], none⟩).render

def untypedReply (headers : Headers) : Reply :=
  ⟨default, 200, headers, ⟨untypedIndex, .whole, none⟩⟩

def kernelUnder (headers : Headers) : Except RegistryError Selection.Assignment :=
  resolvedFrom sampleResolver ⟨"x".toList, ⟨"r".toList, "x".toList⟩, some "1".toList, none⟩
    "amd64".toList [.kernel] none (fun _ => .ok kernelReply) refusingHead (untypedReply headers)

theorem brings_untypedReply (headers : Headers) : Brings (untypedReply headers) untypedIndex :=
  ⟨rfl, rfl⟩

theorem kernelUnder_index : (kernelUnder [(contentTypeName, MediaType.ociIndex)]).toOption =
    some [(.kernel, .plain MediaType.kernel "a".toList 1)] := by
  decide +kernel

theorem isIndexText_untypedIndex : IsIndexText untypedIndex where
  generic := Except.exists_of_isSome_toOption (by decide +kernel)
  unrepeated := by decide +kernel
  entries := by decide +kernel
  layerless := by decide +kernel
  embedded := by
    have hnone : ((Json.parse untypedIndex).tree.get? mediaTypeKey).isNone := by decide +kernel
    intro v hv
    rw [hv] at hnone
    exact nomatch hnone

theorem untyped_index_resolved_where_told :
    (kernelUnder [(contentTypeName, MediaType.ociIndex)]).toOption =
        some [(.kernel, .plain MediaType.kernel "a".toList 1)] ∧
      (kernelUnder [(contentTypeName, MediaType.ociIndex)]).mapError RegistryError.blurred =
        (kernelUnder [(contentTypeName, "application/json".toList)]).mapError
          RegistryError.blurred ∧
      kernelUnder [] = kernelUnder [(contentTypeName, MediaType.ociManifest)] := by
  have hindex : headerMediaType? [(contentTypeName, MediaType.ociIndex)] =
      some MediaType.ociIndex := by decide
  have hjson : headerMediaType? [(contentTypeName, "application/json".toList)] =
      some "application/json".toList := by decide
  have hmanifest : headerMediaType? [(contentTypeName, MediaType.ociManifest)] =
      some MediaType.ociManifest := by decide
  have h404 : refusingHead.status ≠ 404 := by decide
  refine ⟨kernelUnder_index, ?_, ?_⟩
  · refine (index_resolved_alike_where_told _ _ _ _ _ _ isIndexText_untypedIndex rfl h404
      (brings_untypedReply _) (brings_untypedReply _)).1 ?_ ?_
    · exact hindex ▸ .index _ (by decide)
    · exact hjson ▸ .inconclusive _ (by decide)
  · have huntold := (index_resolved_alike_where_told sampleResolver
      ⟨"x".toList, ⟨"r".toList, "x".toList⟩, some "1".toList, none⟩ "amd64".toList [.kernel] none
      (fun _ => .ok kernelReply) isIndexText_untypedIndex rfl h404 (brings_untypedReply [])
      (brings_untypedReply [(contentTypeName, MediaType.ociManifest)])).2 rfl (by decide +kernel)
    exact huntold.1 MediaType.ociManifest hmanifest (by decide)

theorem untyped_index_lost_without_header :
    IsIndexText untypedIndex ∧
      (kernelUnder [(contentTypeName, MediaType.ociIndex)]).toOption =
        some [(.kernel, .plain MediaType.kernel "a".toList 1)] ∧
      kernelUnder [] = .error (.layerNotFound "kernel".toList) :=
  ⟨isIndexText_untypedIndex, kernelUnder_index, by decide +kernel⟩

end Resolver

end NetBoot
