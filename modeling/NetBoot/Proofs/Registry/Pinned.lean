import NetBoot.Image.Document.Writer
import NetBoot.Proofs.Image.DocumentKinds
import NetBoot.Proofs.Registry.Provenance

namespace NetBoot.Resolver

open Http Registry

def delivered (log : CallLog) : List Bytes :=
  log.filterMap fun p => p.2.toOption.bind fun reply => reply.bytes.toOption

def CollisionFree (bodies : List Bytes) : Prop :=
  ∀ x ∈ bodies, ∀ y ∈ bodies, Sha256.digestText x = Sha256.digestText y → x = y

instance (bodies : List Bytes) : Decidable (CollisionFree bodies) :=
  inferInstanceAs (Decidable (∀ x ∈ bodies, ∀ y ∈ bodies, _ → _))

def entryOf? (r : Resolver) (architecture : Text) (root : Descriptor) (data : Bytes) :
    Option Descriptor :=
  match parseDocument root.mediaType data with
  | .ok (.index i) => (selectEntry r architecture i).toOption
  | _ => none

def SelectsHashed (r : Resolver) (reference : ImageReference) (architecture : Text)
    (auth : Option Text) (log : CallLog) : Prop :=
  ∀ first rest root data entry, log = first ++ rest → Root r.config reference auth first root data →
    entryOf? r architecture root data = some entry →
      Text.startsWith entry.digest "sha256:".toList

section

variable {r : Resolver} {reference : ImageReference} {architecture : Text}
  {kinds : List Artifact} {auth auth' : Option Text} {log log' first rest : CallLog}
  {root : Descriptor} {data : Bytes} {m m' : Manifest} {layers layers' : Selection.Assignment}

theorem mem_delivered_of_brings {q : Call} {reply : Reply} (hmem : (q, .ok reply) ∈ log)
    (hb : Brings reply data) : data ∈ delivered log := by
  refine List.mem_filterMap.2 ⟨_, hmem, ?_⟩
  simp [Except.toOption, hb.bytes]

theorem Root.mem_delivered (h : Root r.config reference auth first root data) :
    data ∈ delivered first := by
  obtain ⟨q, reply, hmem, -, hb⟩ := h.exists_reply
  exact mem_delivered_of_brings hmem hb

theorem delivered_append (log log' : CallLog) :
    delivered (log ++ log') = delivered log ++ delivered log' :=
  List.filterMap_append

theorem startsWith_sha256 {p : Digest} (hsha : p.algorithm = Digest.sha256) :
    Text.startsWith p.toText "sha256:".toList := by
  rw [Digest.toText, hsha]
  exact congrArg Option.isSome (Text.after?_append _ _)

theorem Root.digestText_eq {p : Digest} (h : Root r.config reference auth first root data)
    (hpinned : reference.digest = some p) (hsha : p.algorithm = Digest.sha256) :
    Sha256.digestText data = p.toText := by
  have hdigest : root.digest = p.toText := h.pinned p hpinned
  rw [← hdigest]
  exact h.authentic.digest (hdigest ▸ startsWith_sha256 hsha)

theorem parseDocument_eq_ok {mt : MediaType} {d : Document} :
    parseDocument mt data = .ok d ↔ Document.parse mt data = .ok d :=
  Except.mapError_eq_ok

theorem selectLayers_of_layers_eq_nil (hm : m.layers = [])
    (h : selectLayers architecture m kinds = .ok layers) : kinds = [] := by
  cases kinds with
  | nil => rfl
  | cons kind kinds =>
      have h := Except.mapError_eq_ok.1 h
      simp [Selection.layers, Selection.layer?, hm] at h

theorem selectEntry_of_manifests_eq_nil {i : ImageIndex} (hi : i.manifests = [])
    (entry : Descriptor) : selectEntry r architecture i ≠ .ok entry := by
  simp [selectEntry, Selection.entry?, hi]

theorem layers_eq_of_kinds_eq_nil (hkinds : kinds = [])
    (h : selectLayers architecture m kinds = .ok layers)
    (h' : selectLayers architecture m' kinds = .ok layers') : layers = layers' := by
  subst hkinds
  cases h
  cases h'
  rfl

theorem kinds_eq_nil_of_index_manifest {mt mt' : MediaType} {i : ImageIndex} {entry : Descriptor}
    (hshape : ¬ Document.Ambiguous (Json.parse data).tree)
    (hi : parseDocument mt data = .ok (.index i)) (he : selectEntry r architecture i = .ok entry)
    (hm : parseDocument mt' data = .ok (.manifest m))
    (hlayers : selectLayers architecture m kinds = .ok layers) : kinds = [] := by
  have hi := parseDocument_eq_ok.1 hi
  have hm := parseDocument_eq_ok.1 hm
  rcases Document.parse_index_manifest hi hm with hambiguous | hmanifests | hnone
  · exact absurd hambiguous hshape
  · exact absurd he (selectEntry_of_manifests_eq_nil hmanifests entry)
  · exact selectLayers_of_layers_eq_nil hnone hlayers

theorem entryOf?_eq_some {entry : Descriptor} :
    entryOf? r architecture root data = some entry ↔
      ∃ i, parseDocument root.mediaType data = .ok (.index i) ∧
        selectEntry r architecture i = .ok entry := by
  unfold entryOf?
  cases parseDocument root.mediaType data with
  | error e => exact ⟨nofun, fun ⟨_, h, _⟩ => nomatch h⟩
  | ok document =>
      cases document with
      | manifest m => exact ⟨nofun, fun ⟨_, h, _⟩ => nomatch h⟩
      | index i =>
          dsimp only
          constructor
          · intro h
            refine ⟨i, rfl, ?_⟩
            cases hselect : selectEntry r architecture i with
            | error e => simp [hselect, Except.toOption] at h
            | ok found => simpa [hselect, Except.toOption] using h
          · rintro ⟨_, heq, h⟩
            cases heq
            rw [h]
            rfl

theorem Leads.layers_eq {root' : Descriptor} {image : ImageName} {rest' : CallLog}
    (hfree : CollisionFree (delivered rest ++ delivered rest'))
    (hentry : ∀ entry, entryOf? r architecture root data = some entry →
      Text.startsWith entry.digest "sha256:".toList)
    (hshape : ¬ Document.Ambiguous (Json.parse data).tree)
    (h : Leads r image architecture auth root data rest m)
    (h' : Leads r image architecture auth' root' data rest' m')
    (hlayers : selectLayers architecture m kinds = .ok layers)
    (hlayers' : selectLayers architecture m' kinds = .ok layers') : layers = layers' := by
  cases h with
  | manifest _ hm =>
      cases h' with
      | manifest _ hm' =>
          have hmanifest : m = m' := Document.parse_manifest_unique (parseDocument_eq_ok.1 hm)
            (parseDocument_eq_ok.1 hm')
          subst hmanifest
          exact Except.ok.inj (hlayers.symm.trans hlayers')
      | index i' entry' _ _ _ hi' he' =>
          have hkinds := kinds_eq_nil_of_index_manifest hshape hi' he' hm hlayers
          exact layers_eq_of_kinds_eq_nil hkinds hlayers hlayers'
  | index i entry reply nested _ hi he hb hauthentic hm =>
      cases h' with
      | manifest _ hm' =>
          have hkinds := kinds_eq_nil_of_index_manifest hshape hi he hm' hlayers'
          exact layers_eq_of_kinds_eq_nil hkinds hlayers hlayers'
      | index i' entry' reply' nested' _ hi' he' hb' hauthentic' hm' =>
          have hindex : i = i' := Document.parse_index_unique (parseDocument_eq_ok.1 hi)
            (parseDocument_eq_ok.1 hi')
          subst hindex
          have hsame : entry = entry' := Except.ok.inj (he.symm.trans he')
          subst hsame
          have hstarts := hentry entry (entryOf?_eq_some.2 ⟨i, hi, he⟩)
          have hdigest : Sha256.digestText nested = Sha256.digestText nested' :=
            (hauthentic.digest hstarts).trans (hauthentic'.digest hstarts).symm
          have hnested : nested = nested' := by
            refine hfree nested ?_ nested' ?_ hdigest
            · exact List.mem_append_left _ (mem_delivered_of_brings (.head _) hb)
            · exact List.mem_append_right _ (mem_delivered_of_brings (.head _) hb')
          subst hnested
          have hmanifest : m = m' := Except.ok.inj (hm.symm.trans hm') |> Document.manifest.inj
          subst hmanifest
          exact Except.ok.inj (hlayers.symm.trans hlayers')

theorem CollisionFree.mono {bodies bodies' : List Bytes} (h : CollisionFree bodies)
    (hsub : ∀ x ∈ bodies', x ∈ bodies) : CollisionFree bodies' :=
  fun x hx y hy => h x (hsub x hx) y (hsub y hy)

theorem Verified.layers_eq {p : Digest} (hpinned : reference.digest = some p)
    (hsha : p.algorithm = Digest.sha256)
    (hfree : CollisionFree (delivered log ++ delivered log'))
    (hentry : SelectsHashed r reference architecture auth log)
    (hshape : ∀ data ∈ delivered log, Sha256.digestText data = p.toText →
      ¬ Document.Ambiguous (Json.parse data).tree)
    (h : Verified r reference architecture kinds auth log layers)
    (h' : Verified r reference architecture kinds auth' log' layers') : layers = layers' := by
  obtain ⟨first, rest, root, data, m, rfl, hroot, hleads, hlayers⟩ := h
  obtain ⟨first', rest', root', data', m', rfl, hroot', hleads', hlayers'⟩ := h'
  have hmem : data ∈ delivered (first ++ rest) := by
    rw [delivered_append]
    exact List.mem_append_left _ hroot.mem_delivered
  have hmem' : data' ∈ delivered (first' ++ rest') := by
    rw [delivered_append]
    exact List.mem_append_left _ hroot'.mem_delivered
  have hdigest : Sha256.digestText data = p.toText := hroot.digestText_eq hpinned hsha
  have hdigest' : Sha256.digestText data' = p.toText := hroot'.digestText_eq hpinned hsha
  have hsame : data = data' :=
    hfree data (List.mem_append_left _ hmem) data' (List.mem_append_right _ hmem')
      (hdigest.trans hdigest'.symm)
  subst hsame
  have hrest : CollisionFree (delivered rest ++ delivered rest') := by
    refine hfree.mono fun x hx => ?_
    rw [delivered_append, delivered_append]
    rcases List.mem_append.1 hx with hx | hx
    · exact List.mem_append_left _ (List.mem_append_right _ hx)
    · exact List.mem_append_right _ (List.mem_append_right _ hx)
  exact hleads.layers_eq hrest (fun entry => hentry first rest root data entry rfl hroot)
    (hshape data hmem hdigest) hleads' hlayers hlayers'

/-- A text is one index at most, so it is enough to look at one reading of each body. -/
theorem selectsHashed_of_delivered
    (h : ∀ data ∈ delivered log, (parseDocument MediaType.ociIndex data).toOption.isSome ∧
      ∀ entry ∈ entryOf? r architecture (.plain MediaType.ociIndex [] 0) data,
        Text.startsWith entry.digest "sha256:".toList) :
    SelectsHashed r reference architecture auth log := by
  rintro first rest root data entry rfl hroot hentry
  have hmem : data ∈ delivered (first ++ rest) := by
    rw [delivered_append]
    exact List.mem_append_left _ hroot.mem_delivered
  obtain ⟨hsome, hhashed⟩ := h data hmem
  obtain ⟨i, hi, he⟩ := entryOf?_eq_some.1 hentry
  refine hhashed entry (entryOf?_eq_some.2 ⟨i, ?_, he⟩)
  cases hparse : parseDocument MediaType.ociIndex data with
  | error e => simp [hparse, Except.toOption] at hsome
  | ok document =>
      have hindex := parseDocument_eq_ok.1 hparse
      have hread := hindex
      rw [Document.parse_of_isIndex (by decide)] at hread
      obtain ⟨i', -, rfl⟩ := Except.map_eq_ok.1 (Except.mapError_eq_ok.1 hread)
      rw [Document.parse_index_unique (parseDocument_eq_ok.1 hi) hindex]
      exact hparse

theorem pinned_layers_unique {p : Digest} (hpinned : reference.digest = some p)
    (hsha : p.algorithm = Digest.sha256) {σ σ' : Type}
    (network : Dialogue.Answerer Call (Except CallError Reply) σ) (start : σ)
    (network' : Dialogue.Answerer Call (Except CallError Reply) σ') (start' : σ') :
    let outcome := (resolveWith r reference architecture kinds auth).run.run network start
    let outcome' := (resolveWith r reference architecture kinds auth').run.run network' start'
    CollisionFree (delivered outcome.log ++ delivered outcome'.log) →
    SelectsHashed r reference architecture auth outcome.log →
    (∀ data ∈ delivered outcome.log, Sha256.digestText data = p.toText →
      ¬ Document.Ambiguous (Json.parse data).tree) →
    outcome.result = .ok layers → outcome'.result = .ok layers' → layers = layers' := by
  intro outcome outcome' hfree hentry hshape hok hok'
  have hverified : Verified r reference architecture kinds auth outcome.log layers :=
    ((holds_resolveWith r reference architecture kinds auth).run network start layers).1 hok
  have hverified' : Verified r reference architecture kinds auth' outcome'.log layers' :=
    ((holds_resolveWith r reference architecture kinds auth').run network' start' layers').1 hok'
  exact hverified.layers_eq hpinned hsha hfree hentry hshape hverified'

end

def inOrder : Dialogue.Answerer Call (Except CallError Reply) (List Reply)
  | _, [] => (.error .unusableUrl, [])
  | _, reply :: rest => (.ok reply, rest)

def bodies (replies : List Reply) : List Bytes :=
  replies.filterMap fun reply => reply.bytes.toOption

theorem delivered_inOrder_subset {α : Type} (d : Calls α) (replies : List Reply) :
    ∀ data ∈ delivered (d.run inOrder replies).log, data ∈ bodies replies := by
  induction d generalizing replies with
  | done a => simp [Dialogue.run, delivered]
  | ask q next ih =>
      intro data hdata
      obtain ⟨⟨q', answer⟩, hmem, hbody⟩ := List.mem_filterMap.1 hdata
      cases replies with
      | nil =>
          rcases List.mem_cons.1 hmem with heq | hrest
          · cases heq
            cases hbody
          · exact ih _ [] data (List.mem_filterMap.2 ⟨_, hrest, hbody⟩)
      | cons reply rest =>
          rcases List.mem_cons.1 hmem with heq | hrest
          · cases heq
            exact List.mem_filterMap.2 ⟨reply, .head _, hbody⟩
          · have hmem := ih _ rest data (List.mem_filterMap.2 ⟨_, hrest, hbody⟩)
            obtain ⟨sent, hsent, hbytes⟩ := List.mem_filterMap.1 hmem
            exact List.mem_filterMap.2 ⟨sent, .tail _ hsent, hbytes⟩

def kernelOnly (digest : Text) : Manifest := .ofLayers [.plain MediaType.kernel digest 1]

def nestedManifest : Bytes :=
  Utf8.encode (Document.writeManifest (kernelOnly "a".toList)).render

def nestedEntry : Descriptor :=
  (Descriptor.plain MediaType.ociManifest
    "sha256:6f55fa6a598355c9f936c4e9d6d434de9844c27887a1ceaac557fa606adbd378".toList
    159).withArchitecture "amd64".toList

def plainIndex : Bytes := Utf8.encode (Document.writeIndex (.ofEntries [nestedEntry])).render

def bothKinds : Bytes :=
  Utf8.encode (Document.writeObject
    [(Document.schemaVersionKey, .natural 2),
      (Document.manifestsKey, Document.writeList Document.writeDescriptor [nestedEntry]),
      (Document.layersKey,
        Document.writeList Document.writeDescriptor (kernelOnly "b".toList).layers)]).render

def pinnedTo (encoded : Text) : ImageReference :=
  ⟨"x".toList, ⟨"r".toList, "x".toList⟩, none, some ⟨Digest.sha256, encoded⟩⟩

def bothKindsEncoded : Text :=
  "a74267758823630d42e5aeea9c434205266b90ab0d34ba73b4ee90692e67c2d7".toList

def plainIndexEncoded : Text :=
  "6f51c0af43d376c70f3b0afb103a2aeb2d4b1852cd96f85088d79ba3359b4949".toList

def sampleResolver : Resolver := ⟨{}, "metal_pxe".toList⟩

def sending (document : Bytes) (contentType : Text) : List Reply :=
  [⟨default, 405, [], ⟨[], .broken, none⟩⟩,
    ⟨default, 200, [(contentTypeName, contentType)], ⟨document, .whole, none⟩⟩,
    ⟨default, 200, [], ⟨nestedManifest, .whole, none⟩⟩]

def kernelOf (document : Bytes) (encoded contentType : Text) :
    Dialogue.Outcome Call (Except CallError Reply) (Except RegistryError Selection.Assignment)
      (List Reply) :=
  (resolveWith sampleResolver (pinnedTo encoded) "amd64".toList [.kernel] none).run.run
    inOrder (sending document contentType)

theorem mem_of_mem_delivered_kernelOf {document : Bytes} {encoded contentType : Text} {data : Bytes}
    (h : data ∈ delivered (kernelOf document encoded contentType).log) :
    data ∈ [document, nestedManifest] :=
  delivered_inOrder_subset _ _ data h

theorem collisionFree_kernelOf {document : Bytes} {encoded contentType contentType' : Text}
    (h : CollisionFree [document, nestedManifest]) :
    CollisionFree (delivered (kernelOf document encoded contentType).log ++
      delivered (kernelOf document encoded contentType').log) :=
  h.mono fun _ hx => (List.mem_append.1 hx).elim mem_of_mem_delivered_kernelOf
    mem_of_mem_delivered_kernelOf

theorem selectsHashed_kernelOf {document : Bytes} {encoded contentType : Text}
    (h : ∀ data ∈ [document, nestedManifest],
      (parseDocument MediaType.ociIndex data).toOption.isSome ∧
      ∀ entry ∈ entryOf? sampleResolver "amd64".toList (.plain MediaType.ociIndex [] 0) data,
        Text.startsWith entry.digest "sha256:".toList) :
    SelectsHashed sampleResolver (pinnedTo encoded) "amd64".toList none
      (kernelOf document encoded contentType).log :=
  selectsHashed_of_delivered fun data hdata => h data (mem_of_mem_delivered_kernelOf hdata)

theorem kernel_of_plainIndex_unique :
    let claimed := kernelOf plainIndex plainIndexEncoded MediaType.ociIndex
    let sniffed := kernelOf plainIndex plainIndexEncoded "application/json".toList
    ∃ layers, claimed.result = .ok layers ∧ sniffed.result = .ok layers := by
  intro claimed sniffed
  have hclaimed : claimed.result.toOption.isSome := by decide +kernel
  have hsniffed : sniffed.result.toOption.isSome := by decide +kernel
  have hshape : ∀ data ∈ [plainIndex, nestedManifest],
      ¬ Document.Ambiguous (Json.parse data).tree := by decide +kernel
  obtain ⟨layers, hlayers⟩ := Except.exists_of_isSome_toOption hclaimed
  obtain ⟨layers', hlayers'⟩ := Except.exists_of_isSome_toOption hsniffed
  have hsame : layers = layers' :=
    pinned_layers_unique (p := ⟨Digest.sha256, plainIndexEncoded⟩) rfl rfl inOrder _ inOrder _
      (collisionFree_kernelOf (by decide +kernel)) (selectsHashed_kernelOf (by decide +kernel))
      (fun data hdata _ => hshape data (mem_of_mem_delivered_kernelOf hdata)) hlayers hlayers'
  exact ⟨layers, hlayers, hsame ▸ hlayers'⟩

theorem bothKinds_has_two_readings :
    let asIndex := kernelOf bothKinds bothKindsEncoded MediaType.ociIndex
    let asManifest := kernelOf bothKinds bothKindsEncoded MediaType.ociManifest
    CollisionFree (delivered asIndex.log ++ delivered asManifest.log) ∧
      SelectsHashed sampleResolver (pinnedTo bothKindsEncoded) "amd64".toList none asIndex.log ∧
      SelectsHashed sampleResolver (pinnedTo bothKindsEncoded) "amd64".toList none
        asManifest.log ∧
      asIndex.result.toOption = some [(.kernel, .plain MediaType.kernel "a".toList 1)] ∧
      asManifest.result.toOption = some [(.kernel, .plain MediaType.kernel "b".toList 1)] := by
  have hselects : ∀ data ∈ [bothKinds, nestedManifest],
      (parseDocument MediaType.ociIndex data).toOption.isSome ∧
      ∀ entry ∈ entryOf? sampleResolver "amd64".toList (.plain MediaType.ociIndex [] 0) data,
        Text.startsWith entry.digest "sha256:".toList := by decide +kernel
  exact ⟨collisionFree_kernelOf (by decide +kernel), selectsHashed_kernelOf hselects,
    selectsHashed_kernelOf hselects, by decide +kernel, by decide +kernel⟩

end NetBoot.Resolver
