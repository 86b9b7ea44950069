import NetBoot.Proofs.Server.BootPath
import NetBoot.Proofs.Server.HandingOn

namespace NetBoot

open Http

namespace Digest

variable {t segment : Text} {d : Digest}

theorem isEncoded_iff :
    IsEncoded t ↔ t ≠ [] ∧ ∀ c ∈ t, c.isAlphanum ∨ c ∈ "=_-".toList := by
  simp [IsEncoded, isEncodedChar, or_assoc]

theorem ofSegment_eq_ok_iff : ofSegment segment = .ok d ↔
    d.algorithm = sha256 ∧ IsEncoded d.encoded ∧ segment = d.toSegment := by
  constructor
  · intro h
    unfold ofSegment at h
    split at h
    · cases h
    · next encoded hafter =>
        dsimp only at h
        split at h
        · cases h
        · next d' hparse =>
            cases h
            obtain ⟨htext, halgorithm, hencoded⟩ := parse?_eq_some hparse
            -- Neither algorithm holds a colon, so the first one ends both.
            have hsplit : Text.splitOnce ':' (sha256 ++ ':' :: encoded) =
                some (d.algorithm, d.encoded) := by
              have hjoined : sha256 ++ ':' :: encoded = d.algorithm ++ ':' :: d.encoded := htext
              rw [hjoined, Text.splitOnce_append (colon_not_mem_of_isAlgorithm halgorithm)]
            rw [Text.splitOnce_append (by decide), Option.some.injEq, Prod.mk.injEq] at hsplit
            refine ⟨hsplit.1.symm, hencoded, ?_⟩
            rw [Text.after?_eq_some hafter, hsplit.2]
            rfl
  · rintro ⟨halgorithm, hencoded, rfl⟩
    rw [ofSegment_toSegment hencoded, asSha256_eq_iff.2 halgorithm]

end Digest

namespace LayerRequest

variable {path name name' encoded encoded' : Text} {request : LayerRequest} {d : Digest}

structure IsBootPath (path name encoded : Text) : Prop where
  path_eq : path.dropWhile (· = '/') = name ++ "/sha256-".toList ++ encoded ++ ".efi".toList
  encoded_ne_nil : encoded ≠ []
  encoded_chars : ∀ c ∈ encoded, c.isAlphanum ∨ c ∈ "=_-".toList

theorem IsBootPath.isEncoded (h : IsBootPath path name encoded) : Digest.IsEncoded encoded :=
  Digest.isEncoded_iff.2 ⟨h.encoded_ne_nil, h.encoded_chars⟩

theorem bootPath_sha256 (name encoded : Text) : bootPath name ⟨Digest.sha256, encoded⟩ =
    name ++ "/sha256-".toList ++ encoded ++ ".efi".toList := by
  have hfile (lead : Text) : name ++ '/' :: (lead ++ encoded ++ extension) =
      name ++ '/' :: lead ++ encoded ++ extension := by simp
  exact hfile "sha256-".toList

theorem ofBootPath_of_isBootPath (h : IsBootPath path name encoded) :
    ofBootPath path = .ok ⟨name, .digest ⟨Digest.sha256, encoded⟩⟩ := by
  have hd : Digest.IsEncoded (⟨Digest.sha256, encoded⟩ : Digest).encoded := h.isEncoded
  exact ofBootPath_of_dropWhile hd (h.path_eq.trans (bootPath_sha256 name encoded).symm)

theorem isBootPath_of_ofBootPath (h : ofBootPath path = .ok request) :
    ∃ name encoded, IsBootPath path name encoded ∧
      request = ⟨name, .digest ⟨Digest.sha256, encoded⟩⟩ := by
  unfold ofBootPath at h
  split at h
  · cases h
  · next name file hsplit =>
      split at h
      · cases h
      · next segment hbefore =>
          split at h
          · split at h
            · next d hd =>
                cases h
                obtain ⟨halgorithm, hencoded, rfl⟩ := Digest.ofSegment_eq_ok_iff.1 hd
                obtain ⟨hne, hchars⟩ := Digest.isEncoded_iff.1 hencoded
                refine ⟨name, d.encoded, ⟨?_, hne, hchars⟩, by rw [← halgorithm]⟩
                rw [(Text.splitLast_eq_some hsplit).1, Text.before?_eq_some hbefore,
                  ← bootPath_sha256]
                rfl
            · cases h
          · cases h

theorem ofBootPath_eq_ok_iff : ofBootPath path = .ok request ↔
    ∃ name encoded, IsBootPath path name encoded ∧
      request = ⟨name, .digest ⟨Digest.sha256, encoded⟩⟩ := by
  constructor
  · exact isBootPath_of_ofBootPath
  · rintro ⟨name, encoded, hpath, rfl⟩
    exact ofBootPath_of_isBootPath hpath

theorem IsBootPath.unique (h : IsBootPath path name encoded)
    (h' : IsBootPath path name' encoded') : name = name' ∧ encoded = encoded' := by
  have hsame := (ofBootPath_of_isBootPath h).symm.trans (ofBootPath_of_isBootPath h')
  cases hsame
  exact ⟨rfl, rfl⟩

def digestQuery (name version encoded : Text) (layerName : Option Text) : ImageQuery :=
  ⟨some name, some version, some ("sha256:".toList ++ encoded), layerName⟩

theorem ofQuery_digestQuery {version : Text} {layerName : Option Text} (hname : name ≠ [])
    (hextension : ¬ ".efi".toList <:+ name) (hversion : version ≠ [])
    (hencoded : Digest.IsEncoded encoded) :
    ofQuery (digestQuery name version encoded layerName) =
      .ok ⟨name, .digest ⟨Digest.sha256, encoded⟩⟩ := by
  have hsome {t : Text} (ht : t ≠ []) : ImageQuery.nonempty (some t) = some t := by
    simp [ImageQuery.nonempty, ht]
  have hbefore : Text.before? extension name = none := by
    refine Option.eq_none_iff_forall_ne_some.2 fun front hfront => hextension ⟨front, ?_⟩
    exact (Text.before?_eq_some hfront).symm
  have htext : "sha256:".toList ++ encoded = Digest.toText ⟨Digest.sha256, encoded⟩ := rfl
  have halgorithm : Digest.IsAlgorithm Digest.sha256 := by decide
  have hdigest : Digest.parse? (Digest.toText ⟨Digest.sha256, encoded⟩) =
      some ⟨Digest.sha256, encoded⟩ := Digest.parse?_toText halgorithm hencoded
  have hne : Digest.toText ⟨Digest.sha256, encoded⟩ ≠ [] := by simp [Digest.toText]
  simp only [ofQuery, digestQuery, ImageQuery.required, choice, htext, hsome hname, hsome hversion,
    hsome hne, parseDigest, hdigest, hbefore, bind, Except.bind, Except.map, Option.getD_none]
  rfl

end LayerRequest

namespace Router

variable {s : LayerService} {provider : DriveProvider} {now : Time} {r r' : BootRequest}
  {st : ServerState} {name version encoded path : Text} {request : LayerRequest}

theorem finished_congr (h : r.method = r'.method) : finished r = finished r' := by
  funext response
  rw [finished, finished, h]

theorem serve_of_wrong_method {route : Route} (hroute : Route.ofPath? r.target.path = some route)
    (hmethod : ¬ (r.method = getMethod ∨ r.method = headMethod)) :
    serve s provider now r st = .done (stateless st (finished r wrongMethod)) := by
  rw [serve, serveMethod, hroute]
  dsimp only
  rw [if_neg hmethod]
  rfl

theorem serve_congr {route route' : Route} (hmethod : r.method = r'.method)
    (hheaders : r.headers = r'.headers) (hroute : Route.ofPath? r.target.path = some route)
    (hroute' : Route.ofPath? r'.target.path = some route')
    (h : r.method = getMethod ∨ r.method = headMethod →
      ∃ request, layerRequest? r = some request ∧ layerRequest? r' = some request) :
    serve s provider now r st = serve s provider now r' st := by
  by_cases hserved : r.method = getMethod ∨ r.method = headMethod
  · obtain ⟨request, hr, hr'⟩ := h hserved
    rw [serve, serve, serveMethod_of_layerRequest hr, serveMethod_of_layerRequest hr', hheaders,
      finished_congr hmethod]
  · rw [serve_of_wrong_method hroute hserved, serve_of_wrong_method hroute' (hmethod ▸ hserved),
      finished_congr hmethod]

def SendsBootPath (r : BootRequest) (path : Text) : Prop :=
  ∃ sent, r.target.path = Route.bootLead ++ sent ∧ Route.decode? sent = some path

def SendsQuery (r : BootRequest) (q : ImageQuery) : Prop :=
  r.target.path = "/image".toList ∧ ImageQuery.parse (r.target.query.getD []) = .ok q

theorem SendsBootPath.route (h : SendsBootPath r path) (hpath : path ≠ []) :
    ∃ sent, Route.ofPath? r.target.path = some (.httpBoot sent) ∧
      Route.decode? sent = some path := by
  obtain ⟨sent, htarget, hdecode⟩ := h
  have hsent : sent ≠ [] := by
    rintro rfl
    have hempty : Route.decode? [] = some [] := by decide
    exact hpath (Option.some.inj (hdecode.symm.trans hempty))
  exact ⟨sent, htarget ▸ Route.ofPath?_bootLead hsent, hdecode⟩

theorem SendsQuery.route {q : ImageQuery} (h : SendsQuery r q) :
    Route.ofPath? r.target.path = some .image := by
  rw [h.1]
  decide

structure AskAlike (boot query : BootRequest) (name version encoded : Text)
    (layerName : Option Text) : Prop where
  method : boot.method = query.method
  headers : boot.headers = query.headers
  path : SendsBootPath boot (name ++ "/sha256-".toList ++ encoded ++ ".efi".toList)
  query : SendsQuery query
    ⟨some name, some version, some ("sha256:".toList ++ encoded), layerName⟩

variable {boot query : BootRequest} {layerName : Option Text}

theorem serve_of_askAlike (h : AskAlike boot query name version encoded layerName)
    (hname : name ≠ []) (hslash : name.head? ≠ some '/') (hextension : ¬ ".efi".toList <:+ name)
    (hversion : version ≠ []) (hne : encoded ≠ [])
    (hchars : ∀ c ∈ encoded, c.isAlphanum ∨ c ∈ "=_-".toList) :
    serve s provider now boot st = serve s provider now query st := by
  have hpath : LayerRequest.IsBootPath
      (name ++ "/sha256-".toList ++ encoded ++ ".efi".toList) name encoded := by
    refine ⟨?_, hne, hchars⟩
    cases name with
    | nil => exact absurd rfl hname
    | cons c rest => exact List.dropWhile_cons_of_neg (by simpa using hslash)
  obtain ⟨sent, hroute, hdecode⟩ := h.path.route (by simp [hname])
  refine serve_congr h.method h.headers hroute h.query.route fun hserved => ?_
  have hrequest := LayerRequest.ofBootPath_of_isBootPath hpath
  have hrequest' : LayerRequest.ofQuery (LayerRequest.digestQuery name version encoded layerName) =
      .ok ⟨name, .digest ⟨Digest.sha256, encoded⟩⟩ :=
    LayerRequest.ofQuery_digestQuery hname hextension hversion hpath.isEncoded
  refine ⟨⟨name, .digest ⟨Digest.sha256, encoded⟩⟩, ?_, ?_⟩
  · rw [layerRequest?, if_pos hserved, hroute]
    dsimp only
    rw [hdecode]
    dsimp only
    rw [hrequest]
    rfl
  · rw [layerRequest?, if_pos (h.method ▸ hserved), h.query.route]
    dsimp only
    rw [h.query.2]
    dsimp only
    rw [← LayerRequest.digestQuery, hrequest']
    rfl

theorem boot_path_served_as_query :
    (∀ path request, LayerRequest.ofBootPath path = .ok request ↔
      ∃ name encoded, LayerRequest.IsBootPath path name encoded ∧
        request = ⟨name, .digest ⟨"sha256".toList, encoded⟩⟩) ∧
    (∀ path name encoded name' encoded', LayerRequest.IsBootPath path name encoded →
      LayerRequest.IsBootPath path name' encoded' → name = name' ∧ encoded = encoded') ∧
    ∀ (boot query : BootRequest) (name version encoded : Text) (layerName : Option Text),
      AskAlike boot query name version encoded layerName → name ≠ [] → name.head? ≠ some '/' →
      ¬ ".efi".toList <:+ name → version ≠ [] → encoded ≠ [] →
      (∀ c ∈ encoded, c.isAlphanum ∨ c ∈ "=_-".toList) →
      ∀ (s : LayerService) (provider : DriveProvider) (now : Time) (st : ServerState) (σ : Type)
        (network : Network σ) (start : σ),
        (onWire (serve s provider now boot st)).run network start =
          (onWire (serve s provider now query st)).run network start := by
  refine ⟨fun path request => LayerRequest.ofBootPath_eq_ok_iff,
    fun path name encoded name' encoded' => LayerRequest.IsBootPath.unique, ?_⟩
  intro boot query name version encoded layerName hask hname hslash hextension hversion hne hchars
    s provider now st σ network start
  rw [serve_of_askAlike hask hname hslash hextension hversion hne hchars]

def bootPathRequest : BootRequest where
  method := getMethod
  target := ⟨"/httpboot/r.example/sha256-0.efi/%6Fs/sha256-abc.efi".toList, none⟩
  headers := [("range".toList, "bytes=0-9".toList)]

def digestQueryRequest : BootRequest where
  method := getMethod
  target := ⟨"/image".toList, some
    "imageName=r.example%2Fsha256-0.efi/os&version=1&layerDigest=sha256:abc".toList⟩
  headers := [("range".toList, "bytes=0-9".toList)]

theorem boot_path_with_file_in_name_served_as_query :
    let name := "r.example/sha256-0.efi/os".toList
    let served (r : BootRequest) :=
      (onWire (serve digestService .empty 0 r firstState)).run guardedWire ()
    LayerRequest.IsBootPath (name ++ "/sha256-".toList ++ "abc".toList ++ ".efi".toList) name
        "abc".toList ∧
      AskAlike bootPathRequest digestQueryRequest name ['1'] "abc".toList none ∧
      (served bootPathRequest).log.length = 4 ∧
      served bootPathRequest = served digestQueryRequest := by
  intro name served
  have hencoded : Digest.IsEncoded "abc".toList := by decide
  have hchars := (Digest.isEncoded_iff.1 hencoded).2
  have hsent : Route.decode? "r.example/sha256-0.efi/%6Fs/sha256-abc.efi".toList =
      some (name ++ "/sha256-".toList ++ "abc".toList ++ ".efi".toList) := by decide +kernel
  have hask : AskAlike bootPathRequest digestQueryRequest name ['1'] "abc".toList none :=
    ⟨rfl, rfl, ⟨_, by decide, hsent⟩, rfl, by rfl⟩
  have hextension : ¬ ".efi".toList <:+ name := by decide
  obtain ⟨-, -, hserved⟩ := boot_path_served_as_query
  exact ⟨⟨by decide, by decide, hchars⟩, hask, by decide +kernel,
    hserved _ _ _ _ _ _ hask (by decide) (by decide) hextension (by decide) (by decide) hchars
      digestService .empty 0 firstState Unit guardedWire ()⟩

end Router

end NetBoot
