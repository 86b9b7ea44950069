import NetBoot.Proofs.Registry.Home
import NetBoot.Proofs.Server.Pipeline

namespace NetBoot

open Http Registry
open Dialogue (Threads Trace exists_threads_of_trace threads_append threads_singleton trace_done
  trace_run)

namespace BlobRelay

/-- A blob is asked for at a URL, and what follows the redirect that answers is the same call, made
to where that leads. -/
inductive HandsOn (url : Text) (headers : Headers) : WireLog → WireLog → Prop
  | redirected (front : WireLog) (sent : Url) (hs : Headers) (body : Body) (location : Text)
      (joined target : Url) (answer : Answer) :
      target? url = .ok sent → hs.readable? locationName = some location →
      Url.join? sent location = some joined → target? joined.toText = .ok target →
        HandsOn url headers
          (front ++ [((blobCall url headers).request sent, .response 307 hs body)])
          [((blobCall joined.toText headers).request target, answer)]

theorem redirectTarget_eq_ok {reply : Reply} {target : Url} :
    redirectTarget reply = .ok target ↔ ∃ location,
      reply.headers.readable? locationName = some location ∧
        Url.join? reply.url location = some target := by
  unfold redirectTarget
  rw [← Option.bind_eq_some_iff]
  cases (reply.headers.readable? locationName).bind (Url.join? reply.url) <;> simp

end BlobRelay

namespace LayerService

variable {s : LayerService} {cache : AuthCache} {inbound : Headers} {request : LayerRequest}
  {image : ImageName} {x : Stages}

theorem Pipeline.startsHome (h : Pipeline s cache inbound request image x)
    (hname : ImageName.parse request.imageName = .ok image)
    (hkeep : ∀ version kind reference, request.layer = .artifact version kind →
      ImageReference.withTag request.imageName version = .ok reference →
        ImageReference.KeepsRegistry request.imageName version) :
    ∀ e ∈ x.probe ++ x.token ++ x.manifests ++ x.blob,
      StartsHomeOrAtRealm s.registry image.registry e.1 := by
  intro e he
  simp only [List.mem_append] at he
  rcases he with ((hprobe | htoken) | hmanifest) | hblob
  · rw [h.negotiation.probe_eq hprobe]
    exact .inr (startsHome_probe _ _)
  · exact .inl (h.negotiation.token_eq htoken)
  · obtain ⟨auth, reference, method, target, -, href, hcall⟩ :=
      h.lookup.exists_of_mem hmanifest
    obtain ⟨version, kind, hlayer, hparse⟩ := parse_of_reference? href
    have hregistry : reference.image.registry = image.registry :=
      (ImageReference.registry_withTag_eq_iff hname hparse).2
        (hkeep version kind reference hlayer hparse)
    rw [hcall, ← hregistry]
    exact .inr (startsHome_manifest (ImageReference.parse_eq_ok hparse).1 method target auth)
  · obtain ⟨auth, d, -, hcall⟩ := h.relaying.exists_of_mem_blob hblob
    rw [hcall]
    exact .inr (startsHome_blob hname .plain .get d _)

theorem Pipeline.handsOn (h : Pipeline s cache inbound request image x)
    {front blob storage : WireLog} (hblob : Threads perform x.blob blob) (hstorage : Threads perform x.redirect storage) :
    storage = [] ∨ ∃ d auth, BlobRelay.HandsOn (blobUrl s.registry image d)
      (BlobRelay.outbound inbound auth) (front ++ blob) storage := by
  have hcalls := h.relaying.redirect_calls
  rcases redirection_cases x.blob with
    hnil | ⟨first, reply, joined, hone, hstatus, hjoined, hsecond⟩
  · rw [calls_eq_nil (hcalls.trans hnil)] at hstorage
    cases hstorage
    exact .inl rfl
  · have hmem : (first, Except.ok reply) ∈ x.blob := by rw [hone]; exact .head _
    obtain ⟨auth, d, -, rfl⟩ := h.relaying.exists_of_mem_blob hmem
    obtain ⟨⟨second, last⟩, hredirect, rfl⟩ := List.map_eq_singleton_iff.1 (hcalls.trans hsecond)
    rw [hone] at hblob
    rw [hredirect] at hstorage
    rcases trace_perform_plain rfl (threads_singleton hblob) with
      ⟨e, -, -, hfailed⟩ | ⟨sent, answer, htarget, rfl, hreply⟩
    · cases hfailed
    · cases answer with
      | failed fault => cases hreply
      | response status hs body =>
          cases hreply
          obtain ⟨location, hlocation, hjoin⟩ := BlobRelay.redirectTarget_eq_ok.1 hjoined
          rcases trace_perform_plain rfl (threads_singleton hstorage) with
            ⟨e, -, rfl, -⟩ | ⟨target, final, hsent, rfl, -⟩
          · exact .inl rfl
          · obtain rfl : status = 307 := hstatus
            exact .inr ⟨d, auth, .redirected front sent hs body location joined target final htarget
              hlocation hjoin hsent⟩

end LayerService

namespace Router

variable {s : LayerService} {provider : DriveProvider} {now : Time} {r : BootRequest}
  {st : ServerState} {log : WireLog} {served : Served}

def DiscreetToStorage (s : LayerService) (provider : DriveProvider) (now : Time) (r : BootRequest)
    (st : ServerState) (image : ImageName) (log : WireLog) (served : Served) : Prop :=
  ∃ calls within storage, Trace (serve s provider now r st) calls served ∧
    Threads perform calls log ∧ log = within ++ storage ∧
    (storage = [] ∨ ∃ d auth, BlobRelay.HandsOn (blobUrl s.registry image d)
      (BlobRelay.outbound r.headers auth) within storage) ∧
    ∀ e ∈ within, Confided s.registry image.registry calls e.1

theorem discreetToStorage_of_trace {request : LayerRequest} {image : ImageName}
    (hkeep : KeepsRegistry r) (hrequest : layerRequest? r = some request)
    (himage : LayerService.admittedImage s.policy request.imageName = .ok image)
    (h : Trace (onWire (serve s provider now r st)) log served) :
    DiscreetToStorage s provider now r st image log served := by
  obtain ⟨hname, -⟩ := LayerService.admittedImage_eq_ok.1 himage
  obtain ⟨calls, htrace, hthreads⟩ := exists_threads_of_trace h
  obtain ⟨x, rfl, hpipeline, -⟩ := trace_serve hrequest himage htrace
  obtain ⟨within, storage, rfl, hwithin, hstorage⟩ := threads_append hthreads
  obtain ⟨front, blob, rfl, -, hblob⟩ := threads_append hwithin
  have hhome := hpipeline.startsHome hname fun version kind reference hlayer href =>
    hkeep request version kind image reference hrequest hlayer hname href
  refine ⟨x.log, front ++ blob, storage, htrace, hthreads, rfl, hpipeline.handsOn hblob hstorage,
    fun e he => ?_⟩
  exact (confided_of_threads hwithin hhome e he).mono fun e he => List.mem_append_left _ he

theorem credentials_stay_but_for_blobs {σ : Type} (network : Network σ) (start : σ) :
    (∀ (r : Resolver) (text architecture : Text) (reference : ImageReference) (cache : AuthCache),
      ImageReference.parse text = .ok reference →
      let home {α : Type} : Calls α → Prop :=
        Discreet r.config reference.image.registry network start
      (∀ kinds auth, ∀ q ∈ (onWire (r.resolveWith reference architecture kinds auth).run).questions
        network start, q.authorizations ≠ [] →
          isHome r.config reference.image.registry q.url) ∧
      (∀ kinds, home ((r.resolve reference architecture kinds).run.run cache)) ∧
      (∀ kind, home ((r.resolveSingle reference architecture kind).run.run cache)) ∧
      home ((r.resolvePxe reference architecture).run.run cache) ∧
      ∀ serverUrl, home ((r.httpBootUrl text serverUrl architecture).run.run cache)) ∧
    ∀ (s : LayerService) (provider : DriveProvider) (now : Time) (r : BootRequest)
      (st : ServerState), KeepsRegistry r →
      let o := (onWire (serve s provider now r st)).run network start
      (∀ request image, layerRequest? r = some request →
        ImageName.parse request.imageName = .ok image →
          DiscreetToStorage s provider now r st image o.log o.result) ∧
      ((∀ request image, layerRequest? r = some request →
        ImageName.parse request.imageName ≠ .ok image) → o.log = []) := by
  constructor
  · intro r text architecture reference cache hparse
    refine ⟨fun kinds auth q hq => ?_,
      fun kinds => discreet_of_holds (Resolver.holds_resolve hparse []) network start,
      fun kind => discreet_of_holds (Resolver.holds_resolveSingle hparse []) network start,
      discreet_of_holds (Resolver.holds_resolvePxe hparse []) network start,
      fun serverUrl => discreet_of_holds (Resolver.holds_httpBootUrl hparse []) network start⟩
    obtain ⟨e, he, rfl⟩ := List.mem_map.1 hq
    exact Resolver.resolveWith_stays_home hparse (trace_run _ network start) e he
  · intro s provider now r st hkeep o
    have htrace : Trace (onWire (serve s provider now r st)) o.log o.result :=
      trace_run _ network start
    have hnone (h : ∀ request image, layerRequest? r = some request →
        LayerService.admittedImage s.policy request.imageName ≠ .ok image) :
        ∃ served, serve s provider now r st = .done served := exists_serve_eq_done h
    refine ⟨fun request image hrequest hname => ?_, fun h => ?_⟩
    · by_cases hadm : s.policy.admits image.registry = true
      · have himage := LayerService.admittedImage_eq_ok.2 ⟨hname, hadm⟩
        exact discreetToStorage_of_trace hkeep hrequest himage htrace
      · obtain ⟨served, hdone⟩ := hnone fun request' image' hrequest' himage => by
          obtain ⟨hname', hadm'⟩ := LayerService.admittedImage_eq_ok.1 himage
          cases hrequest.symm.trans hrequest'
          cases hname.symm.trans hname'
          exact hadm hadm'
        rw [hdone] at htrace
        obtain ⟨hlog, hresult⟩ := trace_done.1 htrace
        refine ⟨[], [], [], ?_, hlog ▸ .nil, hlog, .inl rfl, by simp⟩
        rw [hdone, hresult]
        exact .done served
    · obtain ⟨served, hdone⟩ := hnone fun request image hrequest himage =>
        h request image hrequest (LayerService.admittedImage_eq_ok.1 himage).1
      rw [hdone] at htrace
      exact (trace_done.1 htrace).1

def firstReference : ImageReference :=
  ⟨"r.example/os".toList, digestImage, some ['1'], none⟩

theorem digest_request_sends_token_home :
    let log := ((onWire (serve digestService .empty 0 digestRequest firstState)).run guardedWire
      ()).log
    ImageReference.parse "r.example/os:1".toList = .ok firstReference ∧
      (∀ kinds, Discreet {} "r.example".toList guardedWire ()
        ((digestService.resolver.resolve firstReference "amd64".toList kinds).run.run [])) ∧
      KeepsRegistry digestRequest ∧ log.length = 4 ∧
      ∃ served, DiscreetToStorage digestService .empty 0 digestRequest firstState digestImage log
        served := by
  intro log
  have hparse : ImageReference.parse "r.example/os:1".toList = .ok firstReference := by rfl
  have hkeep : KeepsRegistry digestRequest := by
    intro request version kind image reference hrequest hlayer
    cases layerRequest?_digestRequest.symm.trans hrequest
    cases hlayer
  have hcalls : log.length = 4 := by decide +kernel
  obtain ⟨hresolved, hserved⟩ := credentials_stay_but_for_blobs guardedWire ()
  obtain ⟨-, hlayers, -⟩ :=
    hresolved digestService.resolver _ "amd64".toList firstReference [] hparse
  obtain ⟨hlog, -⟩ := hserved digestService .empty 0 digestRequest firstState hkeep
  exact ⟨hparse, hlayers, hkeep, hcalls, _,
    hlog digestLayer digestImage layerRequest?_digestRequest admits_digestImage.1⟩

theorem token_leaves_registry :
    (∃ q ∈ (onWire (serve digestService .empty 0 digestRequest firstState)).questions guardedWire
        (),
      q.url.hostText = "s.example".toList ∧
        q.headers.values authorizationName = ["Bearer t".toList] ∧
        isHome digestService.registry digestImage.registry q.url = false) ∧
    ∃ q ∈ (onWire (serve ⟨{}, .ofLists [] "r.example".toList, "amd64".toList⟩ .empty 0
        strayingRequest firstState)).questions guardedWire (),
      q.url.toText = "https://evil:80/v2/x/manifests/latest".toList ∧
        q.headers.values authorizationName = ["Bearer t".toList] ∧
        isHome {} "registry-1.docker.io".toList q.url = false := by
  decide +kernel

end Router

end NetBoot
