import NetBoot.Proofs.Http.FieldOrder
import NetBoot.Proofs.Server.Pipeline

namespace NetBoot

open Http
open Dialogue (Alike trace_run)
open LayerService (Pipeline)

namespace BlobRelay

def Agree (a b : Headers) : Prop := ∀ name ∉ withheld, a.values name = b.values name

variable {a b : Headers}

theorem same_forwarded (h : Agree a b) : (forwarded a).Same (forwarded b) := by
  intro name
  rw [values_forwarded, values_forwarded]
  split
  · rfl
  · next hname => exact h name hname

theorem same_outbound (h : Agree a b) (auth : Option Text) :
    (outbound a auth).Same (outbound b auth) := by
  intro name
  rw [values_outbound, values_outbound, same_forwarded h name]

theorem alike_send (url : Text) (h : a.Same b) :
    Alike Call.Same (send url a).run (send url b).run := by
  rw [LayerService.run_send, LayerService.run_send]
  exact .ask _ _ _ _ ⟨rfl, rfl, rfl, h⟩ fun _ => .done _

theorem alike_fetch (url : Text) (h : a.Same b) :
    Alike Call.Same (fetch url a).run (fetch url b).run := by
  refine (alike_send url h).bind_except fun first => ?_
  split
  · exact (Alike.refl Call.Same.refl _).bind_except fun location => alike_send location.toText h
  · exact .refl Call.Same.refl _

theorem alike_relay (c : RegistryConfig) (image : ImageName) (d : Digest) (auth : Option Text)
    (h : Agree a b) : Alike Call.Same (relay c a image d auth).run (relay c b image d auth).run := by
  exact (alike_fetch _ (same_outbound h auth)).bind_except fun reply => .refl Call.Same.refl _

end BlobRelay

namespace LayerService

variable {s : LayerService} {a b : Headers}

theorem alike_serve (request : LayerRequest) (cache : AuthCache) (h : BlobRelay.Agree a b) :
    Alike Call.Same ((s.serve a request).run.run cache) ((s.serve b request).run.run cache) := by
  cases himage : admittedImage s.policy request.imageName with
  | error e =>
      rw [serve, serve, run_bind_ofExcept, run_bind_ofExcept, himage]
      exact .done _
  | ok image =>
      rw [run_serve_of_admitted himage, run_serve_of_admitted himage]
      refine (Alike.refl Call.Same.refl _).bind fun p => ?_
      refine Alike.bind ?_ fun r => .done _
      obtain ⟨e | ⟨auth, d⟩, known⟩ := p
      · exact .done _
      · exact BlobRelay.alike_relay s.registry image d auth h

variable {cache : AuthCache} {inbound : Headers} {request : LayerRequest} {image : ImageName}
  {x : Stages}

theorem Pipeline.carries (h : Pipeline s cache inbound request image x) :
    ∀ e ∈ x.blob ++ x.redirect, ∃ auth, s.auth? cache image x.probe x.token = some auth ∧
      BlobRelay.Carries inbound auth e.1 := by
  intro e he
  have hrelaying := h.relaying
  cases hauth : s.auth? cache image x.probe x.token with
  | none =>
      rw [hauth] at hrelaying
      obtain ⟨hblob, hredirect⟩ := hrelaying.eq_nil
      rw [hblob, hredirect] at he
      exact nomatch he
  | some auth =>
      rw [hauth] at hrelaying
      obtain ⟨url, hcall⟩ := hrelaying.exists_of_mem he
      exact ⟨auth, rfl, hcall ▸ BlobRelay.carries_blobCall url inbound auth⟩

end LayerService

namespace Router

variable {s : LayerService} {provider : DriveProvider} {now : Time} {r : BootRequest}
  {st : ServerState} {hs : Headers}

theorem alike_ofBoot {x y : Boot Response}
    (h : Alike Call.Same (x.run.run st.auth) (y.run.run st.auth)) :
    Alike Call.Same (ofBoot x st) (ofBoot y st) := h.bind fun _ => .done _

theorem alike_serve (h : BlobRelay.Agree hs r.headers) :
    Alike Call.Same (serve s provider now { r with headers := hs } st)
      (serve s provider now r st) := by
  have hlayer (x : Except BootError LayerRequest) : Alike Call.Same
      (ofBoot (Boot.ofExcept x >>= s.serve hs) st)
      (ofBoot (Boot.ofExcept x >>= s.serve r.headers) st) := by
    rw [ofBoot_run_bind_ofExcept, ofBoot_run_bind_ofExcept]
    cases x with
    | error e => exact .done _
    | ok request => exact alike_ofBoot (LayerService.alike_serve request st.auth h)
  refine Alike.bind ?_ fun served => .done _
  unfold serveMethod
  dsimp only
  split
  · exact .done _
  · next route _ =>
      split
      · cases route with
        | image =>
            unfold serveRoute
            dsimp only
            split
            · exact .done _
            · next q _ => exact hlayer (LayerRequest.ofQuery q)
        | httpBoot path =>
            unfold serveRoute
            dsimp only
            split
            · exact .done _
            · next path _ => exact hlayer (LayerRequest.ofBootPath path)
        | drive file => exact .refl Call.Same.refl _
        | health => exact .done _
      · exact .done _

theorem log_serve_of_admitted {request : LayerRequest} {image : ImageName}
    (hrequest : layerRequest? r = some request)
    (himage : LayerService.admittedImage s.policy request.imageName = .ok image) {σ : Type}
    (network : Dialogue.Answerer Call (Except CallError Reply) σ) (start : σ) (hs : Headers) :
    let prepared := ((s.prepare request image).run.run st.auth).run network start
    ((serve s provider now { r with headers := hs } st).run network start).log =
      prepared.log ++ ((s.transfer hs image prepared.result.1).run.run network prepared.state).log := by
  intro prepared
  have hsame : layerRequest? { r with headers := hs } = some request := hrequest
  rw [serve, serveMethod_of_layerRequest hsame, ofBoot_eq,
    LayerService.run_serve_of_admitted himage]
  simp only [Dialogue.run_bind, Dialogue.run, List.append_nil]
  rfl

theorem client_credentials_withheld (s : LayerService) (provider : DriveProvider) (now : Time)
    (r : BootRequest) (st : ServerState) :
    (∀ hs, BlobRelay.Agree hs r.headers →
      Alike Request.Same (onWire (serve s provider now { r with headers := hs } st))
        (onWire (serve s provider now r st)) ∧
      ∀ {σ : Type} (network : Network σ),
        (∀ q q' n, q.Same q' → network q n = network q' n) → ∀ start,
          let run := (onWire (serve s provider now { r with headers := hs } st)).run network start
          let run' := (onWire (serve s provider now r st)).run network start
          run.result = run'.result ∧ run.state = run'.state ∧
            List.Forall₂ (fun e e' => e.1.Same e'.1 ∧ e.2 = e'.2) run.log run'.log) ∧
      ∀ request image, layerRequest? r = some request →
        ImageName.parse request.imageName = .ok image → s.policy.admits image.registry = true →
        ∀ {σ : Type} (network : Dialogue.Answerer Call (Except CallError Reply) σ) (start : σ),
          ∃ probe token head get : CallLog, ∀ hs, ∃ blob redirect : CallLog,
            let x : Stages := ⟨probe, token, head, get, blob, redirect⟩
            ((serve s provider now { r with headers := hs } st).run network start).log = x.log ∧
              Pipeline s st.auth hs request image x ∧
              ∀ e ∈ blob ++ redirect, ∃ auth, s.auth? st.auth image probe token = some auth ∧
                BlobRelay.Carries hs auth e.1 := by
  refine ⟨fun hs h => ?_, fun request image hrequest hparse hadm σ network start => ?_⟩
  · have halike : Alike Request.Same (onWire (serve s provider now { r with headers := hs } st))
        (onWire (serve s provider now r st)) :=
      (alike_serve h).through fun _ _ => alike_perform
    exact ⟨halike, fun network hblind start => halike.run hblind start⟩
  · have himage := LayerService.admittedImage_eq_ok.2 ⟨hparse, hadm⟩
    -- Up to the transfer the headers play no part: this run is one for all of them.
    obtain ⟨probe, token, head, get, hlog, hprepared⟩ := LayerService.trace_prepare
      (trace_run ((s.prepare request image).run.run st.auth) network start)
    refine ⟨probe, token, head, get, fun hs => ?_⟩
    obtain ⟨blob, redirect, hrest, hpipeline⟩ := LayerService.trace_transfer hprepared
      (trace_run (s.transfer hs image _).run network
        (((s.prepare request image).run.run st.auth).run network start).state)
    refine ⟨blob, redirect, ?_, hpipeline, hpipeline.carries⟩
    rw [log_serve_of_admitted hrequest himage network start hs, hlog, hrest]
    simp only [Stages.log, Stages.manifests, List.append_assoc]

def unnamed : Headers := [("range".toList, "bytes=0-9".toList)]

def namedRequest : BootRequest where
  method := getMethod
  target := digestRequest.target
  headers := unnamed ++
    [(authorizationName, "Basic eDp5".toList), (hostName, "boot.example".toList)]

theorem agree_unnamed : BlobRelay.Agree unnamed namedRequest.headers := by
  intro name hname
  have hauth : authorizationName ≠ name := fun heq => hname (heq ▸ .head _)
  have hhost : hostName ≠ name := fun heq => hname (heq ▸ .tail _ (.head _))
  simp [namedRequest, Headers.values, hauth, hhost]

theorem named_request_relayed_unnamed :
    ((onWire (serve digestService .empty 0 { namedRequest with headers := unnamed }
        firstState)).run unrouted ()).result =
        ((onWire (serve digestService .empty 0 namedRequest firstState)).run unrouted ()).result ∧
      ((serve digestService .empty 0 namedRequest firstState).run guardedNetwork ()).log.length =
        4 ∧
      ∃ x : Stages,
        ((serve digestService .empty 0 namedRequest firstState).run guardedNetwork ()).log = x.log ∧
          Pipeline digestService firstState.auth namedRequest.headers digestLayer digestImage x ∧
          ∀ e ∈ x.blob ++ x.redirect, ∃ auth,
            digestService.auth? firstState.auth digestImage x.probe x.token = some auth ∧
              BlobRelay.Carries namedRequest.headers auth e.1 := by
  have hrequest : layerRequest? namedRequest = some digestLayer := by decide +kernel
  have hcalls : ((serve digestService .empty 0 namedRequest firstState).run guardedNetwork
      ()).log.length = 4 := by decide +kernel
  obtain ⟨hparse, hadm⟩ := admits_digestImage
  obtain ⟨hwire, hstages⟩ := client_credentials_withheld digestService .empty 0 namedRequest
    firstState
  obtain ⟨hresult, -, -⟩ := (hwire unnamed agree_unnamed).2 unrouted (fun _ _ _ _ => rfl) ()
  obtain ⟨probe, token, head, get, hruns⟩ :=
    hstages digestLayer digestImage hrequest hparse hadm guardedNetwork ()
  obtain ⟨blob, redirect, hlog, hpipeline, hcarries⟩ := hruns namedRequest.headers
  exact ⟨hresult, hcalls, ⟨probe, token, head, get, blob, redirect⟩, hlog, hpipeline, hcarries⟩

theorem open_registry_named_user :
    ((onWire (serve userService .empty 0 userRequest firstState)).questions
        (fun _ u => (.response 200 [] ⟨[], .whole, none⟩, u)) ()).map
          (fun q => (q.url.toText, q.authorizations)) =
      [("https://r.example/v2/".toList, ["Basic dTpw".toList]),
        ("https://r.example/v2/os/blobs/sha256:".toList ++ List.replicate 64 'a',
          ["Basic dTpw".toList])] := by
  decide +kernel

end Router

end NetBoot
