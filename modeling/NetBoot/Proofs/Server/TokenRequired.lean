import NetBoot.Proofs.Http.Redirects
import NetBoot.Proofs.Registry.TokenAnswer
import NetBoot.Proofs.Server.Pipeline

namespace NetBoot

open Http Registry
open Dialogue (Trace trace_bind trace_done trace_ask_done trace_run)

namespace Registry

variable {info : RegistryInfo} {repository token : Text} {reply : Reply}
  {answer : Except CallError Reply} {auth : Option Text} {e : RegistryError}

def IsSendable (token : Text) : Prop :=
  ∀ c ∈ token, c = '\t' ∨ 0x20 ≤ c.toNat ∧ c.toNat ≠ 0x7F

structure Grants (reply : Reply) (token : Text) : Prop where
  success : 200 ≤ reply.status ∧ reply.status < 300
  whole : reply.body.whole = true
  named : TokenResponse.Names reply.body.bytes token
  sendable : IsSendable token

theorem tokenOfReply_eq_ok : tokenOfReply reply = .ok token ↔
    (200 ≤ reply.status ∧ reply.status < 300) ∧ reply.body.whole = true ∧
      TokenResponse.Names reply.body.bytes token := by
  have hsuccess : reply.isSuccess = true ↔ 200 ≤ reply.status ∧ reply.status < 300 := by
    simp [Reply.isSuccess]
  rw [← hsuccess, TokenResponse.names_iff]
  rw [tokenOfReply, Reply.toOption_bytes]
  by_cases hstatus : reply.isSuccess = true
  · by_cases hwhole : reply.body.whole = true
    · simp only [hstatus, hwhole, if_true, Option.map_some, true_and]
      cases hread : TokenResponse.ofBytes reply.body.bytes with
      | error f => simp
      | ok response => cases hchosen : response.chosen <;> simp [hchosen]
    · simp [hstatus, hwhole]
  · simp [hstatus]

theorem tokenOfReply_eq_error (h : tokenOfReply reply = .error e) :
    ∃ message, e = .authenticationFailed message := by
  unfold tokenOfReply at h
  split at h
  · split at h
    · split at h
      · exact nomatch h
      · exact ⟨_, (Except.error.inj h).symm⟩
    · exact ⟨_, (Except.error.inj h).symm⟩
  · exact ⟨_, (Except.error.inj h).symm⟩

theorem tokenOf_eq_error (h : tokenOf answer = .error e) :
    ∃ message, e = .authenticationFailed message := by
  cases answer with
  | error fault => exact ⟨_, (Except.error.inj h).symm⟩
  | ok reply => exact tokenOfReply_eq_error h

theorem isLegal_bearerHeader : Headers.isLegal (bearerHeader token) = true ↔ IsSendable token := by
  have hscheme : Headers.isLegal "Bearer ".toList = true := by decide
  have hlegal : Headers.isLegal (bearerHeader token) =
      (Headers.isLegal "Bearer ".toList && Headers.isLegal token) := List.all_append
  rw [hlegal, hscheme, Bool.true_and, Headers.isLegal, List.all_eq_true]
  refine forall₂_congr fun c _ => ?_
  simp only [Bool.or_eq_true, Bool.and_eq_true, decide_eq_true_eq]
  exact or_comm

theorem headerOf_eq_error (h : headerOf token = .error e) :
    ∃ message, e = .authenticationFailed message := by
  unfold headerOf at h
  split at h
  · exact nomatch h
  · exact ⟨_, (Except.error.inj h).symm⟩

theorem granted_iff : (tokenOf answer).bind headerOf = .ok auth ↔
    ∃ reply token, answer = .ok reply ∧ Grants reply token ∧ auth = some (bearerHeader token) := by
  refine Except.bind_eq_ok.trans ?_
  simp only [headerOf_eq_ok, isLegal_bearerHeader]
  constructor
  · rintro ⟨token, htoken, hsendable, rfl⟩
    cases answer with
    | error fault => exact nomatch htoken
    | ok reply =>
        obtain ⟨hsuccess, hwhole, hnamed⟩ := tokenOfReply_eq_ok.1 htoken
        exact ⟨reply, token, rfl, ⟨hsuccess, hwhole, hnamed, hsendable⟩, rfl⟩
  · rintro ⟨reply, token, rfl, hgrants, rfl⟩
    exact ⟨token, tokenOfReply_eq_ok.2 ⟨hgrants.success, hgrants.whole, hgrants.named⟩,
      hgrants.sendable, rfl⟩

theorem eq_authenticationFailed_of_refused (h : (tokenOf answer).bind headerOf = .error e) :
    ∃ message, e = .authenticationFailed message := by
  cases htoken : tokenOf answer with
  | error e' =>
      obtain ⟨message, rfl⟩ := tokenOf_eq_error htoken
      rw [htoken] at h
      exact ⟨message, (Except.error.inj h).symm⟩
  | ok token =>
      rw [htoken] at h
      exact headerOf_eq_error h

theorem run_authorization_of_bearer (hbearer : info.method = .bearer) (repository : Text) :
    (authorization info repository).run =
      match info.tokenUrlFor repository with
      | none =>
          .done (.error (.authenticationFailed "bearer challenge without a usable realm".toList))
      | some url => .ask (tokenCall url) fun a => .done ((tokenOf a).bind headerOf) := by
  rw [run_authorization, hbearer]
  cases info.tokenUrlFor repository <;> rfl

theorem tokenUrlFor_eq_none_iff (hbearer : info.method = .bearer) :
    info.tokenUrlFor repository = none ↔
      ∀ realm, info.realm = some realm → Url.parse? realm = none := by
  unfold RegistryInfo.tokenUrlFor
  rw [hbearer]
  cases info.realm with
  | none => simp
  | some realm => simp [RegistryInfo.tokenUrlOf]

theorem trace_authorization_of_bearer (hbearer : info.method = .bearer) {log : CallLog}
    {result : Except RegistryError (Option Text)}
    (h : Trace (authorization info repository).run log result) :
    (∀ auth, result = .ok auth ↔ ∃ url reply token, log = [(tokenCall url, .ok reply)] ∧
        Grants reply token ∧ auth = some (bearerHeader token)) ∧
      (∀ e, result = .error e → ∃ message, e = .authenticationFailed message) ∧
      log.map Prod.fst = ((info.tokenUrlFor repository).map tokenCall).toList := by
  rw [run_authorization_of_bearer hbearer] at h
  cases hurl : info.tokenUrlFor repository with
  | none =>
      rw [hurl] at h
      obtain ⟨rfl, rfl⟩ := trace_done.1 h
      refine ⟨fun auth => ⟨nofun, fun ⟨_, _, _, hlog, _⟩ => nomatch hlog⟩, ?_, rfl⟩
      exact fun e he => ⟨_, (Except.error.inj he).symm⟩
  | some url =>
      rw [hurl] at h
      obtain ⟨answer, rfl, rfl⟩ := trace_ask_done.1 h
      refine ⟨fun auth => ?_, fun e => eq_authenticationFailed_of_refused, rfl⟩
      rw [granted_iff]
      constructor
      · rintro ⟨reply, token, rfl, hgrants, rfl⟩
        exact ⟨url, reply, token, rfl, hgrants, rfl⟩
      · rintro ⟨_, reply, token, hlog, hgrants, rfl⟩
        cases hlog
        exact ⟨reply, token, rfl, hgrants, rfl⟩

theorem trace_onWire_authorization (hbearer : info.method = .bearer)
    {log : List (Request × Answer)} {result : Except RegistryError (Option Text)}
    (h : Trace (onWire (authorization info repository).run) log result) :
    (log = [] ∧ ∀ url, info.tokenUrlFor repository = some url → ∃ e, target? url = .error e) ∨
      ∃ url target, info.tokenUrlFor repository = some url ∧ target? url = .ok target ∧
        Chain ⟨.get, target, (tokenCall url).wireHeaders⟩ log ∧ log.length ≤ redirectLimit + 1 := by
  rw [run_authorization_of_bearer hbearer] at h
  cases hurl : info.tokenUrlFor repository with
  | none =>
      rw [hurl] at h
      exact .inl ⟨(trace_done.1 h).1, nofun⟩
  | some url =>
      rw [hurl] at h
      obtain ⟨first, answer, rest, rfl, hcall, hdone⟩ := trace_bind.1 h
      obtain ⟨rfl, -⟩ := trace_done.1 hdone
      rw [List.append_nil]
      rcases trace_perform_following rfl hcall with ⟨e, htarget, rfl, -⟩ | ⟨target, htarget, hchain⟩
      · refine .inl ⟨rfl, fun url' hurl' => ?_⟩
        cases hurl'
        exact ⟨e, htarget⟩
      · exact .inr ⟨url, target, rfl, htarget, hchain⟩

end Registry

namespace Resolver

theorem run_negotiate (c : RegistryConfig) (image : ImageName) (cache : AuthCache) :
    (negotiate c image).run.run cache =
      ((registryInfo c image.registry image.repository).run.run cache).bind fun p =>
        match p with
        | (.ok info, known) => (authorization info image.repository).run.bind fun r =>
            .done (r.map fun auth => (info, auth), known)
        | (.error e, known) => .done (.error e, known) := by
  rw [negotiate, ExceptT.run_bind, StateT.run_bind]
  refine congrArg (Dialogue.bind _) (funext fun p => ?_)
  obtain ⟨e | info, known⟩ := p
  · rfl
  · dsimp only
    rw [ExceptT.run_bind, StateT.run_bind, Session.run_ofFetch]
    refine (Dialogue.bind_assoc _ _ _).trans ?_
    refine congrArg (Dialogue.bind _) (funext fun r => ?_)
    cases r <;> rfl

end Resolver

namespace Router

variable {s : LayerService} {provider : DriveProvider} {now : Time} {r : BootRequest}
  {st : ServerState}

def detection {σ : Type} (s : LayerService) (image : ImageName) (st : ServerState)
    (network : Dialogue.Answerer Call (Except CallError Reply) σ) (start : σ) :
    Dialogue.Outcome Call (Except CallError Reply)
      (Except RegistryError RegistryInfo × AuthCache) σ :=
  ((registryInfo s.registry image.registry image.repository).run.run st.auth).run network start

theorem serve_of_unauthorized {request : LayerRequest} {image : ImageName} {info : RegistryInfo}
    {e : RegistryError} {σ : Type} {network : Dialogue.Answerer Call (Except CallError Reply) σ}
    {start : σ} (hrequest : layerRequest? r = some request)
    (himage : LayerService.admittedImage s.policy request.imageName = .ok image) :
    let found := detection s image st network start
    let outcome := (authorization info image.repository).run.run network found.state
    let served := (serve s provider now r st).run network start
    found.result.1 = .ok info → outcome.result = .error e →
      served.result.response = finished r (.ofError (.registry e)) ∧
        served.log = found.log ++ outcome.log := by
  intro found outcome served hinfo hfailed
  obtain ⟨known, hfound⟩ : ∃ known, found.result = (.ok info, known) := ⟨_, Prod.ext hinfo rfl⟩
  have hthrow : (throw (BootError.registry e) : Relay Response).run =
      .done (.error (.registry e)) := rfl
  simp only [found, outcome, served, detection] at hfound hfailed ⊢
  rw [serve, serveMethod_of_layerRequest hrequest, ofBoot_eq,
    LayerService.run_serve_of_admitted himage, LayerService.run_prepare, Resolver.run_negotiate]
  simp only [Dialogue.run_bind, hfound, hfailed, Dialogue.run, Except.map, LayerService.transfer,
    hthrow, List.append_nil, and_self]

theorem bearer_registry_needs_token {info : RegistryInfo} (hbearer : info.method = .bearer)
    (repository : Text) :
    (∀ (σ : Type) (endpoint : Dialogue.Answerer Call (Except CallError Reply) σ) (start : σ),
      let outcome := (authorization info repository).run.run endpoint start
      (∀ auth, outcome.result = .ok auth ↔
        ∃ url reply token, outcome.log = [(tokenCall url, .ok reply)] ∧ Grants reply token ∧
          auth = some ("Bearer ".toList ++ token)) ∧
      (∀ e, outcome.result = .error e → ∃ message, e = .authenticationFailed message) ∧
      outcome.log.map Prod.fst = ((info.tokenUrlFor repository).map tokenCall).toList) ∧
    (info.tokenUrlFor repository = none ↔
      ∀ realm, info.realm = some realm → Url.parse? realm = none) ∧
    (∀ (σ : Type) (network : Network σ) (start : σ),
      let log := ((onWire (authorization info repository).run).run network start).log
      (log = [] ∧ ∀ url, info.tokenUrlFor repository = some url → ∃ e, target? url = .error e) ∨
        ∃ url target, info.tokenUrlFor repository = some url ∧ target? url = .ok target ∧
          Chain ⟨.get, target, (tokenCall url).wireHeaders⟩ log ∧ log.length ≤ redirectLimit + 1) ∧
    ∀ (s : LayerService) (provider : DriveProvider) (now : Time) (r : BootRequest)
      (st : ServerState) (request : LayerRequest) (image : ImageName) (σ : Type)
      (network : Dialogue.Answerer Call (Except CallError Reply) σ) (start : σ),
      layerRequest? r = some request →
      LayerService.admittedImage s.policy request.imageName = .ok image →
      let found := detection s image st network start
      let outcome := (authorization info image.repository).run.run network found.state
      let served := (serve s provider now r st).run network start
      found.result.1 = .ok info → ∀ e, outcome.result = .error e →
        served.result.response.status = 401 ∧ served.log = found.log ++ outcome.log := by
  refine ⟨fun σ endpoint start => ?_, tokenUrlFor_eq_none_iff hbearer,
    fun σ network start => ?_, ?_⟩
  · exact trace_authorization_of_bearer hbearer (trace_run _ endpoint start)
  · exact trace_onWire_authorization hbearer (trace_run _ network start)
  · intro s provider now r st request image σ network start hrequest himage found outcome served
      hinfo e hfailed
    obtain ⟨hresponse, hlog⟩ := serve_of_unauthorized hrequest himage hinfo hfailed
    obtain ⟨-, herror, -⟩ :=
      trace_authorization_of_bearer hbearer (trace_run _ network found.state)
    obtain ⟨message, rfl⟩ := herror e hfailed
    refine ⟨?_, hlog⟩
    rw [hresponse, status_finished]
    rfl

def guardedInfo : RegistryInfo :=
  .ofChallenge "r.example".toList (.bearer "https://t.example".toList none) "os".toList

def tokenReply (body : Text) : Reply := ⟨default, 200, [], ⟨Utf8.encode body, .whole, none⟩⟩

def tokenNetwork (body : Text) : Dialogue.Answerer Call (Except CallError Reply) Unit :=
  fun q u =>
    (if q.url = "https://r.example/v2/".toList then
      .ok ⟨default, 401, [(challengeName, "Bearer realm=\"https://t.example\"".toList)],
        ⟨[], .whole, none⟩⟩
    else .ok (tokenReply body), u)

theorem bearer_registry_needs_token_of_empty_token :
    let tokenUrl := "https://t.example/?scope=repository:os:pull".toList
    let granting := "\x7b\"token\":\"\",\"access_token\":\"t\"\x7d".toList
    let refusing := "\x7b\"token\":null\x7d".toList
    guardedInfo.method = .bearer ∧
      ((authorization guardedInfo "os".toList).run.run (tokenNetwork granting) ()).log =
        [(tokenCall tokenUrl, .ok (tokenReply granting))] ∧
      Grants (tokenReply granting) "t".toList ∧
      ((serve digestService .empty 0 digestRequest firstState).run (tokenNetwork refusing)
        ()).result.response.status = 401 ∧
      ((serve digestService .empty 0 digestRequest firstState).run (tokenNetwork refusing)
        ()).log.length = 2 := by
  intro tokenUrl granting refusing
  have hbearer : guardedInfo.method = .bearer := rfl
  obtain ⟨hauthorized, -, -, hserved⟩ := bearer_registry_needs_token hbearer "os".toList
  have hok : ((authorization guardedInfo "os".toList).run.run (tokenNetwork granting) ()).result =
      .ok (some "Bearer t".toList) := Except.toOption_eq_some.1 (by decide +kernel)
  obtain ⟨url, reply, token, hlog, hgrants, htoken⟩ :=
    ((hauthorized Unit (tokenNetwork granting) ()).1 _).1 hok
  obtain rfl : token = "t".toList :=
    (List.append_cancel_left (Option.some.inj htoken : "Bearer ".toList ++ "t".toList = _)).symm
  have hcall : ((authorization guardedInfo "os".toList).run.run (tokenNetwork granting) ()).log =
      [(tokenCall tokenUrl, .ok (tokenReply granting))] := by decide +kernel
  obtain rfl : reply = tokenReply granting := by
    rw [hcall] at hlog
    cases hlog
    rfl
  obtain ⟨hparse, hadmitted⟩ := admits_digestImage
  have himage := LayerService.admittedImage_eq_ok.2 ⟨hparse, hadmitted⟩
  let found := detection digestService digestImage firstState (tokenNetwork refusing) ()
  have hfound : found.result.1 = .ok guardedInfo := Except.toOption_eq_some.1 (by decide +kernel)
  have hrefused : ((authorization guardedInfo digestImage.repository).run.run
      (tokenNetwork refusing) found.state).result =
        .error (.authenticationFailed "token endpoint returned no token".toList) := by
    decide +kernel
  have hclient := hserved digestService .empty 0 digestRequest firstState digestLayer digestImage
    Unit (tokenNetwork refusing) () layerRequest?_digestRequest himage
  obtain ⟨hstatus, hcalls⟩ := hclient hfound _ hrefused
  have hlength : (found.log ++ ((authorization guardedInfo digestImage.repository).run.run
      (tokenNetwork refusing) found.state).log).length = 2 := by decide +kernel
  exact ⟨hbearer, hcall, hgrants, hstatus, (congrArg List.length hcalls).trans hlength⟩

end Router

end NetBoot
