import NetBoot.Proofs.Http.Redirects
import NetBoot.Proofs.Registry.Landing
import NetBoot.Proofs.Server.Forwarding
import NetBoot.Proofs.Server.Stages

namespace NetBoot

open Http Registry
open Dialogue (Trace exists_threads_of_trace trace_done trace_bind trace_run)

structure Stages where
  probe : CallLog
  token : CallLog
  head : CallLog
  get : CallLog
  blob : CallLog
  redirect : CallLog

namespace Stages

def manifests (x : Stages) : CallLog := x.head ++ x.get

def log (x : Stages) : CallLog := x.probe ++ x.token ++ x.manifests ++ x.blob ++ x.redirect

end Stages

namespace LayerService

def auth? (s : LayerService) (cache : AuthCache) (image : ImageName) (probe token : CallLog) :
    Option (Option Text) :=
  (detected? s.registry cache image probe).bind fun info => negotiated? info token

structure Pipeline (s : LayerService) (cache : AuthCache) (inbound : Headers)
    (request : LayerRequest) (image : ImageName) (x : Stages) : Prop where
  negotiation : Negotiation s.registry cache image x.probe x.token
  lookup : Lookup s request (s.auth? cache image x.probe x.token) x.head x.get
  relaying : Relaying s inbound request image (s.auth? cache image x.probe x.token) x.manifests
    x.blob x.redirect
  unauthorized : ∀ e ∈ x.probe ++ x.token, e.1.authorizations = e.1.userHeader?.toList
  carried : ∀ auth, s.auth? cache image x.probe x.token = some auth →
    (∀ e ∈ x.manifests, e.1.authorizations = auth.toList) ∧
      ∀ e ∈ x.blob ++ x.redirect, e.1.authorizations = (auth <|> e.1.userHeader?).toList
  token_of_carried : ∀ value, s.auth? cache image x.probe x.token = some (some value) →
    ∃ q answer token, x.token = [(q, answer)] ∧ tokenOf answer = .ok token ∧
      value = bearerHeader token
  anonymous : ∀ info, detected? s.registry cache image x.probe = some info →
    info.method = .none → s.auth? cache image x.probe x.token = some none
  log_of_basic : ∀ info, detected? s.registry cache image x.probe = some info →
    info.method = .basic → x.log = x.probe

variable {s : LayerService} {cache known : AuthCache} {image : ImageName} {log : CallLog}
  {inbound : Headers} {request : LayerRequest} {x : Stages}

theorem mem_calls {e : Call × Except CallError Reply} (h : e ∈ log) : e.1 ∈ calls log :=
  List.mem_map_of_mem h

theorem calls_eq_nil (h : calls log = []) : log = [] := List.map_eq_nil_iff.1 h

theorem negotiated?_eq_some {info : RegistryInfo} {token : CallLog} {auth : Option Text} :
    negotiated? info token = some auth ↔ info.method = .none ∧ auth = none ∨
      info.method = .bearer ∧ ∃ q answer rest value, token = (q, answer) :: rest ∧
        tokenOf answer = .ok value ∧ Headers.isLegal (bearerHeader value) ∧
          auth = some (bearerHeader value) := by
  have hheader (value : Text) : (headerOf value).toOption = some auth ↔
      Headers.isLegal (bearerHeader value) ∧ auth = some (bearerHeader value) :=
    Except.toOption_eq_some.trans headerOf_eq_ok
  cases hm : info.method with
  | none => simp only [negotiated?, hm, Option.some.injEq, true_and, reduceCtorEq, false_and,
      or_false, eq_comm]
  | basic => simp [negotiated?, hm]
  | bearer =>
      cases token with
      | nil => simp [negotiated?, hm]
      | cons e rest =>
          obtain ⟨q, answer⟩ := e
          cases hok : tokenOf answer with
          | error e => simp [negotiated?, hm, hok, Except.bind, Except.toOption]
          | ok value => simp [negotiated?, hm, hok, Except.bind, hheader]

theorem Negotiation.probe_eq {probe token : CallLog} {e : Call × Except CallError Reply}
    (h : Negotiation s.registry cache image probe token) (he : e ∈ probe) :
    e.1 = Registry.probe s.registry image.registry := by
  have hcall := mem_calls he
  rw [h.probe_calls] at hcall
  split at hcall
  · exact nomatch hcall
  · exact List.mem_singleton.1 hcall

theorem Negotiation.token_eq {probe token : CallLog} {e : Call × Except CallError Reply}
    (h : Negotiation s.registry cache image probe token) (he : e ∈ token) :
    ∃ url, e.1 = tokenCall url := by
  have hcall := mem_calls he
  rw [h.token_calls, Option.mem_toList, Option.map_eq_some_iff] at hcall
  obtain ⟨url, -, hcall⟩ := hcall
  exact ⟨url, hcall.symm⟩

theorem Negotiation.unauthorized {probe token : CallLog}
    (h : Negotiation s.registry cache image probe token) :
    ∀ e ∈ probe ++ token, e.1.authorizations = e.1.userHeader?.toList := by
  intro e he
  rcases List.mem_append.1 he with he | he
  · rw [h.probe_eq he]
    exact Call.authorizations_of_bare rfl rfl
  · obtain ⟨url, hcall⟩ := h.token_eq he
    rw [hcall]
    exact Call.authorizations_of_bare rfl rfl

theorem parse_of_reference? {reference : ImageReference} (h : reference? request = some reference) :
    ∃ version kind, request.layer = .artifact version kind ∧
      ImageReference.withTag request.imageName version = .ok reference := by
  unfold reference? at h
  split at h
  · next version kind hlayer => exact ⟨version, kind, hlayer, Except.toOption_eq_some.1 h⟩
  · exact nomatch h

theorem Lookup.exists_of_mem {auth : Option (Option Text)} {head get : CallLog}
    {e : Call × Except CallError Reply} (h : Lookup s request auth head get)
    (he : e ∈ head ++ get) :
    ∃ auth' reference method target, auth = some auth' ∧ reference? request = some reference ∧
      e.1 = Resolver.manifestCall method (manifestUrl s.registry reference.image target) auth' := by
  rcases List.mem_append.1 he with he | he
  · have hcall := mem_calls he
    rw [h.head_calls] at hcall
    split at hcall
    · next auth' reference href =>
        exact ⟨auth', reference, .head, _, rfl, href, List.mem_singleton.1 hcall⟩
    · exact nomatch hcall
  · obtain ⟨auth', reference, target, hauth, href, hcall⟩ := h.get_calls e he
    exact ⟨auth', reference, .get, target, hauth, href, hcall⟩

/-- A reference names no user, so that manifests are asked for under the negotiated header alone. -/
theorem Lookup.carried {auth : Option Text} {head get : CallLog}
    (h : Lookup s request (some auth) head get) :
    ∀ e ∈ head ++ get, e.1.authorizations = auth.toList := by
  intro e he
  obtain ⟨auth', reference, method, target, hauth, href, hcall⟩ := h.exists_of_mem he
  cases hauth
  obtain ⟨version, kind, -, hparse⟩ := parse_of_reference? href
  have hurl : e.1.url = manifestUrl s.registry reference.image target := by rw [hcall]; rfl
  have huser : e.1.userHeader? = none :=
    userHeader?_eq_none (ImageReference.parse_eq_ok hparse).1
      (ImageReference.at_not_mem_registry hparse) (hurl.trans (manifestUrl_eq _ _ _))
  have hclient : e.1.client = .following := by rw [hcall]; rfl
  have hvalues : e.1.headers.values authorizationName = auth.toList := by
    rw [hcall]
    cases auth <;> rfl
  rw [Call.authorizations_of_following hclient, huser, hvalues]
  rfl

theorem Relaying.exists_of_mem_blob {auth : Option (Option Text)}
    {manifests blob redirect : CallLog} {e : Call × Except CallError Reply}
    (h : Relaying s inbound request image auth manifests blob redirect) (he : e ∈ blob) :
    ∃ auth' d, auth = some auth' ∧ e.1 =
      BlobRelay.blobCall (blobUrl s.registry image d) (BlobRelay.outbound inbound auth') := by
  by_cases hchosen : ∃ auth' d, auth = some auth' ∧ Chosen s request auth' manifests d
  · obtain ⟨auth', d, hauth, hd⟩ := hchosen
    have hcall := mem_calls he
    rw [h.blob_calls auth' d hauth hd] at hcall
    exact ⟨auth', d, hauth, List.mem_singleton.1 hcall⟩
  · rw [h.blob_eq_nil fun auth' d hauth hd => hchosen ⟨auth', d, hauth, hd⟩] at he
    exact nomatch he

theorem redirection_cases (blob : CallLog) :
    redirection blob = [] ∨ ∃ first reply target, blob = [(first, .ok reply)] ∧
      reply.status = 307 ∧ BlobRelay.redirectTarget reply = .ok target ∧
      redirection blob = [BlobRelay.blobCall target.toText first.headers] := by
  unfold redirection
  split
  · next first reply =>
      split
      · next hredirects =>
          cases htarget : BlobRelay.redirectTarget reply with
          | error e => exact .inl rfl
          | ok target =>
              have hstatus : reply.status = 307 := by
                simpa [BlobRelay.isStorageRedirect] using hredirects
              exact .inr ⟨first, reply, target, rfl, hstatus, htarget, rfl⟩
      · exact .inl rfl
  · exact .inl rfl

theorem Relaying.exists_of_mem {auth : Option Text} {manifests blob redirect : CallLog}
    {e : Call × Except CallError Reply}
    (h : Relaying s inbound request image (some auth) manifests blob redirect)
    (he : e ∈ blob ++ redirect) :
    ∃ url, e.1 = BlobRelay.blobCall url (BlobRelay.outbound inbound auth) := by
  rcases List.mem_append.1 he with he | he
  · obtain ⟨auth', d, hauth, hcall⟩ := h.exists_of_mem_blob he
    cases hauth
    exact ⟨_, hcall⟩
  · have hcall := mem_calls he
    rw [h.redirect_calls] at hcall
    rcases redirection_cases blob with hnil | ⟨first, reply, target, hblob, -, -, hsecond⟩
    · rw [hnil] at hcall
      exact nomatch hcall
    · have hmem : (first, Except.ok reply) ∈ blob := by rw [hblob]; exact .head _
      obtain ⟨auth', d, hauth, rfl⟩ := h.exists_of_mem_blob hmem
      cases hauth
      rw [hsecond] at hcall
      exact ⟨target.toText, List.mem_singleton.1 hcall⟩

theorem Lookup.eq_nil {head get : CallLog} (h : Lookup s request none head get) :
    head = [] ∧ get = [] := by
  refine ⟨calls_eq_nil h.head_calls, List.eq_nil_iff_forall_not_mem.2 fun e he => ?_⟩
  obtain ⟨auth, -, -, hauth, -⟩ := h.get_calls e he
  exact nomatch hauth

theorem Relaying.eq_nil {manifests blob redirect : CallLog}
    (h : Relaying s inbound request image none manifests blob redirect) :
    blob = [] ∧ redirect = [] := by
  have hblob : blob = [] := h.blob_eq_nil nofun
  have hredirect := h.redirect_calls
  rw [hblob] at hredirect
  exact ⟨hblob, calls_eq_nil hredirect⟩

theorem relaying_nil {manifests : CallLog} {auth : Option (Option Text)}
    (h : ∀ auth' d, auth = some auth' → ¬ Chosen s request auth' manifests d) :
    Relaying s inbound request image auth manifests [] [] where
  blob_calls auth' d hauth hd := absurd hd (h auth' d hauth)
  blob_eq_nil _ := rfl
  redirect_calls := rfl

theorem relaying_of_chosen {manifests blob redirect : CallLog} {auth : Option Text} {d : Digest}
    (hchosen : ∀ d', Chosen s request auth manifests d' ↔ d = d')
    (hblob : calls blob =
      [BlobRelay.blobCall (blobUrl s.registry image d) (BlobRelay.outbound inbound auth)])
    (hredirect : calls redirect = redirection blob) :
    Relaying s inbound request image (some auth) manifests blob redirect where
  blob_calls auth' d' hauth hd := by
    cases hauth
    rw [← (hchosen d').1 hd]
    exact hblob
  blob_eq_nil h := absurd ((hchosen d).2 rfl) (h auth d rfl)
  redirect_calls := hredirect

theorem Pipeline.of_stages (hnegotiation : Negotiation s.registry cache image x.probe x.token)
    (hlookup : Lookup s request (s.auth? cache image x.probe x.token) x.head x.get)
    (hrelaying : Relaying s inbound request image (s.auth? cache image x.probe x.token) x.manifests
      x.blob x.redirect) : Pipeline s cache inbound request image x where
  negotiation := hnegotiation
  lookup := hlookup
  relaying := hrelaying
  unauthorized := hnegotiation.unauthorized
  carried auth hauth := by
    rw [hauth] at hlookup hrelaying
    refine ⟨hlookup.carried, fun e he => ?_⟩
    obtain ⟨url, hcall⟩ := hrelaying.exists_of_mem he
    rw [hcall]
    exact BlobRelay.authorizations_blobCall url inbound auth
  token_of_carried value hauth := by
    obtain ⟨info, -, hnegotiated⟩ := Option.bind_eq_some_iff.1 hauth
    obtain ⟨-, hnone⟩ | ⟨-, q, answer, rest, token, htoken, hok, -, hvalue⟩ :=
      negotiated?_eq_some.1 hnegotiated
    · exact nomatch hnone
    · have hcalls := hnegotiation.token_calls
      rw [htoken] at hcalls
      have hrest : rest = [] := by
        cases hurl : ((detected? s.registry cache image x.probe).bind fun info =>
            info.tokenUrlFor image.repository).map tokenCall with
        | none => simp [hurl, calls] at hcalls
        | some q =>
            rw [hurl] at hcalls
            exact calls_eq_nil (List.cons.inj hcalls).2
      exact ⟨q, answer, token, by rw [htoken, hrest], hok, Option.some.inj hvalue⟩
  anonymous info hinfo hmethod := by
    rw [auth?, hinfo]
    exact negotiated?_eq_some.2 (.inl ⟨hmethod, rfl⟩)
  log_of_basic info hinfo hmethod := by
    have hauth : s.auth? cache image x.probe x.token = none := by
      simp only [auth?, hinfo, Option.bind_some, negotiated?, hmethod]
    have htoken : x.token = [] := by
      refine calls_eq_nil ?_
      rw [hnegotiation.token_calls, hinfo, Option.bind_some,
        tokenUrlFor_eq_none (by rw [hmethod]; decide)]
      rfl
    rw [hauth] at hlookup hrelaying
    obtain ⟨hhead, hget⟩ := hlookup.eq_nil
    obtain ⟨hblob, hredirect⟩ := hrelaying.eq_nil
    simp [Stages.log, Stages.manifests, htoken, hhead, hget, hblob, hredirect]

def prepare (s : LayerService) (request : LayerRequest) (image : ImageName) :
    Session (Option Text × Digest) := do
  let (_, auth) ← Resolver.negotiate s.registry image
  let d ← Session.ofFetch (s.digestOf request auth)
  return (auth, d)

def transfer (s : LayerService) (inbound : Headers) (image : ImageName) :
    Except RegistryError (Option Text × Digest) → Relay Response
  | .ok (auth, d) => BlobRelay.relay s.registry inbound image d auth
  | .error e => throw (.registry e)

theorem run_prepare (s : LayerService) (request : LayerRequest) (image : ImageName)
    (cache : AuthCache) :
    (s.prepare request image).run.run cache =
      ((Resolver.negotiate s.registry image).run.run cache).bind fun p =>
        match p with
        | (.ok (_, auth), known) => (s.digestOf request auth).run.bind fun r =>
            .done (r.map fun d => (auth, d), known)
        | (.error e, known) => .done (.error e, known) := by
  rw [prepare, ExceptT.run_bind, StateT.run_bind]
  refine congrArg (Dialogue.bind _) (funext fun p => ?_)
  obtain ⟨e | ⟨info, auth⟩, known⟩ := p
  · rfl
  · dsimp only
    rw [ExceptT.run_bind, StateT.run_bind, Session.run_ofFetch]
    refine (Dialogue.bind_assoc _ _ _).trans ?_
    refine congrArg (Dialogue.bind _) (funext fun r => ?_)
    cases r <;> rfl

theorem run_serve_of_admitted (himage : admittedImage s.policy request.imageName = .ok image)
    (inbound : Headers) (cache : AuthCache) :
    (s.serve inbound request).run.run cache =
      ((s.prepare request image).run.run cache).bind fun p =>
        (s.transfer inbound image p.1).run.bind fun r => .done (r, p.2) := by
  rw [serve, run_bind_ofExcept, himage, run_prepare, Dialogue.bind_assoc]
  dsimp only [Except.mapError_ok]
  rw [run_bind_ofSession]
  refine congrArg (Dialogue.bind _) (funext fun p => ?_)
  obtain ⟨e | ⟨info, auth⟩, known⟩ := p
  · rfl
  · dsimp only
    rw [run_bind_ofSession, Session.run_ofFetch, Dialogue.bind_assoc, Dialogue.bind_assoc]
    refine congrArg (Dialogue.bind _) (funext fun r => ?_)
    cases r <;> rfl

structure Preparation (s : LayerService) (cache : AuthCache) (request : LayerRequest)
    (image : ImageName) (probe token head get : CallLog)
    (r : Except RegistryError (Option Text × Digest)) : Prop where
  negotiation : Negotiation s.registry cache image probe token
  lookup : Lookup s request (s.auth? cache image probe token) head get
  eq_ok_iff : ∀ auth d, r = .ok (auth, d) ↔
    s.auth? cache image probe token = some auth ∧ Chosen s request auth (head ++ get) d
  of_basic : ∀ info, detected? s.registry cache image probe = some info →
    info.method = .basic → r = .error (.notImplemented "basic auth".toList)

theorem trace_prepare {r : Except RegistryError (Option Text × Digest)}
    (h : Trace ((s.prepare request image).run.run cache) log (r, known)) :
    ∃ probe token head get, log = probe ++ token ++ (head ++ get) ∧
      Preparation s cache request image probe token head get r := by
  rw [run_prepare] at h
  obtain ⟨first, ⟨negotiated, known₁⟩, rest, rfl, hneg, hrest⟩ := trace_bind.1 h
  obtain ⟨probe, token, rfl, hnegotiation, hauth, hbasic⟩ := trace_negotiate hneg
  cases negotiated with
  | error e =>
      obtain ⟨rfl, hr⟩ := trace_done.1 hrest
      obtain rfl := (Prod.mk.inj hr).1
      have hnone : s.auth? cache image probe token = none := hauth.symm
      refine ⟨probe, token, [], [], rfl, hnegotiation, lookup_nil (.inl hnone), ?_, ?_⟩
      · exact fun auth d => ⟨nofun, fun hd => nomatch hnone.symm.trans hd.1⟩
      · exact fun info hinfo hmethod => congrArg _ (Except.error.inj (hbasic info hinfo hmethod))
  | ok found =>
      obtain ⟨info, auth⟩ := found
      obtain ⟨manifests, found, last, rfl, hdigest, hdone⟩ := trace_bind.1 hrest
      obtain ⟨rfl, hr⟩ := trace_done.1 hdone
      obtain rfl := (Prod.mk.inj hr).1
      obtain ⟨head, get, rfl, hlookup, hchosen⟩ := trace_digestOf hdigest
      have hsome : s.auth? cache image probe token = some auth := hauth.symm
      refine ⟨probe, token, head, get, by rw [List.append_nil], hnegotiation, ?_, ?_, ?_⟩
      · rw [hsome]
        exact hlookup
      · intro auth' d
        rw [hsome, Except.map_eq_ok]
        constructor
        · rintro ⟨d', hd, heq⟩
          cases heq
          exact ⟨rfl, (hchosen d).1 hd⟩
        · rintro ⟨heq, hd⟩
          cases heq
          exact ⟨d, (hchosen d).2 hd, rfl⟩
      · exact fun info hinfo hmethod => nomatch hbasic info hinfo hmethod

theorem trace_transfer {probe token head get : CallLog}
    {prepared : Except RegistryError (Option Text × Digest)} {r : Except BootError Response}
    (hprepared : Preparation s cache request image probe token head get prepared)
    (h : Trace (s.transfer inbound image prepared).run log r) :
    ∃ blob redirect, log = blob ++ redirect ∧
      Pipeline s cache inbound request image ⟨probe, token, head, get, blob, redirect⟩ := by
  cases prepared with
  | error e =>
      obtain ⟨rfl, -⟩ := trace_done.1 h
      refine ⟨[], [], rfl, .of_stages hprepared.negotiation hprepared.lookup ?_⟩
      exact relaying_nil fun auth d hauth hd => nomatch (hprepared.eq_ok_iff auth d).2 ⟨hauth, hd⟩
  | ok found =>
      obtain ⟨auth, d⟩ := found
      obtain ⟨hauth, hd⟩ := (hprepared.eq_ok_iff auth d).1 rfl
      obtain ⟨blob, redirect, rfl, hblob, hredirect⟩ := trace_relay h
      refine ⟨blob, redirect, rfl, .of_stages hprepared.negotiation hprepared.lookup ?_⟩
      rw [hauth]
      refine relaying_of_chosen (fun d' => ⟨fun hd' => ?_, fun heq => heq ▸ hd⟩) hblob hredirect
      have heq := (hprepared.eq_ok_iff auth d').2 ⟨hauth, hd'⟩
      cases heq
      rfl

end LayerService

namespace Router

open LayerService (Pipeline detected?)

variable {s : LayerService} {provider : DriveProvider} {now : Time} {r : BootRequest}
  {st : ServerState} {log : CallLog} {served : Served}

theorem trace_serve {request : LayerRequest} {image : ImageName}
    (hrequest : layerRequest? r = some request)
    (himage : LayerService.admittedImage s.policy request.imageName = .ok image)
    (h : Trace (serve s provider now r st) log served) :
    ∃ x : Stages, log = x.log ∧ Pipeline s st.auth r.headers request image x ∧
      ∀ info, detected? s.registry st.auth image x.probe = some info → info.method = .basic →
        served.response.status = 501 := by
  rw [serve, serveMethod_of_layerRequest hrequest, ofBoot_eq,
    LayerService.run_serve_of_admitted himage] at h
  simp only [Dialogue.bind_assoc] at h
  obtain ⟨first, ⟨prepared, known⟩, rest, rfl, hprepare, hrest⟩ := trace_bind.1 h
  obtain ⟨relayed, answered, last, rfl, htransfer, hdone⟩ := trace_bind.1 hrest
  obtain ⟨rfl, rfl⟩ := trace_done.1 hdone
  obtain ⟨probe, token, head, get, rfl, hprepared⟩ := LayerService.trace_prepare hprepare
  obtain ⟨blob, redirect, rfl, hpipeline⟩ := LayerService.trace_transfer hprepared htransfer
  refine ⟨_, ?_, hpipeline, fun info hinfo hmethod => ?_⟩
  · simp only [Stages.log, Stages.manifests, List.append_assoc, List.append_nil]
  · rw [hprepared.of_basic info hinfo hmethod] at htransfer
    obtain ⟨-, rfl⟩ := trace_done.1 htransfer
    exact status_finished r _

theorem exists_serve_eq_done (hnone : ∀ request image, layerRequest? r = some request →
      LayerService.admittedImage s.policy request.imageName ≠ .ok image) :
    ∃ served, serve s provider now r st = .done served := by
  cases hrequest : layerRequest? r with
  | none =>
      have hdone : ∃ served, serveMethod s provider now r st = .done served ∧
          served.state.auth = st.auth := serveMethod_of_no_layerRequest hrequest
      obtain ⟨unlayered, hdone, -⟩ := hdone
      rw [serve, hdone]
      exact ⟨_, rfl⟩
  | some request =>
      cases himage : LayerService.admittedImage s.policy request.imageName with
      | error e =>
          rw [serve, serveMethod_of_layerRequest hrequest, ofBoot_eq, LayerService.serve,
            LayerService.run_bind_ofExcept, himage]
          exact ⟨_, rfl⟩
      | ok image => exact absurd himage (hnone request image hrequest)

theorem log_eq_nil_of_not_admitted (hnone : ∀ request image, layerRequest? r = some request →
      LayerService.admittedImage s.policy request.imageName ≠ .ok image)
    (h : Trace (serve s provider now r st) log served) : log = [] := by
  have hdone : ∃ served, serve s provider now r st = .done served := exists_serve_eq_done hnone
  obtain ⟨finished, hdone⟩ := hdone
  rw [hdone] at h
  exact (trace_done.1 h).1

def InStages (s : LayerService) (r : BootRequest) (st : ServerState) (calls : CallLog)
    (served : Served) : Prop :=
  (∀ request image, layerRequest? r = some request →
    ImageName.parse request.imageName = .ok image → s.policy.admits image.registry = true →
      ∃ x : Stages, calls = x.log ∧ Pipeline s st.auth r.headers request image x ∧
        ∀ info, detected? s.registry st.auth image x.probe = some info → info.method = .basic →
          served.response.status = 501) ∧
    ((∀ request image, layerRequest? r = some request →
      ImageName.parse request.imageName = .ok image → s.policy.admits image.registry = false) →
      calls = [])

theorem inStages_of_trace (h : Trace (serve s provider now r st) log served) :
    InStages s r st log served := by
  constructor
  · intro request image hrequest hparse hadm
    exact trace_serve hrequest (LayerService.admittedImage_eq_ok.2 ⟨hparse, hadm⟩) h
  · intro hnone
    refine log_eq_nil_of_not_admitted (fun request image hrequest himage => ?_) h
    obtain ⟨hparse, hadm⟩ := LayerService.admittedImage_eq_ok.1 himage
    rw [hnone request image hrequest hparse] at hadm
    exact Bool.false_ne_true hadm

theorem calls_in_stages (s : LayerService) (provider : DriveProvider) (now : Time)
    (r : BootRequest) (st : ServerState) {σ : Type} (start : σ) :
    (∀ network : Dialogue.Answerer Call (Except CallError Reply) σ,
      let outcome := (serve s provider now r st).run network start
      InStages s r st outcome.log outcome.result) ∧
    ∀ network : Network σ,
      let outcome := (onWire (serve s provider now r st)).run network start
      ∃ calls parts, InStages s r st calls outcome.result ∧ outcome.log = parts.flatten ∧
        List.Forall₂ (fun e part => e.1.Sends part) calls parts := by
  refine ⟨fun network => inStages_of_trace (trace_run _ network start), fun network => ?_⟩
  obtain ⟨calls, htrace, hthreads⟩ := exists_threads_of_trace
    (trace_run (onWire (serve s provider now r st)) network start)
  obtain ⟨parts, hlog, hparts⟩ := hthreads.exists_parts
  exact ⟨calls, parts, inStages_of_trace htrace, hlog, hparts.imp fun _ _ => sends_of_trace⟩

def digestRequest : BootRequest where
  method := getMethod
  target := ⟨"/image".toList, some ("imageName=r.example/os&version=1&layerDigest=sha256:".toList ++
    List.replicate 64 'a')⟩
  headers := []

def digestLayer : LayerRequest where
  imageName := "r.example/os".toList
  layer := .digest ⟨Digest.sha256, List.replicate 64 'a'⟩

def digestImage : ImageName := ⟨"r.example".toList, "os".toList⟩

def digestService : LayerService := ⟨{}, .ofLists "r.example".toList [], "amd64".toList⟩

def firstState : ServerState := ⟨[], ⟨0, 0, [], 0, 0⟩⟩

theorem layerRequest?_digestRequest : layerRequest? digestRequest = some digestLayer := by
  decide +kernel

theorem admits_digestImage : ImageName.parse digestLayer.imageName = .ok digestImage ∧
    digestService.policy.admits digestImage.registry = true := by
  decide +kernel

def guardedNetwork : Dialogue.Answerer Call (Except CallError Reply) Unit := fun q u =>
  let reply (status : Nat) (headers : Headers) (body : Bytes) : Except CallError Reply :=
    .ok ⟨default, status, headers, ⟨body, .whole, none⟩⟩
  (if q.url = "https://r.example/v2/".toList then
    reply 401 [(challengeName, "Bearer realm=\"https://t.example\"".toList)] []
  else if q.url = "https://t.example/?scope=repository:os:pull".toList then
    reply 200 [] (Utf8.encode "\x7b\"token\":\"t\"\x7d".toList)
  else if q.url = "https://s.example/os".toList then reply 200 [] []
  else reply 307 [(locationName, "https://s.example/os".toList)] [], u)

theorem digest_request_takes_four_calls :
    layerRequest? digestRequest = some digestLayer ∧
      ((serve digestService .empty 0 digestRequest firstState).run guardedNetwork ()).log.length =
        4 ∧
      (∃ x : Stages,
        ((serve digestService .empty 0 digestRequest firstState).run guardedNetwork ()).log = x.log ∧
          Pipeline digestService firstState.auth digestRequest.headers digestLayer digestImage x) ∧
      ((serve { digestService with policy := .denyAll } .empty 0 digestRequest firstState).run
        guardedNetwork ()).log = [] := by
  have hrequest := layerRequest?_digestRequest
  have hcalls : ((serve digestService .empty 0 digestRequest firstState).run guardedNetwork
      ()).log.length = 4 := by decide +kernel
  obtain ⟨hparse, hadm⟩ := admits_digestImage
  obtain ⟨x, hlog, hpipeline, -⟩ := ((calls_in_stages digestService .empty 0 digestRequest
    firstState ()).1 guardedNetwork).1 digestLayer digestImage hrequest hparse hadm
  exact ⟨hrequest, hcalls, ⟨x, hlog, hpipeline⟩, ((calls_in_stages
    { digestService with policy := .denyAll } .empty 0 digestRequest firstState ()).1
    guardedNetwork).2 fun _ _ _ _ => rfl⟩

def realmWire (realm : Text) : Network Unit := fun q u =>
  let response (status : Nat) (headers : Headers) (body : Bytes) : Answer :=
    .response status headers ⟨body, .whole, none⟩
  (if q.url.path = .segments ["v2".toList, []] then
    response 401 [(challengeName, "Bearer realm=\"".toList ++ realm ++ ['"'])] []
  else if q.url.hostText = "t.example".toList then
    response 200 [] (Utf8.encode "\x7b\"token\":\"t\"\x7d".toList)
  else if q.url.hostText = "s.example".toList then response 200 [] []
  else response 307 [(locationName, "https://s.example/os".toList)] [], u)

def guardedWire : Network Unit := realmWire "https://t.example".toList

def userRequest : BootRequest where
  method := getMethod
  target := ⟨"/image".toList,
    some ("imageName=u:p@r.example/os&version=1&layerDigest=sha256:".toList ++
      List.replicate 64 'a')⟩
  headers := []

def userService : LayerService := ⟨{}, .ofLists "u:p@r.example".toList [], "amd64".toList⟩

theorem probe_and_token_name_users :
    ((onWire (serve userService .empty 0 userRequest firstState)).questions
        (realmWire "https://v:w@t.example".toList) ()).map
          (fun q => (q.url.toText, q.authorizations)) =
      [("https://r.example/v2/".toList, ["Basic dTpw".toList]),
        ("https://t.example/?scope=repository:os:pull".toList, ["Basic djp3".toList]),
        ("https://r.example/v2/os/blobs/sha256:".toList ++ List.replicate 64 'a',
          ["Bearer t".toList]),
        ("https://s.example/os".toList, ["Bearer t".toList])] := by
  decide +kernel

end Router

end NetBoot
