import NetBoot.Proofs.Image.TaggedName
import NetBoot.Proofs.Registry.Calls
import NetBoot.Server.Router

namespace NetBoot

open Http Registry
open Dialogue (Holds holds_bind holds_bind_state run_bind_of_ask)

namespace LayerService

def Reaches (c : RegistryConfig) (domain : Text) (q : Call) : Prop :=
  '/' ∉ domain ∧ ∃ path, q.url = c.baseUrl domain ++ ("/v2/".toList ++ path)

def Known (c : RegistryConfig) (cache : AuthCache) (before : CallLog) (info : RegistryInfo) :
    Prop :=
  (∃ domain, cache.get? domain = some info) ∨
    ∃ domain repository answer,
      (probe c domain, answer) ∈ before ∧ probed c domain repository answer = .ok info

/-- The calls that a service may make after `before`: those to admitted registries, to the token
endpoint of a known registry, and to where the blob just asked for is redirected. -/
inductive Permitted (s : LayerService) (cache : AuthCache) (before : CallLog) : Call → Prop
  | registry (domain : Text) (q : Call) :
      s.policy.admits domain = true → Reaches s.registry domain q → Permitted s cache before q
  | token (info : RegistryInfo) (repository url : Text) :
      Known s.registry cache before info → info.tokenUrlFor repository = some url →
        Permitted s cache before (tokenCall url)
  | redirect (earlier : CallLog) (blob : Text) (headers : Headers) (reply : Reply) (target : Url) :
      before = earlier ++ [(BlobRelay.blobCall blob headers, .ok reply)] →
      BlobRelay.isStorageRedirect reply = true →
      BlobRelay.redirectTarget reply = .ok target →
        Permitted s cache before (BlobRelay.blobCall target.toText headers)

variable {s : LayerService} {cache : AuthCache} {image : ImageName}

theorem reaches_probe (c : RegistryConfig) {domain : Text} (h : '/' ∉ domain) :
    Reaches c domain (probe c domain) :=
  ⟨h, [], by simp [probe, probeUrl]⟩

theorem reaches_manifest (c : RegistryConfig) (h : '/' ∉ image.registry) (method : Method)
    (reference : Text) (auth : Option Text) :
    Reaches c image.registry (Resolver.manifestCall method (manifestUrl c image reference) auth) :=
  ⟨h, image.repository ++ "/manifests/".toList ++ reference, by
    simp only [Resolver.manifestCall, manifestUrl, List.append_assoc]⟩

theorem reaches_blob (c : RegistryConfig) (h : '/' ∉ image.registry) (d : Digest)
    (headers : Headers) :
    Reaches c image.registry (BlobRelay.blobCall (blobUrl c image d) headers) :=
  ⟨h, image.repository ++ "/blobs/".toList ++ d.toText, by
    simp only [BlobRelay.blobCall, blobUrl, List.append_assoc]⟩

theorem Reaches.domain_eq {c : RegistryConfig} {d e : Text} {q : Call} (hd : Reaches c d q)
    (he : Reaches c e q) : d = e := by
  obtain ⟨hd, x, hx⟩ := hd
  obtain ⟨he, y, hy⟩ := he
  rw [hx] at hy
  have hscheme (t : Text) : c.schemeFor t = "http".toList ∨ c.schemeFor t = "https".toList := by
    unfold RegistryConfig.schemeFor
    split
    · exact .inl rfl
    · exact .inr rfl
  have hsplit : d ++ '/' :: ("v2/".toList ++ x) = e ++ '/' :: ("v2/".toList ++ y) := by
    simp only [RegistryConfig.baseUrl, List.append_assoc] at hy
    rcases hscheme d with h₁ | h₁ <;> rcases hscheme e with h₂ | h₂ <;> rw [h₁, h₂] at hy
    · exact List.append_cancel_left (List.append_cancel_left hy)
    · simp at hy
    · simp at hy
    · exact List.append_cancel_left (List.append_cancel_left hy)
  have := Text.splitOnce_append (b := "v2/".toList ++ x) hd
  rw [hsplit, Text.splitOnce_append he] at this
  simp only [Option.some.injEq, Prod.mk.injEq] at this
  exact this.1.symm

theorem not_permitted_manifest (hslash : '/' ∉ image.registry)
    (hdeny : s.policy.admits image.registry = false) (before : CallLog) (method : Method)
    (reference : Text) (auth : Option Text) :
    ¬ s.Permitted cache before
      (Resolver.manifestCall method (manifestUrl s.registry image reference) auth) := by
  intro h
  have hreach := reaches_manifest s.registry hslash method reference auth
  generalize hq : Resolver.manifestCall method (manifestUrl s.registry image reference) auth = q
    at h hreach
  cases h with
  | registry domain _ hadm hdomain =>
      rw [hdomain.domain_eq hreach, hdeny] at hadm
      exact Bool.false_ne_true hadm
  | token info repository url _ _ => simp [Resolver.manifestCall, tokenCall] at hq
  | redirect earlier blob headers reply target _ _ _ =>
      simp [Resolver.manifestCall, BlobRelay.blobCall] at hq

theorem holds_negotiate (hadm : s.policy.admits image.registry = true)
    (hslash : '/' ∉ image.registry) :
    Holds (s.Permitted cache) (fun _ _ => True) []
      ((Resolver.negotiate s.registry image).run.run cache) := by
  have hrest (log : CallLog) (info : RegistryInfo) (known : AuthCache)
      (h : Known s.registry cache log info) :
      Holds (s.Permitted cache) (fun _ _ => True) log
        ((do
          let auth ← Session.ofFetch (authorization info image.repository)
          return (info, auth) : Session _).run.run known) := by
    refine Holds.then_state ?_ fun _ _ _ => trivial
    rw [Session.run_ofFetch]
    exact holds_bind.2 ((holds_authorization fun url hurl =>
      .token info image.repository url h hurl).mono fun _ _ _ => trivial)
  refine holds_bind_state.2 ?_
  rw [run_registryInfo]
  cases hget : cache.get? image.registry with
  | some info => exact hrest [] info cache (.inl ⟨_, hget⟩)
  | none =>
      refine ⟨.registry _ _ hadm (reaches_probe _ hslash), fun answer => ?_⟩
      dsimp only
      cases hp : probed s.registry image.registry image.repository answer with
      | error e => trivial
      | ok info => exact hrest _ info _ (.inr ⟨_, _, answer, List.mem_cons_self, hp⟩)

theorem run_send (url : Text) (headers : Headers) :
    (BlobRelay.send url headers).run =
      .ask (BlobRelay.blobCall url headers) fun a => .done (a.mapError (.relayFailed url)) := by
  refine congrArg (Dialogue.ask _) (funext fun a => ?_)
  cases a <;> rfl

theorem run_fetch (url : Text) (headers : Headers) :
    (BlobRelay.fetch url headers).run = .ask (BlobRelay.blobCall url headers) fun
      | .error e => .done (.error (.relayFailed url e))
      | .ok reply =>
          if BlobRelay.isStorageRedirect reply then
            match BlobRelay.redirectTarget reply with
            | .error e => .done (.error e)
            | .ok target => .ask (BlobRelay.blobCall target.toText headers) fun answer =>
                .done (answer.mapError (.relayFailed target.toText))
          else .done (.ok reply) := by
  rw [BlobRelay.fetch, run_bind_of_ask (run_send url headers)]
  refine congrArg (Dialogue.ask _) (funext fun answer => ?_)
  cases answer with
  | error e => rfl
  | ok reply =>
      dsimp only [Except.mapError_ok]
      split
      · cases BlobRelay.redirectTarget reply with
        | error e => rfl
        | ok target => exact run_send target.toText headers
      · rfl

theorem holds_fetch (url : Text) (headers : Headers) {p : CallLog → Call → Prop} (log : CallLog)
    (hfirst : p log (BlobRelay.blobCall url headers))
    (hnext : ∀ reply target, BlobRelay.isStorageRedirect reply = true →
      BlobRelay.redirectTarget reply = .ok target →
        p (log ++ [(BlobRelay.blobCall url headers, .ok reply)])
          (BlobRelay.blobCall target.toText headers)) :
    Holds p (fun _ _ => True) log (BlobRelay.fetch url headers).run := by
  rw [run_fetch]
  refine ⟨hfirst, fun answer => ?_⟩
  cases answer with
  | error e => trivial
  | ok reply =>
      dsimp only
      split
      · next hr =>
          cases ht : BlobRelay.redirectTarget reply with
          | error e => trivial
          | ok target => exact ⟨hnext reply target hr ht, fun _ => trivial⟩
      · trivial

theorem admittedImage_eq_ok {policy : RegistryPolicy} {name : Text} :
    admittedImage policy name = .ok image ↔
      ImageName.parse name = .ok image ∧ policy.admits image.registry = true := by
  simp only [admittedImage, bind, Except.bind]
  cases ImageName.parse name with
  | error e => simp
  | ok i =>
      by_cases hp : policy.admits i.registry = true
      · simp only [hp, if_true, pure, Except.pure, Except.ok.injEq]
        exact ⟨fun h => ⟨h, h ▸ hp⟩, And.left⟩
      · simp only [hp, throw, throwThe, MonadExceptOf.throw, Except.ok.injEq]
        exact ⟨fun h => by simp at h, fun ⟨h, hadm⟩ => absurd (h ▸ hadm) hp⟩

theorem run_bind_ofExcept {α β : Type} (x : Except BootError α) (f : α → Boot β) :
    (Boot.ofExcept x >>= f).run.run cache =
      match x with
      | .ok a => (f a).run.run cache
      | .error e => .done (.error e, cache) := by
  cases x <;> rfl

variable {α : Type} {p : CallLog → Call → Prop} {log : CallLog}

theorem holds_ofFetch {x : Fetch α} (h : Holds p (fun _ _ => True) log x.run) :
    Holds p (fun _ _ => True) log ((Session.ofFetch x).run.run cache) :=
  holds_bind.2 (h.mono fun _ _ _ => trivial)

theorem holds_ofSession {x : Session α}
    (h : Holds p (fun _ _ => True) log (x.run.run cache)) :
    Holds p (fun _ _ => True) log ((Boot.ofSession x).run.run cache) :=
  holds_bind.2 (h.mono fun _ _ _ => trivial)

theorem holds_ofRelay {x : Relay α} (h : Holds p (fun _ _ => True) log x.run) :
    Holds p (fun _ _ => True) log ((Boot.ofRelay x).run.run cache) :=
  holds_bind.2 (h.mono fun _ _ _ => trivial)

theorem holds_digestOf {request : LayerRequest} {auth : Option Text}
    (hp : ∀ version kind reference, request.layer = .artifact version kind →
      ImageReference.withTag request.imageName version = .ok reference →
        ∀ log method target, p log
          (Resolver.manifestCall method (manifestUrl s.registry reference.image target) auth))
    (log : CallLog) : Holds p (fun _ _ => True) log (s.digestOf request auth).run := by
  unfold digestOf
  split
  · trivial
  · next version kind hlayer =>
      rw [Fetch.run_bind_ofExcept]
      cases hr : ImageReference.withTag request.imageName version with
      | error e => trivial
      | ok reference =>
          refine Holds.then_except (Resolver.holds_manifestCalls ?_ _ _ _) fun log a => ?_
          · exact hp version kind reference hlayer hr
          · refine Holds.then_except trivial fun log layer => ?_
            split <;> trivial

theorem holds_serve (inbound : Headers) (request : LayerRequest)
    (hstay : ∀ image, admittedImage s.policy request.imageName = .ok image →
      ∀ version kind reference, request.layer = .artifact version kind →
        ImageReference.withTag request.imageName version = .ok reference →
          s.policy.admits reference.image.registry = true) :
    Holds (s.Permitted cache) (fun _ _ => True) [] ((s.serve inbound request).run.run cache) := by
  rw [serve, run_bind_ofExcept]
  cases ha : admittedImage s.policy request.imageName with
  | error e => trivial
  | ok image =>
      obtain ⟨hparse, hadm⟩ := admittedImage_eq_ok.1 ha
      have hslash := ImageName.slash_not_mem_registry hparse
      refine Holds.then_state (holds_ofSession (holds_negotiate hadm hslash)) fun log known _ => ?_
      refine Holds.then_state (holds_ofSession (holds_ofFetch (holds_digestOf ?_ _)))
        fun log d _ => holds_ofRelay (Holds.then_except (holds_fetch _ _ _ ?_ ?_) ?_)
      · intro version kind reference hlayer href log method target
        have hadm := hstay image ha version kind reference hlayer href
        have hslash := ImageName.slash_not_mem_registry (ImageReference.parse_eq_ok href).1
        exact .registry _ _ hadm (reaches_manifest _ hslash _ _ _)
      · exact .registry _ _ hadm (reaches_blob _ hslash _ _)
      · exact fun reply target hr ht => .redirect log _ _ reply target rfl hr ht
      · exact fun _ _ => trivial

theorem run_bind_ofSession {α β : Type} (x : Session α) (f : α → Boot β) :
    (Boot.ofSession x >>= f).run.run cache =
      (x.run.run cache).bind fun p =>
        match p with
        | (.ok a, known) => (f a).run.run known
        | (.error e, known) => .done (.error (.registry e), known) := by
  rw [ExceptT.run_bind, StateT.run_bind]
  refine (Dialogue.bind_assoc _ _ _).trans ?_
  refine congrArg (Dialogue.bind _) (funext fun p => ?_)
  rcases p with ⟨_ | a, known⟩ <;> rfl

theorem run_negotiate_of_anonymous {c : RegistryConfig} {domain : Text}
    (h : cache.get? image.registry = some (.anonymous domain)) :
    (Resolver.negotiate c image).run.run cache = .done (.ok (.anonymous domain, none), cache) := by
  unfold Resolver.negotiate
  rw [ExceptT.run_bind, StateT.run_bind, run_registryInfo, h]
  rfl

theorem serve_starts_with_manifest {request : LayerRequest} {version : Text} {kind : Artifact}
    {reference : ImageReference} {domain : Text}
    (himage : admittedImage s.policy request.imageName = .ok image)
    (hlayer : request.layer = .artifact version kind)
    (href : ImageReference.withTag request.imageName version = .ok reference)
    (hcache : cache.get? image.registry = some (.anonymous domain)) (inbound : Headers) :
    ∃ next, (s.serve inbound request).run.run cache =
      .ask (Resolver.manifestCall .head
        (manifestUrl s.registry reference.image reference.manifestReference) none) next := by
  have hdigest : ∃ next, (s.digestOf request none).run =
      .ask (Resolver.manifestCall .head
        (manifestUrl s.registry reference.image reference.manifestReference) none) next := by
    unfold digestOf
    rw [hlayer]
    dsimp only
    rw [href, Fetch.run_bind_ofExcept]
    dsimp only
    rw [ExceptT.run_bind, Resolver.resolveWith, ExceptT.run_bind, Resolver.run_fetchRoot]
    exact ⟨_, rfl⟩
  obtain ⟨next, hnext⟩ := hdigest
  rw [serve, run_bind_ofExcept, himage]
  dsimp only [Except.mapError_ok]
  rw [run_bind_ofSession, run_negotiate_of_anonymous hcache]
  dsimp only [Dialogue.bind]
  rw [run_bind_ofSession, Session.run_ofFetch, hnext]
  exact ⟨_, rfl⟩

end LayerService

namespace Router

def layerRequest? (r : BootRequest) : Option LayerRequest :=
  if r.method = getMethod ∨ r.method = headMethod then
    match Route.ofPath? r.target.path with
    | some .image =>
        match ImageQuery.parse (r.target.query.getD []) with
        | .ok q => (LayerRequest.ofQuery q).toOption
        | .error _ => none
    | some (.httpBoot path) =>
        match Route.decode? path with
        | some path => (LayerRequest.ofBootPath path).toOption
        | none => none
    | _ => none
  else none

theorem ofBoot_eq (x : Boot Response) (st : ServerState) :
    ofBoot x st = (x.run.run st.auth).bind fun p =>
      .done ⟨match p.1 with
        | .ok r => r
        | .error e => .ofError e, { st with auth := p.2 }, []⟩ := rfl

theorem ofBoot_run_bind_ofExcept {s : LayerService} (inbound : Headers)
    (x : Except BootError LayerRequest) (st : ServerState) :
    ofBoot (Boot.ofExcept x >>= s.serve inbound) st =
      match x with
      | .ok request => ofBoot (s.serve inbound request) st
      | .error e => .done ⟨.ofError e, st, []⟩ := by
  cases x <;> rfl

variable {s : LayerService} {provider : DriveProvider} {now : Time} {r : BootRequest}
  {st : ServerState}

theorem serveMethod_of_layerRequest {request : LayerRequest}
    (h : layerRequest? r = some request) :
    serveMethod s provider now r st = ofBoot (s.serve r.headers request) st := by
  unfold layerRequest? at h
  split at h
  · next hm =>
      split at h
      · next hroute =>
          split at h
          · next q hq =>
              simp only [serveMethod, hroute, hm, if_true, serveRoute, hq]
              cases hx : LayerRequest.ofQuery q with
              | error e => simp [hx, Except.toOption] at h
              | ok request' =>
                  simp only [hx, Except.toOption, Option.some.injEq] at h
                  subst h
                  exact (ofBoot_run_bind_ofExcept r.headers _ st).trans (by rw [hx])
          · simp at h
      · next path hroute =>
          split at h
          · next decoded hd =>
              simp only [serveMethod, hroute, hm, if_true, serveRoute, hd]
              cases hx : LayerRequest.ofBootPath decoded with
              | error e => simp [hx, Except.toOption] at h
              | ok request' =>
                  simp only [hx, Except.toOption, Option.some.injEq] at h
                  subst h
                  exact (ofBoot_run_bind_ofExcept r.headers _ st).trans (by rw [hx])
          · simp at h
      · simp at h
  · simp at h

theorem auth_serveDriveFile (provider : DriveProvider) (now : Time) (file : Text)
    (st : ServerState) : (serveDriveFile provider now file st).state.auth = st.auth := by
  unfold serveDriveFile
  split <;> rfl

theorem serveMethod_of_no_layerRequest (h : layerRequest? r = none) :
    ∃ served, serveMethod s provider now r st = .done served ∧ served.state.auth = st.auth := by
  unfold serveMethod
  cases hroute : Route.ofPath? r.target.path with
  | none => exact ⟨_, rfl, rfl⟩
  | some route =>
      by_cases hm : r.method = getMethod ∨ r.method = headMethod
      · simp only [hm, if_true]
        cases route with
        | image =>
            cases hq : ImageQuery.parse (r.target.query.getD []) with
            | error key => exact ⟨_, by simp only [serveRoute, hq]; rfl, rfl⟩
            | ok q =>
                cases hx : LayerRequest.ofQuery q with
                | error e =>
                    refine ⟨⟨.ofError e, st, []⟩, ?_, rfl⟩
                    simp only [serveRoute, hq]
                    exact (ofBoot_run_bind_ofExcept r.headers _ st).trans (by rw [hx])
                | ok request => simp [layerRequest?, hm, hroute, hq, hx, Except.toOption] at h
        | httpBoot path =>
            cases hd : Route.decode? path with
            | none => exact ⟨_, by simp only [serveRoute, hd]; rfl, rfl⟩
            | some decoded =>
                cases hx : LayerRequest.ofBootPath decoded with
                | error e =>
                    refine ⟨⟨.ofError e, st, []⟩, ?_, rfl⟩
                    simp only [serveRoute, hd]
                    exact (ofBoot_run_bind_ofExcept r.headers _ st).trans (by rw [hx])
                | ok request => simp [layerRequest?, hm, hroute, hd, hx, Except.toOption] at h
        | drive file =>
            cases hd : Route.decode? file with
            | none => exact ⟨_, by simp only [serveRoute, hd]; rfl, rfl⟩
            | some decoded =>
                exact ⟨_, by simp only [serveRoute, hd]; rfl, auth_serveDriveFile _ _ _ _⟩
        | health => exact ⟨_, rfl, rfl⟩
      · simp only [hm, if_false]
        exact ⟨_, rfl, rfl⟩

def KeepsRegistry (r : BootRequest) : Prop :=
  ∀ request version kind image reference, layerRequest? r = some request →
    request.layer = .artifact version kind →
    ImageName.parse request.imageName = .ok image →
    ImageReference.withTag request.imageName version = .ok reference →
      ImageReference.KeepsRegistry request.imageName version

def Confined (c : RegistryConfig) (architecture : Text) (provider : DriveProvider) (now : Time)
    (r : BootRequest) : Prop :=
  ∀ (policy : RegistryPolicy) (st : ServerState) (σ : Type)
    (network : Dialogue.Answerer Call (Except CallError Reply) σ) (start : σ)
    (before after : CallLog) (q : Call) (answer : Except CallError Reply),
    ((serve ⟨c, policy, architecture⟩ provider now r st).run network start).log =
      before ++ (q, answer) :: after →
    LayerService.Permitted ⟨c, policy, architecture⟩ st.auth before q

theorem holds_serve (hkeep : KeepsRegistry r) :
    Holds (s.Permitted st.auth) (fun _ _ => True) [] (serve s provider now r st) := by
  refine holds_bind.2 ?_
  cases hreq : layerRequest? r with
  | none =>
      have hdone : ∃ served, serveMethod s provider now r st = .done served ∧
          served.state.auth = st.auth := serveMethod_of_no_layerRequest hreq
      obtain ⟨served, hserved, -⟩ := hdone
      rw [hserved]
      trivial
  | some request =>
      rw [serveMethod_of_layerRequest hreq]
      refine holds_bind.2 ((LayerService.holds_serve r.headers request ?_).mono
        fun _ _ _ => trivial)
      intro image himage version kind reference hlayer href
      obtain ⟨hparse, hadm⟩ := LayerService.admittedImage_eq_ok.1 himage
      have hsame := (ImageReference.registry_withTag_eq_iff hparse href).2
        (hkeep request version kind image reference hreq hlayer hparse href)
      rwa [hsame]

theorem keepsRegistry_of_confined {c : RegistryConfig} {architecture : Text}
    (h : Confined c architecture provider now r) : KeepsRegistry r := by
  intro request version kind image reference hreq hlayer hparse href
  refine (ImageReference.registry_withTag_eq_iff hparse href).1
    (Classical.byContradiction fun hne => ?_)
  -- The registry of the name alone is allowed, and known to be anonymous: the first call goes to
  -- that of the reference.
  let policy : RegistryPolicy := ⟨some [image.registry], none⟩
  let st : ServerState := ⟨[(image.registry, .anonymous image.registry)], ⟨0, 0, [], 0, 0⟩⟩
  have himage : LayerService.admittedImage policy request.imageName = .ok image :=
    LayerService.admittedImage_eq_ok.2 ⟨hparse, by simp [policy, RegistryPolicy.admits]⟩
  have hdeny : policy.admits reference.image.registry = false := by
    simp [policy, RegistryPolicy.admits, hne]
  have hcache : AuthCache.get? image.registry st.auth = some (.anonymous image.registry) := by
    simp [st, AuthCache.get?]
  obtain ⟨next, hnext⟩ := LayerService.serve_starts_with_manifest
    (s := ⟨c, policy, architecture⟩) himage hlayer href hcache r.headers
  let network : Dialogue.Answerer Call (Except CallError Reply) Unit :=
    fun _ u => (.error .unusableUrl, u)
  have hrun : ∃ after,
      ((serve ⟨c, policy, architecture⟩ provider now r st).run network ()).log =
        (Resolver.manifestCall .head
          (manifestUrl c reference.image reference.manifestReference) none,
          .error .unusableUrl) :: after := by
    rw [serve, serveMethod_of_layerRequest hreq, ofBoot_eq, hnext]
    exact ⟨_, rfl⟩
  obtain ⟨after, hlog⟩ := hrun
  have hslash := ImageName.slash_not_mem_registry (ImageReference.parse_eq_ok href).1
  exact LayerService.not_permitted_manifest hslash hdeny [] .head _ none
    (h policy st Unit network () [] after _ _ hlog)

theorem status_finished (r : BootRequest) (response : Response) :
    (finished r response).status = response.status := by
  have hlength : response.withLength.status = response.status := by
    unfold Response.withLength
    split <;> rfl
  unfold finished
  split
  · exact hlength
  · exact hlength

theorem serve_of_denied {request : LayerRequest} {image : ImageName}
    (hreq : layerRequest? r = some request) (hparse : ImageName.parse request.imageName = .ok image)
    (hdeny : s.policy.admits image.registry = false) :
    serve s provider now r st =
      .done ⟨finished r (.ofError (.registry (.registryNotAllowed image.registry))), st, []⟩ := by
  have himage : LayerService.admittedImage s.policy request.imageName =
      .error (.registryNotAllowed image.registry) := by
    simp only [LayerService.admittedImage, hparse, bind, Except.bind, hdeny]
    rfl
  rw [serve, serveMethod_of_layerRequest hreq, ofBoot_eq, LayerService.serve,
    LayerService.run_bind_ofExcept, himage]
  rfl

theorem calls_confined_iff (c : RegistryConfig) (architecture : Text) (provider : DriveProvider)
    (now : Time) (r : BootRequest) :
    (Confined c architecture provider now r ↔ KeepsRegistry r) ∧
      ∀ (policy : RegistryPolicy) (st : ServerState) (request : LayerRequest) (image : ImageName),
        layerRequest? r = some request → ImageName.parse request.imageName = .ok image →
        policy.admits image.registry = false →
          ∃ response, response.status = 403 ∧
            serve ⟨c, policy, architecture⟩ provider now r st = .done ⟨response, st, []⟩ := by
  refine ⟨⟨keepsRegistry_of_confined, ?_⟩, fun policy st request image hreq hparse hdeny => ?_⟩
  · intro hkeep policy st σ network start before after q a hlog
    simpa using (holds_serve hkeep).questions network start hlog
  · exact ⟨_, status_finished r _, serve_of_denied hreq hparse hdeny⟩

def strayingRequest : BootRequest where
  method := getMethod
  target := ⟨"/image".toList, some
    "imageName=evil&version=80/x:latest&layerName=application/io.gardenlinux.kernel".toList⟩
  headers := []

theorem straying_request_denied_without_calls :
    layerRequest? strayingRequest = some ⟨"evil".toList, .artifact "80/x:latest".toList .kernel⟩ ∧
      ∃ response, response.status = 403 ∧
        serve ⟨{}, .denyAll, "amd64".toList⟩ .empty 0 strayingRequest ⟨[], ⟨0, 0, [], 0, 0⟩⟩ =
          .done ⟨response, ⟨[], ⟨0, 0, [], 0, 0⟩⟩, []⟩ := by
  have hrequest : layerRequest? strayingRequest =
      some ⟨"evil".toList, .artifact "80/x:latest".toList .kernel⟩ := by decide
  have himage : ImageName.parse "evil".toList =
      .ok ⟨"registry-1.docker.io".toList, "library/evil".toList⟩ := by rfl
  exact ⟨hrequest, (calls_confined_iff {} "amd64".toList .empty 0 strayingRequest).2 .denyAll _ _ _
    hrequest himage (by decide)⟩

theorem straying_tag_leaves_admitted_registry :
    let s : LayerService := ⟨{}, .ofLists "registry-1.docker.io".toList [], "amd64".toList⟩
    let welcome : Reply := ⟨default, 200, [], ⟨[], .whole, none⟩⟩
    let run := (serve s .empty 0 strayingRequest ⟨[], ⟨0, 0, [], 0, 0⟩⟩).run
      (fun _ (u : Unit) => (.ok welcome, u)) ()
    ∃ before q after, run.log = before ++ (q, .ok welcome) :: after ∧
      q.url = "https://evil:80/v2/x/manifests/latest".toList ∧ ¬ s.Permitted [] before q := by
  intro s welcome run
  refine ⟨run.log.take 1, Resolver.manifestCall .head
    (manifestUrl s.registry ⟨"evil:80".toList, "x".toList⟩ "latest".toList) none,
    run.log.drop 2, by rfl, by decide, ?_⟩
  exact LayerService.not_permitted_manifest (by decide) (by decide) _ _ _ _

end Router

end NetBoot
