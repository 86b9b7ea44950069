import NetBoot.Proofs.Dialogue.Runs
import NetBoot.Proofs.Registry.Provenance
import NetBoot.Proofs.Server.Admission

namespace NetBoot

open Http Registry
open Dialogue (Trace trace_done trace_ask trace_ask_done trace_bind trace_bind_except
  trace_map_except)

def calls (log : CallLog) : List Call := log.map Prod.fst

namespace LayerService

def detected? (c : RegistryConfig) (cache : AuthCache) (image : ImageName) (probe : CallLog) :
    Option RegistryInfo :=
  match cache.get? image.registry, probe with
  | some info, _ => some info
  | none, (_, answer) :: _ => (probed c image.registry image.repository answer).toOption
  | none, [] => none

def negotiated? (info : RegistryInfo) (token : CallLog) : Option (Option Text) :=
  match info.method, token with
  | .none, _ => some none
  | .bearer, (_, answer) :: _ => ((tokenOf answer).bind headerOf).toOption
  | _, _ => none

def reference? (request : LayerRequest) : Option ImageReference :=
  match request.layer with
  | .artifact version _ => (ImageReference.withTag request.imageName version).toOption
  | .digest _ => none

inductive Chosen (s : LayerService) (request : LayerRequest) (auth : Option Text) (log : CallLog) :
    Digest → Prop
  | given (d : Digest) : request.layer = .digest d → Chosen s request auth log d
  | found (version : Text) (kind : Artifact) (reference : ImageReference)
      (layers : Selection.Assignment) (layer : Descriptor) (d : Digest) :
      request.layer = .artifact version kind →
      ImageReference.withTag request.imageName version = .ok reference →
      Resolver.Verified s.resolver reference s.architecture [kind] auth log layers →
      Resolver.take kind layers = .ok layer → Digest.parse? layer.digest = some d →
        Chosen s request auth log d

def redirection : CallLog → List Call
  | [(blob, .ok reply)] =>
      if BlobRelay.isStorageRedirect reply then
        ((BlobRelay.redirectTarget reply).toOption.map fun target =>
          BlobRelay.blobCall target.toText blob.headers).toList
      else []
  | _ => []

structure Negotiation (c : RegistryConfig) (cache : AuthCache) (image : ImageName)
    (probe token : CallLog) : Prop where
  probe_calls : calls probe =
    if (cache.get? image.registry).isSome then [] else [Registry.probe c image.registry]
  token_calls : calls token = (((detected? c cache image probe).bind fun info =>
    info.tokenUrlFor image.repository).map tokenCall).toList
  token_ne_nil_iff : token ≠ [] ↔ ∃ info realm, detected? c cache image probe = some info ∧
    info.method = .bearer ∧ info.realm = some realm ∧ (Url.parse? realm).isSome

structure Lookup (s : LayerService) (request : LayerRequest) (auth : Option (Option Text))
    (head get : CallLog) : Prop where
  head_calls : calls head =
    match auth, reference? request with
    | some auth, some reference =>
        [Resolver.manifestCall .head
          (manifestUrl s.registry reference.image reference.manifestReference) auth]
    | _, _ => []
  get_length_le : get.length ≤ 2
  get_calls : ∀ e ∈ get, ∃ auth' reference target, auth = some auth' ∧
    reference? request = some reference ∧
    e.1 = Resolver.manifestCall .get (manifestUrl s.registry reference.image target) auth'
  get_ne_nil_iff : get ≠ [] ↔ ∃ reference q answer known,
    reference? request = some reference ∧ head = [(q, answer)] ∧
    Resolver.received (Resolver.headOutcome reference.image reference.manifestReference
      reference.digest) answer = .ok known
  root_of_second : get.length = 2 → ∃ auth' reference d data, auth = some auth' ∧
    reference? request = some reference ∧
    Resolver.Root s.registry reference auth' (head ++ get.take 1) d data

structure Relaying (s : LayerService) (inbound : Headers) (request : LayerRequest)
    (image : ImageName) (auth : Option (Option Text)) (manifests blob redirect : CallLog) :
    Prop where
  blob_calls : ∀ auth' d, auth = some auth' → Chosen s request auth' manifests d →
    calls blob =
      [BlobRelay.blobCall (blobUrl s.registry image d) (BlobRelay.outbound inbound auth')]
  blob_eq_nil :
    (∀ auth' d, auth = some auth' → ¬ Chosen s request auth' manifests d) → blob = []
  redirect_calls : calls redirect = redirection blob

variable {s : LayerService} {cache known : AuthCache} {image : ImageName} {log : CallLog}
  {c : RegistryConfig} {inbound : Headers} {request : LayerRequest}

section Negotiation

theorem tokenUrlFor_eq_none {info : RegistryInfo} (h : info.method ≠ .bearer) (repository : Text) :
    info.tokenUrlFor repository = none := by
  unfold RegistryInfo.tokenUrlFor
  split
  · next hm _ => exact absurd hm h
  · rfl

theorem exists_tokenUrlFor_iff {info : RegistryInfo} {repository : Text} :
    (∃ url, info.tokenUrlFor repository = some url) ↔
      ∃ realm, info.method = .bearer ∧ info.realm = some realm ∧ (Url.parse? realm).isSome := by
  unfold RegistryInfo.tokenUrlFor
  cases hm : info.method with
  | none => simp
  | basic => simp
  | bearer =>
      cases hr : info.realm with
      | none => simp
      | some realm => simp [RegistryInfo.tokenUrlOf, Option.isSome_iff_exists]

theorem trace_authorization {info : RegistryInfo} {repository : Text}
    {r : Except RegistryError (Option Text)}
    (h : Trace (authorization info repository).run log r) :
    calls log = ((info.tokenUrlFor repository).map tokenCall).toList ∧
      r.toOption = negotiated? info log ∧
      (info.method = .basic → r = .error (.notImplemented "basic auth".toList)) := by
  rw [run_authorization] at h
  split at h
  · next hm =>
      obtain ⟨rfl, rfl⟩ := trace_done.1 h
      have hurl := tokenUrlFor_eq_none (by rw [hm]; decide) repository
      simp [hurl, negotiated?, hm, calls, Except.toOption]
  · next hm =>
      obtain ⟨rfl, rfl⟩ := trace_done.1 h
      have hurl := tokenUrlFor_eq_none (by rw [hm]; decide) repository
      simp [hurl, negotiated?, hm, calls, Except.toOption]
  · next hm hurl =>
      obtain ⟨rfl, rfl⟩ := trace_done.1 h
      simp [hurl, negotiated?, hm, calls, Except.toOption]
  · next url hm hurl =>
      obtain ⟨a, rfl, rfl⟩ := trace_ask_done.1 h
      simp [hurl, negotiated?, hm, calls]

theorem trace_informed {α : Type} {k : RegistryInfo → Fetch α} {r : Except RegistryError α}
    (h : Trace ((informed c image k).run.run cache) log (r, known)) :
    ∃ probe rest, log = probe ++ rest ∧
      calls probe =
        (if (cache.get? image.registry).isSome then [] else [Registry.probe c image.registry]) ∧
      ((∃ info, detected? c cache image probe = some info ∧ Trace (k info).run rest r) ∨
        ∃ e, detected? c cache image probe = none ∧ rest = [] ∧ r = .error e) := by
  rw [run_informed] at h
  cases hget : cache.get? image.registry with
  | some info =>
      simp only [hget] at h
      obtain ⟨first, r', rest, rfl, hk, hdone⟩ := trace_bind.1 h
      obtain ⟨rfl, hr⟩ := trace_done.1 hdone
      obtain rfl := (Prod.mk.inj hr).1
      exact ⟨[], first, by simp, by simp [calls], .inl ⟨info, by simp [detected?, hget], hk⟩⟩
  | none =>
      simp only [hget] at h
      obtain ⟨a, rest, rfl, hrest⟩ := trace_ask.1 h
      refine ⟨[(Registry.probe c image.registry, a)], rest, rfl, by simp [calls], ?_⟩
      cases hp : probed c image.registry image.repository a with
      | error e =>
          simp only [hp] at hrest
          obtain ⟨rfl, hr⟩ := trace_done.1 hrest
          obtain rfl := (Prod.mk.inj hr).1
          exact .inr ⟨e, by simp [detected?, hget, hp, Except.toOption], rfl, rfl⟩
      | ok info =>
          simp only [hp] at hrest
          obtain ⟨first, r', rest', rfl, hk, hdone⟩ := trace_bind.1 hrest
          obtain ⟨rfl, hr⟩ := trace_done.1 hdone
          obtain rfl := (Prod.mk.inj hr).1
          exact .inl ⟨info, by simp [detected?, hget, hp, Except.toOption], by simpa using hk⟩

theorem calls_ne_nil_iff : calls log ≠ [] ↔ log ≠ [] := by
  simp [calls]

theorem negotiation_of_calls {probe token : CallLog} (hprobe : calls probe =
      if (cache.get? image.registry).isSome then [] else [Registry.probe c image.registry])
    (htoken : calls token = (((detected? c cache image probe).bind fun info =>
      info.tokenUrlFor image.repository).map tokenCall).toList) :
    Negotiation c cache image probe token := by
  refine ⟨hprobe, htoken, ?_⟩
  rw [← calls_ne_nil_iff, htoken]
  cases detected? c cache image probe with
  | none => simp
  | some info =>
      have hiff : (∃ url, info.tokenUrlFor image.repository = some url) ↔
          ∃ realm, info.method = .bearer ∧ info.realm = some realm ∧ (Url.parse? realm).isSome :=
        exists_tokenUrlFor_iff
      cases hurl : info.tokenUrlFor image.repository with
      | none => simpa [hurl] using hiff
      | some url => simpa [hurl] using hiff

theorem trace_negotiate {r : Except RegistryError (RegistryInfo × Option Text)}
    (h : Trace ((Resolver.negotiate c image).run.run cache) log (r, known)) :
    ∃ probe token, log = probe ++ token ∧ Negotiation c cache image probe token ∧
      (r.toOption.map Prod.snd =
        (detected? c cache image probe).bind fun info => negotiated? info token) ∧
      ∀ info, detected? c cache image probe = some info → info.method = .basic →
        r = .error (.notImplemented "basic auth".toList) := by
  rw [negotiate_eq] at h
  obtain ⟨probe, token, rfl, hprobe, ⟨info, hinfo, hrest⟩ | ⟨e, hnone, rfl, rfl⟩⟩ :=
    trace_informed h
  · obtain ⟨x, hauth, rfl⟩ := trace_map_except.1 hrest
    obtain ⟨hcalls, hnegotiated, hbasic⟩ := trace_authorization hauth
    refine ⟨probe, token, rfl, negotiation_of_calls hprobe (by simp [hinfo, hcalls]), ?_, ?_⟩
    · rw [hinfo, Option.bind_some, ← hnegotiated]
      cases x <;> rfl
    · intro other hother hmethod
      obtain rfl : info = other := Option.some.inj (hinfo.symm.trans hother)
      rw [hbasic hmethod]
      rfl
  · refine ⟨probe, [], rfl, negotiation_of_calls hprobe (by simp [hnone, calls]), ?_, ?_⟩
    · simp [hnone, Except.toOption]
    · intro info hinfo
      cases hnone.symm.trans hinfo

end Negotiation

section Lookup

open Resolver (manifestCall received headOutcome)

variable {reference : ImageReference} {auth : Option Text}

theorem trace_fetchRoot {x : Except RegistryError (Descriptor × Bytes)}
    (h : Trace (Resolver.fetchRoot c reference.image reference.manifestReference reference.digest
      auth).run log x) :
    ∃ answer get, log = (manifestCall .head
        (manifestUrl c reference.image reference.manifestReference) auth, answer) :: get ∧
      ((get = [] ∧ ∃ e, received (headOutcome reference.image reference.manifestReference
          reference.digest) answer = .error e) ∨
        ∃ known target b, received (headOutcome reference.image reference.manifestReference
            reference.digest) answer = .ok known ∧
          get = [(manifestCall .get (manifestUrl c reference.image target) auth, b)]) := by
  rw [Resolver.run_fetchRoot] at h
  obtain ⟨answer, get, rfl, hget⟩ := trace_ask.1 h
  refine ⟨answer, get, rfl, ?_⟩
  cases hhead : received (headOutcome reference.image reference.manifestReference
      reference.digest) answer with
  | error e =>
      rw [hhead] at hget
      exact .inl ⟨(trace_done.1 hget).1, e, rfl⟩
  | ok known =>
      rw [hhead] at hget
      cases known with
      | some d =>
          obtain ⟨b, rfl, -⟩ := trace_ask_done.1 hget
          exact .inr ⟨some d, d.digest, b, rfl, rfl⟩
      | none =>
          obtain ⟨b, rfl, -⟩ := trace_ask_done.1 hget
          exact .inr ⟨none, reference.manifestReference, b, rfl, rfl⟩

theorem trace_fetchManifest {r : Resolver} {architecture : Text} {root : Descriptor × Bytes}
    {x : Except RegistryError Manifest}
    (h : Trace (Resolver.fetchManifest r image architecture auth root).run log x) :
    log = [] ∨ ∃ target b,
      log = [(manifestCall .get (manifestUrl r.config image target) auth, b)] := by
  rw [Resolver.run_fetchManifest] at h
  split at h
  · exact .inl (trace_done.1 h).1
  · exact .inl (trace_done.1 h).1
  · split at h
    · exact .inl (trace_done.1 h).1
    · next entry _ =>
        obtain ⟨b, rfl, -⟩ := trace_ask_done.1 h
        exact .inr ⟨entry.digest, b, rfl⟩

structure ManifestCalls (c : RegistryConfig) (reference : ImageReference) (auth : Option Text)
    (first : Call × Except CallError Reply) (get : CallLog) : Prop where
  length_le : get.length ≤ 2
  calls : ∀ e ∈ get, ∃ target, e.1 = manifestCall .get (manifestUrl c reference.image target) auth
  ne_nil_iff : get ≠ [] ↔ ∃ known, received (headOutcome reference.image
    reference.manifestReference reference.digest) first.2 = .ok known
  root_of_second : get.length = 2 → ∃ d data,
    Resolver.Root c reference auth (first :: get.take 1) d data

theorem trace_resolveWith {r : Resolver} {architecture : Text} {kinds : List Artifact}
    {x : Except RegistryError Selection.Assignment}
    (h : Trace (Resolver.resolveWith r reference architecture kinds auth).run log x) :
    ∃ answer get, log = (manifestCall .head
        (manifestUrl r.config reference.image reference.manifestReference) auth, answer) :: get ∧
      ManifestCalls r.config reference auth (manifestCall .head
        (manifestUrl r.config reference.image reference.manifestReference) auth, answer) get := by
  rcases trace_bind_except.1 h with ⟨e, hroot, rfl⟩ | ⟨first, root, rest, rfl, hroot, hrest⟩
  · obtain ⟨answer, get, rfl, ⟨rfl, e, hhead⟩ | ⟨known, target, b, hhead, rfl⟩⟩ :=
      trace_fetchRoot hroot
    · exact ⟨answer, [], rfl, by simp, by simp, by simp [hhead], by simp⟩
    · refine ⟨answer, _, rfl, by simp, fun e he => ⟨target, ?_⟩, by simp [hhead], by simp⟩
      rw [List.mem_singleton.1 he]
  · have hverified := ((Resolver.holds_fetchRoot r.config reference auth).trace hroot).2
    have hmanifest : rest = [] ∨ ∃ target b, rest =
        [(manifestCall .get (manifestUrl r.config reference.image target) auth, b)] := by
      rcases trace_bind_except.1 hrest with ⟨e, hm, -⟩ | ⟨first, m, last, rfl, hm, hdone⟩
      · exact trace_fetchManifest hm
      · obtain ⟨rfl, -⟩ := trace_done.1 hdone
        simpa using trace_fetchManifest hm
    -- Another manifest is asked for only after the root document has been verified.
    have hfirst : Resolver.Root r.config reference auth first root.1 root.2 :=
      (hverified root.1 root.2).1 rfl
    obtain ⟨answer, get, rfl, ⟨rfl, -⟩ | ⟨known, target, b, hhead, rfl⟩⟩ := trace_fetchRoot hroot
    · cases hfirst.length_eq_two
    · refine ⟨answer, _ :: rest, rfl, ?_, ?_, by simp [hhead], fun _ => ⟨_, _, hfirst⟩⟩
      · rcases hmanifest with rfl | ⟨target', b', rfl⟩ <;> simp
      · rcases hmanifest with rfl | ⟨target', b', rfl⟩
        · intro e he
          exact ⟨target, by rw [List.mem_singleton.1 he]⟩
        · intro e he
          rcases List.mem_cons.1 he with rfl | he
          · exact ⟨target, rfl⟩
          · exact ⟨target', by rw [List.mem_singleton.1 he]⟩

def digestIn (kind : Artifact) (layers : Selection.Assignment) : Except RegistryError Digest :=
  (Resolver.take kind layers).bind fun layer =>
    match Digest.parse? layer.digest with
    | some d => .ok d
    | none => .error (.invalidDigest layer.digest)

theorem digestIn_eq_ok {kind : Artifact} {layers : Selection.Assignment} {d : Digest} :
    digestIn kind layers = .ok d ↔
      ∃ layer, Resolver.take kind layers = .ok layer ∧ Digest.parse? layer.digest = some d := by
  refine Except.bind_eq_ok.trans (exists_congr fun layer => and_congr_right fun _ => ?_)
  cases Digest.parse? layer.digest <;> simp

section Layer

variable {version : Text} {kind : Artifact} {d : Digest}

theorem reference?_of_digest (hlayer : request.layer = .digest d) : reference? request = none := by
  simp [reference?, hlayer]

theorem reference?_of_artifact (hlayer : request.layer = .artifact version kind) :
    reference? request = (ImageReference.withTag request.imageName version).toOption := by
  simp [reference?, hlayer]

theorem chosen_iff_of_digest {given : Digest} (hlayer : request.layer = .digest given) :
    Chosen s request auth log d ↔ given = d := by
  constructor
  · intro h
    cases h with
    | given _ hgiven =>
        cases hlayer.symm.trans hgiven
        rfl
    | found _ _ _ _ _ _ hfound => cases hlayer.symm.trans hfound
  · rintro rfl
    exact .given given hlayer

theorem chosen_iff_of_artifact (hlayer : request.layer = .artifact version kind) :
    Chosen s request auth log d ↔ ∃ reference layers,
      ImageReference.withTag request.imageName version = .ok reference ∧
        Resolver.Verified s.resolver reference s.architecture [kind] auth log layers ∧
        digestIn kind layers = .ok d := by
  constructor
  · intro h
    cases h with
    | given _ hgiven => cases hlayer.symm.trans hgiven
    | found version' kind' reference layers layer _ hfound href hverified htake hparse =>
        cases hlayer.symm.trans hfound
        exact ⟨reference, layers, href, hverified, digestIn_eq_ok.2 ⟨layer, htake, hparse⟩⟩
  · rintro ⟨reference, layers, href, hverified, hdigest⟩
    obtain ⟨layer, htake, hparse⟩ := digestIn_eq_ok.1 hdigest
    exact .found version kind reference layers layer d hlayer href hverified htake hparse

theorem run_digestOf_of_artifact (hlayer : request.layer = .artifact version kind)
    (auth : Option Text) :
    (s.digestOf request auth).run =
      match ImageReference.withTag request.imageName version with
      | .error e => .done (.error e)
      | .ok reference =>
          (s.resolver.resolveWith reference s.architecture [kind] auth).run.bind fun x =>
            .done (x.bind (digestIn kind)) := by
  unfold digestOf
  rw [hlayer]
  dsimp only
  rw [Fetch.run_bind_ofExcept]
  cases ImageReference.withTag request.imageName version with
  | error e => rfl
  | ok reference =>
      dsimp only
      rw [ExceptT.run_bind]
      refine congrArg (Dialogue.bind _) (funext fun x => ?_)
      cases x with
      | error e => rfl
      | ok layers =>
          dsimp only
          rw [Fetch.run_bind_ofExcept]
          simp only [Except.bind, digestIn]
          cases Resolver.take kind layers with
          | error e => rfl
          | ok layer =>
              dsimp only
              cases Digest.parse? layer.digest <;> rfl

end Layer

theorem lookup_nil {auth : Option (Option Text)} (h : auth = none ∨ reference? request = none) :
    Lookup s request auth [] [] where
  head_calls := by
    rcases h with h | h
    · rw [h]
      rfl
    · rw [h]
      cases auth <;> rfl
  get_length_le := by simp
  get_calls := by simp
  get_ne_nil_iff := by simp
  root_of_second := by simp

theorem lookup_of_manifestCalls (hreference : reference? request = some reference)
    {answer : Except CallError Reply} {get : CallLog}
    (h : ManifestCalls s.registry reference auth (manifestCall .head
      (manifestUrl s.registry reference.image reference.manifestReference) auth, answer) get) :
    Lookup s request (some auth) [(manifestCall .head
      (manifestUrl s.registry reference.image reference.manifestReference) auth, answer)] get where
  head_calls := by
    rw [hreference]
    rfl
  get_length_le := h.length_le
  get_calls e he := by
    obtain ⟨target, htarget⟩ := h.calls e he
    exact ⟨auth, reference, target, rfl, hreference, htarget⟩
  get_ne_nil_iff := by
    rw [h.ne_nil_iff]
    constructor
    · rintro ⟨known, hknown⟩
      exact ⟨reference, _, answer, known, hreference, rfl, hknown⟩
    · rintro ⟨reference', q, answer', known, hreference', hhead, hknown⟩
      cases hreference.symm.trans hreference'
      cases hhead
      exact ⟨known, hknown⟩
  root_of_second htwo := by
    obtain ⟨d, data, hroot⟩ := h.root_of_second htwo
    exact ⟨auth, reference, d, data, rfl, hreference, hroot⟩

theorem trace_digestOf {r : Except RegistryError Digest}
    (h : Trace (s.digestOf request auth).run log r) :
    ∃ head get, log = head ++ get ∧ Lookup s request (some auth) head get ∧
      ∀ d, r = .ok d ↔ Chosen s request auth log d := by
  cases hlayer : request.layer with
  | digest given =>
      rw [digestOf, hlayer] at h
      obtain ⟨rfl, rfl⟩ := trace_done.1 h
      refine ⟨[], [], rfl, lookup_nil (.inr (reference?_of_digest hlayer)), fun d => ?_⟩
      rw [chosen_iff_of_digest hlayer]
      exact Except.pure_eq_ok
  | artifact version kind =>
      have hreference := reference?_of_artifact hlayer
      rw [run_digestOf_of_artifact hlayer] at h
      simp only [chosen_iff_of_artifact hlayer]
      cases href : ImageReference.withTag request.imageName version with
      | error e =>
          rw [href] at h hreference
          obtain ⟨rfl, rfl⟩ := trace_done.1 h
          exact ⟨[], [], rfl, lookup_nil (.inr hreference), by simp⟩
      | ok reference =>
          rw [href] at h hreference
          obtain ⟨asked, x, last, rfl, hx, hdone⟩ := trace_bind.1 h
          obtain ⟨rfl, rfl⟩ := trace_done.1 hdone
          have hverified : ∀ layers, x = .ok layers ↔
              Resolver.Verified s.resolver reference s.architecture [kind] auth asked layers :=
            (Resolver.holds_resolveWith s.resolver reference s.architecture [kind] auth).trace hx
          obtain ⟨answer, get, rfl, hget⟩ := trace_resolveWith hx
          refine ⟨[_], get, List.append_nil _, lookup_of_manifestCalls hreference hget,
            fun d => ?_⟩
          refine Except.bind_eq_ok.trans ?_
          simp only [hverified, List.append_nil, Except.ok.injEq, exists_and_left, exists_eq_left']

end Lookup

section Relaying

theorem trace_fetch {url : Text} {headers : Headers} {r : Except BootError Reply}
    (h : Trace (BlobRelay.fetch url headers).run log r) :
    ∃ blob redirect, log = blob ++ redirect ∧
      calls blob = [BlobRelay.blobCall url headers] ∧ calls redirect = redirection blob := by
  rw [run_fetch] at h
  obtain ⟨a, rest, rfl, hrest⟩ := trace_ask.1 h
  refine ⟨[(BlobRelay.blobCall url headers, a)], rest, rfl, rfl, ?_⟩
  cases a with
  | error e =>
      obtain ⟨rfl, -⟩ := trace_done.1 hrest
      rfl
  | ok reply =>
      dsimp only at hrest
      dsimp only [redirection]
      split at hrest
      · next hr =>
          rw [if_pos hr]
          cases ht : BlobRelay.redirectTarget reply with
          | error e =>
              rw [ht] at hrest
              obtain ⟨rfl, -⟩ := trace_done.1 hrest
              rfl
          | ok target =>
              rw [ht] at hrest
              obtain ⟨b, rfl, -⟩ := trace_ask_done.1 hrest
              rfl
      · next hr =>
          rw [if_neg hr]
          obtain ⟨rfl, -⟩ := trace_done.1 hrest
          rfl

theorem trace_relay {d : Digest} {auth : Option Text} {r : Except BootError Response}
    (h : Trace (BlobRelay.relay c inbound image d auth).run log r) :
    ∃ blob redirect, log = blob ++ redirect ∧ calls blob =
        [BlobRelay.blobCall (blobUrl c image d) (BlobRelay.outbound inbound auth)] ∧
      calls redirect = redirection blob := by
  obtain ⟨reply, hfetch, -⟩ := trace_map_except.1 h
  exact trace_fetch hfetch

end Relaying

end LayerService

end NetBoot
