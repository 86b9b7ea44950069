import NetBoot.Proofs.Http.Redirects
import NetBoot.Proofs.Registry.Landing
import NetBoot.Proofs.Registry.Remembering

namespace NetBoot

open Http
open Dialogue (Holds Threads Trace exists_threads_of_trace holds_bind trace_run)

namespace Registry

variable {c : RegistryConfig} {domain tail name : Text} {image : ImageName} {u v : Url}

def isHome (c : RegistryConfig) (domain : Text) (u : Url) : Bool :=
  (Url.parse? (probeUrl c domain)).any fun home => sameEndpoint home u

def OfRealm (calls : CallLog) (value : Text) (u : Url) : Prop :=
  ∃ url answer target, (tokenCall url, answer) ∈ calls ∧
    (tokenCall url).userHeader? = some value ∧ target? url = .ok target ∧ sameEndpoint target u

/-- All that a request has for credentials goes to a registry, but for those in the URL of a call
for a token. A header that was negotiated is none of those. -/
structure Confided (c : RegistryConfig) (domain : Text) (calls : CallLog) (q : Request) :
    Prop where
  negotiated : ∀ token, bearerHeader token ∈ q.authorizations → isHome c domain q.url
  other : ∀ value ∈ q.authorizations, isHome c domain q.url ∨ OfRealm calls value q.url

def StartsHome (c : RegistryConfig) (domain : Text) (q : Call) : Prop :=
  ∀ u, target? q.url = .ok u → isHome c domain u

def StartsHomeOrAtRealm (c : RegistryConfig) (domain : Text) (q : Call) : Prop :=
  (∃ url, q = tokenCall url) ∨ StartsHome c domain q

theorem isHome_iff :
    isHome c domain u ↔
      ∃ home, Url.parse? (probeUrl c domain) = some home ∧ sameEndpoint home u := by
  cases hprobe : Url.parse? (probeUrl c domain) <;> simp [isHome, hprobe]

theorem isHome_of_sameEndpoint (h : isHome c domain u) (hsame : sameEndpoint u v) :
    isHome c domain v := by
  obtain ⟨home, hprobe, hhome⟩ := isHome_iff.1 h
  exact isHome_iff.2 ⟨home, hprobe, sameEndpoint_trans hhome hsame⟩

theorem site_of_target? {t : Text} (h : target? t = .ok u) :
    (Url.parse? t).map Url.site = some u.site := by
  unfold target? at h
  cases hparse : Url.parse? t with
  | none =>
      rw [hparse] at h
      cases h
  | some v =>
      simp only [hparse] at h
      split at h
      · cases h
        rw [Url.site_requested]
        rfl
      · cases h

theorem isHome_of_target? (hauthority : ∃ x ∈ domain, Url.isSlash true x = false ∧
      Url.isTabOrLine x = false)
    (h : target? (c.schemeFor domain ++ "://".toList ++ domain ++ '/' :: tail) = .ok u) :
    isHome c domain u := by
  have hscheme := c.isWeb_schemeFor domain
  have hsame : (Url.parse? (probeUrl c domain)).map Url.site = some u.site := by
    rw [← site_of_target? h]
    exact (Url.map_site_parse? hscheme hauthority "v2/".toList).trans
      (Url.map_site_parse? hscheme hauthority tail).symm
  obtain ⟨home, hprobe, hsite⟩ := Option.map_eq_some_iff.1 hsame
  exact isHome_iff.2 ⟨home, hprobe, sameEndpoint_of_site hsite⟩

theorem basicHeader_ne_bearerHeader (name password token : Text) :
    basicHeader name password ≠ bearerHeader token := by
  unfold basicHeader bearerHeader
  generalize Base64.encode _ = signs
  simp

theorem OfRealm.ne_bearerHeader {calls : CallLog} {value : Text} (h : OfRealm calls value u)
    (token : Text) : value ≠ bearerHeader token := by
  obtain ⟨url, -, -, -, huser, -⟩ := h
  obtain ⟨v, -, hv⟩ := Option.bind_eq_some_iff.1 huser
  obtain ⟨p, -, rfl⟩ := Option.map_eq_some_iff.1 hv
  exact basicHeader_ne_bearerHeader _ _ _

theorem startsHome_probe (c : RegistryConfig) (domain : Text) :
    StartsHome c domain (probe c domain) := by
  intro u htarget
  obtain ⟨home, hprobe, hsite⟩ := Option.map_eq_some_iff.1 (site_of_target? htarget)
  exact isHome_iff.2 ⟨home, hprobe, sameEndpoint_of_site hsite⟩

theorem startsHome_manifest (hname : ImageName.parse name = .ok image) (method : Method)
    (reference : Text) (auth : Option Text) : StartsHome c image.registry
      (Resolver.manifestCall method (manifestUrl c image reference) auth) := by
  intro u htarget
  rw [Resolver.manifestCall, manifestUrl_eq] at htarget
  exact isHome_of_target? (exists_mem_registry hname) htarget

theorem startsHome_blob (hname : ImageName.parse name = .ok image) (client : Client)
    (method : Method) (d : Digest) (headers : Headers) :
    StartsHome c image.registry ⟨client, method, blobUrl c image d, headers⟩ := by
  intro u htarget
  rw [blobUrl_eq] at htarget
  exact isHome_of_target? (exists_mem_registry hname) htarget

theorem Confided.mono {calls calls' : CallLog} {q : Request} (h : Confided c domain calls q)
    (hsub : ∀ e ∈ calls, e ∈ calls') : Confided c domain calls' q where
  negotiated := h.negotiated
  other value hvalue := by
    refine (h.other value hvalue).imp_right ?_
    rintro ⟨url, answer, target, hmem, hrest⟩
    exact ⟨url, answer, target, hsub _ hmem, hrest⟩

theorem StartsHome.isHome {q : Call} {sent : Request} (h : StartsHome c domain q)
    (hkeeps : q.Keeps sent) (hauth : sent.authorizations ≠ []) : isHome c domain sent.url := by
  obtain ⟨value, hvalue⟩ := List.exists_mem_of_ne_nil _ hauth
  obtain ⟨-, u, htarget, hsame⟩ := hkeeps value hvalue
  exact isHome_of_sameEndpoint (h u htarget) hsame

theorem confided_of_threads {calls : CallLog} {log : WireLog} (h : Threads perform calls log)
    (hcalls : ∀ e ∈ calls, StartsHomeOrAtRealm c domain e.1) :
    ∀ e ∈ log, Confided c domain calls e.1 := by
  intro e he
  obtain ⟨q, answer, part, hmem, hpart, hepart⟩ := h.exists_of_mem he
  have hkeeps : q.Keeps e.1 := (asks_perform q).trace hpart e hepart
  have hother (value : Text) (hvalue : value ∈ e.1.authorizations) :
      isHome c domain e.1.url ∨ OfRealm calls value e.1.url := by
    rcases hcalls (q, answer) hmem with ⟨url, hq⟩ | hhome
    · obtain rfl : q = tokenCall url := hq
      obtain ⟨hown, u, htarget, hsame⟩ := hkeeps value hvalue
      rw [Call.authorizations_of_bare rfl rfl, Option.mem_toList] at hown
      exact .inr ⟨url, answer, u, hmem, hown, htarget, hsame⟩
    · exact .inl (hhome.isHome hkeeps (List.ne_nil_of_mem hvalue))
  refine ⟨fun token hvalue => ?_, hother⟩
  rcases hother _ hvalue with hhome | hrealm
  · exact hhome
  · exact absurd rfl (hrealm.ne_bearerHeader token)

def Discreet {α σ : Type} (c : RegistryConfig) (domain : Text) (network : Network σ) (start : σ)
    (d : Calls α) : Prop :=
  let o := (onWire d).run network start
  ∃ calls, Trace d calls o.result ∧ Threads perform calls o.log ∧
    ∀ e ∈ o.log, Confided c domain calls e.1

theorem discreet_of_holds {α σ : Type} {d : Calls α}
    (h : Holds (fun _ => StartsHomeOrAtRealm c domain) (fun _ _ => True) [] d) (network : Network σ)
    (start : σ) : Discreet c domain network start d := by
  obtain ⟨calls, htrace, hthreads⟩ := exists_threads_of_trace (trace_run (onWire d) network start)
  exact ⟨calls, htrace, hthreads, confided_of_threads hthreads (h.asks.trace htrace)⟩

theorem holds_informed {α : Type} {p : CallLog → Call → Prop} {k : RegistryInfo → Fetch α}
    {cache : AuthCache} {log : CallLog} (hprobe : ∀ log, p log (probe c image.registry))
    (hk : ∀ info log, Holds p (fun _ _ => True) log (k info).run) :
    Holds p (fun _ _ => True) log ((informed c image k).run.run cache) := by
  rw [run_informed]
  split
  · exact holds_bind.2 ((hk _ _).mono fun _ _ _ => trivial)
  · refine ⟨hprobe _, fun answer => ?_⟩
    dsimp only
    split
    · exact holds_bind.2 ((hk _ _).mono fun _ _ _ => trivial)
    · trivial

end Registry

namespace Resolver

open Registry

variable {r : Resolver} {reference : ImageReference} {architecture text : Text}
  {kinds : List Artifact} {cache : AuthCache}

theorem resolveWith_stays_home {auth : Option Text} {log : WireLog}
    {a : Except RegistryError Selection.Assignment}
    (hparse : ImageReference.parse text = .ok reference)
    (h : Trace (onWire (resolveWith r reference architecture kinds auth).run) log a) :
    ∀ e ∈ log, e.1.authorizations ≠ [] → isHome r.config reference.image.registry e.1.url := by
  have hname : ImageName.parse reference.name = .ok reference.image :=
    (ImageReference.parse_eq_ok hparse).1
  have hholds : Holds (fun _ => StartsHome r.config reference.image.registry) (fun _ _ => True) []
      (resolveWith r reference architecture kinds auth).run :=
    holds_manifestCalls (fun _ method target => startsHome_manifest hname method target auth)
      architecture kinds []
  intro e he
  obtain ⟨calls, htrace, hthreads⟩ := exists_threads_of_trace h
  obtain ⟨q, answer, part, hmem, hpart, hepart⟩ := hthreads.exists_of_mem he
  have hhome : StartsHome r.config reference.image.registry q :=
    hholds.asks.trace htrace (q, answer) hmem
  exact hhome.isHome ((asks_perform q).trace hpart e hepart)

theorem holds_resolve (hparse : ImageReference.parse text = .ok reference) (log : CallLog) :
    Holds (fun _ => StartsHomeOrAtRealm r.config reference.image.registry) (fun _ _ => True) log
      ((resolve r reference architecture kinds).run.run cache) := by
  have hname : ImageName.parse reference.name = .ok reference.image :=
    (ImageReference.parse_eq_ok hparse).1
  rw [resolve_eq]
  refine holds_informed (fun _ => .inr (startsHome_probe _ _)) fun info log => ?_
  refine Holds.then_except (holds_authorization fun url _ => .inl ⟨url, rfl⟩) fun log auth => ?_
  exact holds_manifestCalls (fun _ method target =>
    .inr (startsHome_manifest hname method target auth)) architecture kinds log

theorem holds_resolveSingle {kind : Artifact} (hparse : ImageReference.parse text = .ok reference)
    (log : CallLog) :
    Holds (fun _ => StartsHomeOrAtRealm r.config reference.image.registry) (fun _ _ => True) log
      ((resolveSingle r reference architecture kind).run.run cache) :=
  Holds.then_state (holds_resolve hparse log) fun _ _ _ => trivial

theorem holds_resolvePxe (hparse : ImageReference.parse text = .ok reference) (log : CallLog) :
    Holds (fun _ => StartsHomeOrAtRealm r.config reference.image.registry) (fun _ _ => True) log
      ((resolvePxe r reference architecture).run.run cache) :=
  Holds.then_state (holds_resolve hparse log) fun _ _ _ => Holds.then_state trivial fun _ _ _ =>
    Holds.then_state trivial fun _ _ _ => Holds.then_state trivial fun _ _ _ => trivial

theorem holds_httpBootUrl {serverUrl : Text} (hparse : ImageReference.parse text = .ok reference)
    (log : CallLog) :
    Holds (fun _ => StartsHomeOrAtRealm r.config reference.image.registry) (fun _ _ => True) log
      ((httpBootUrl r text serverUrl architecture).run.run cache) := by
  unfold httpBootUrl
  rw [hparse, Session.ofExcept_ok_bind]
  refine Holds.then_state (holds_resolveSingle hparse log) fun _ uki _ => ?_
  split
  · trivial
  · split <;> trivial

end Resolver

end NetBoot
