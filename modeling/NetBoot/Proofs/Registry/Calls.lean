import NetBoot.Proofs.Dialogue
import NetBoot.Proofs.Success
import NetBoot.Registry.Resolver

namespace NetBoot

open Http
open Dialogue (Holds)

abbrev CallLog := List (Call × Except CallError Reply)

theorem Fetch.run_ofExcept {α : Type} (x : Except RegistryError α) :
    (Fetch.ofExcept x).run = .done x := rfl

theorem Fetch.run_bind_ofExcept {α β : Type} (x : Except RegistryError α) (f : α → Fetch β) :
    (Fetch.ofExcept x >>= f).run =
      match x with
      | .ok a => (f a).run
      | .error e => .done (.error e) := by
  cases x <;> rfl

theorem Session.run_ofFetch {α : Type} (x : Fetch α) (cache : AuthCache) :
    (Session.ofFetch x).run.run cache = x.run.bind fun r => .done (r, cache) := rfl

theorem Session.ofFetch_bind {α β : Type} (x : Fetch α) (f : α → Fetch β) :
    Session.ofFetch (x >>= f) = Session.ofFetch x >>= fun a => Session.ofFetch (f a) := by
  refine ExceptT.ext (funext fun cache => ?_)
  change StateT.run (Session.ofFetch (x >>= f)).run cache =
    StateT.run (Session.ofFetch x >>= fun a => Session.ofFetch (f a)).run cache
  rw [ExceptT.run_bind, StateT.run_bind, Session.run_ofFetch, Session.run_ofFetch, ExceptT.run_bind]
  refine (Dialogue.bind_assoc _ _ _).trans ?_
  refine Eq.trans ?_ (Dialogue.bind_assoc _ _ _).symm
  refine congrArg (Dialogue.bind x.run) (funext fun r => ?_)
  cases r <;> rfl

theorem Session.ofExcept_ok_bind {α β : Type} (a : α) (f : α → Session β) :
    (Session.ofExcept (.ok a) >>= f) = f a := rfl

namespace Registry

def probed (c : RegistryConfig) (domain repository : Text) :
    Except CallError Reply → Except RegistryError RegistryInfo
  | .error e => .error (.connectionFailed (probeUrl c domain) e)
  | .ok r => infoOfProbe domain repository (probeUrl c domain) r

def tokenOf : Except CallError Reply → Except RegistryError Text
  | .error e => .error (.authenticationFailed ("token request failed: ".toList ++ e.message))
  | .ok r => tokenOfReply r

def headerOf (token : Text) : Except RegistryError (Option Text) :=
  if Headers.isLegal (bearerHeader token) then .ok (some (bearerHeader token))
  else .error (.authenticationFailed "Invalid token".toList)

theorem headerOf_eq_ok {token : Text} {auth : Option Text} :
    headerOf token = .ok auth ↔
      Headers.isLegal (bearerHeader token) ∧ auth = some (bearerHeader token) := by
  unfold headerOf
  split
  · next hlegal => exact ⟨fun h => ⟨hlegal, (Except.ok.inj h).symm⟩, fun h => congrArg _ h.2.symm⟩
  · next hillegal => exact ⟨nofun, fun h => absurd h.1 hillegal⟩

theorem run_callOrFail (c : Call) :
    (callOrFail c).run = .ask c fun a => .done (a.mapError ofCallError) := by
  refine congrArg (Dialogue.ask c) (funext fun a => ?_)
  cases a <;> rfl

theorem run_detect (c : RegistryConfig) (domain repository : Text) :
    (detect c domain repository).run =
      .ask (probe c domain) fun a => .done (probed c domain repository a) := by
  refine congrArg (Dialogue.ask (probe c domain)) (funext fun a => ?_)
  cases a <;> rfl

theorem run_bearerToken (url : Text) :
    (bearerToken url).run = .ask (tokenCall url) fun a => .done (tokenOf a) := by
  refine congrArg (Dialogue.ask (tokenCall url)) (funext fun a => ?_)
  cases a <;> rfl

theorem run_authorization (info : RegistryInfo) (repository : Text) :
    (authorization info repository).run =
      match info.method, info.tokenUrlFor repository with
      | .none, _ => .done (.ok none)
      | .basic, _ => .done (.error (.notImplemented "basic auth".toList))
      | .bearer, none =>
          .done (.error (.authenticationFailed "bearer challenge without a usable realm".toList))
      | .bearer, some url => .ask (tokenCall url) fun a => .done ((tokenOf a).bind headerOf) := by
  unfold authorization
  cases info.method with
  | none => rfl
  | basic => rfl
  | bearer =>
      cases info.tokenUrlFor repository with
      | none => rfl
      | some url =>
          refine (Dialogue.run_bind_of_ask (run_bearerToken url) _).trans ?_
          refine congrArg (Dialogue.ask (tokenCall url)) (funext fun a => ?_)
          cases tokenOf a with
          | error e => rfl
          | ok token =>
              by_cases hl : Headers.isLegal (bearerHeader token) = true
              · simp only [hl, if_true, Except.bind, headerOf]
                rfl
              · simp only [hl, Except.bind, headerOf]
                rfl

theorem holds_authorization {p : CallLog → Call → Prop} {info : RegistryInfo} {repository : Text}
    {log : CallLog}
    (hp : ∀ url, info.tokenUrlFor repository = some url → p log (tokenCall url)) :
    Holds p (fun _ _ => True) log (authorization info repository).run := by
  rw [run_authorization]
  split
  · trivial
  · trivial
  · trivial
  · next url _ hurl => exact ⟨hp url hurl, fun _ => trivial⟩

theorem run_registryInfo (c : RegistryConfig) (domain repository : Text) (cache : AuthCache) :
    (registryInfo c domain repository).run.run cache =
      match cache.get? domain with
      | some info => .done (.ok info, cache)
      | none => .ask (probe c domain) fun a =>
          match probed c domain repository a with
          | .ok info => .done (.ok info, cache.insert info)
          | .error e => .done (.error e, cache) := by
  have hget : (get : Session AuthCache).run.run cache = .done (.ok cache, cache) := rfl
  unfold registryInfo
  rw [ExceptT.run_bind, StateT.run_bind, hget]
  change StateT.run (ExceptT.run (match cache.get? domain with | some _ => _ | none => _)) cache = _
  cases cache.get? domain with
  | some info => rfl
  | none =>
      simp only [ExceptT.run_bind, StateT.run_bind, Session.run_ofFetch, run_detect]
      refine congrArg (Dialogue.ask (probe c domain)) (funext fun a => ?_)
      change (Dialogue.done (probed c domain repository a, cache)).bind _ = _
      cases probed c domain repository a <;> rfl

def informed {α : Type} (c : RegistryConfig) (image : ImageName) (k : RegistryInfo → Fetch α) :
    Session α := do
  let info ← registryInfo c image.registry image.repository
  Session.ofFetch (k info)

theorem run_informed {α : Type} (c : RegistryConfig) (image : ImageName)
    (k : RegistryInfo → Fetch α) (cache : AuthCache) :
    (informed c image k).run.run cache =
      match cache.get? image.registry with
      | some info => (k info).run.bind fun r => .done (r, cache)
      | none => .ask (probe c image.registry) fun a =>
          match probed c image.registry image.repository a with
          | .ok info => (k info).run.bind fun r => .done (r, cache.insert info)
          | .error e => .done (.error e, cache) := by
  rw [informed, ExceptT.run_bind, StateT.run_bind, run_registryInfo]
  cases cache.get? image.registry with
  | some info => rfl
  | none =>
      refine congrArg (Dialogue.ask _) (funext fun a => ?_)
      dsimp only
      cases probed c image.registry image.repository a <;> rfl

theorem negotiate_eq (c : RegistryConfig) (image : ImageName) :
    Resolver.negotiate c image = informed c image fun info =>
      authorization info image.repository >>= fun auth => pure (info, auth) := by
  refine bind_congr fun info => ?_
  rw [Session.ofFetch_bind]
  rfl

end Registry

namespace Resolver

open Registry

def received {α : Type} (outcome : Reply → Except RegistryError α)
    (a : Except CallError Reply) : Except RegistryError α :=
  (a.mapError ofCallError).bind outcome

theorem received_eq_ok {α : Type} {outcome : Reply → Except RegistryError α}
    {a : Except CallError Reply} {v : α} :
    received outcome a = .ok v ↔ ∃ r, a = .ok r ∧ outcome r = .ok v := by
  cases a <;> simp [received, Except.bind]

theorem received_ok {α : Type} (outcome : Reply → Except RegistryError α) (r : Reply) :
    received outcome (.ok r) = outcome r := rfl

theorem run_fetchContent (c : RegistryConfig) (image : ImageName) (d : Descriptor)
    (auth : Option Text) :
    (fetchContent c image d auth).run =
      .ask (manifestCall .get (manifestUrl c image d.digest) auth) fun a =>
        .done (received (contentOutcome image d) a) := by
  refine (Dialogue.run_bind_of_ask (run_callOrFail _) _).trans ?_
  refine congrArg (Dialogue.ask _) (funext fun a => ?_)
  cases a <;> rfl

theorem run_fetchRoot (c : RegistryConfig) (image : ImageName) (reference : Text)
    (pinned : Option Digest) (auth : Option Text) :
    (fetchRoot c image reference pinned auth).run =
      .ask (manifestCall .head (manifestUrl c image reference) auth) fun a =>
        match received (headOutcome image reference pinned) a with
        | .error e => .done (.error e)
        | .ok (some d) =>
            .ask (manifestCall .get (manifestUrl c image d.digest) auth) fun a =>
              .done ((received (contentOutcome image d) a).map fun data => (d, data))
        | .ok none =>
            .ask (manifestCall .get (manifestUrl c image reference) auth) fun a =>
              .done (received (getOutcome image reference pinned) a) := by
  refine (Dialogue.run_bind_of_ask (run_callOrFail _) _).trans ?_
  refine congrArg (Dialogue.ask _) (funext fun a => ?_)
  cases a with
  | error e => rfl
  | ok reply =>
      simp only [Except.mapError_ok, ExceptT.run_bind, Fetch.run_ofExcept, received_ok]
      change (Dialogue.done (headOutcome image reference pinned reply)).bind _ = _
      cases headOutcome image reference pinned reply with
      | error e => rfl
      | ok known =>
          cases known with
          | none =>
              refine (Dialogue.run_bind_of_ask (run_callOrFail _) _).trans ?_
              refine congrArg (Dialogue.ask _) (funext fun a => ?_)
              cases a <;> rfl
          | some d =>
              refine (Dialogue.run_bind_of_ask (run_fetchContent c image d auth) _).trans ?_
              refine congrArg (Dialogue.ask _) (funext fun a => ?_)
              cases received (contentOutcome image d) a <;> rfl

def onlyManifest (mediaType : MediaType) : Document → Except RegistryError Manifest
  | .manifest m => .ok m
  | .index _ => .error (.unsupportedMediaType mediaType)

theorem run_fetchManifest (r : Resolver) (image : ImageName) (architecture : Text)
    (auth : Option Text) (root : Descriptor × Bytes) :
    (fetchManifest r image architecture auth root).run =
      match parseDocument root.1.mediaType root.2 with
      | .error e => .done (.error e)
      | .ok (.manifest m) => .done (.ok m)
      | .ok (.index i) =>
          match selectEntry r architecture i with
          | .error e => .done (.error e)
          | .ok entry =>
              .ask (manifestCall .get (manifestUrl r.config image entry.digest) auth) fun a =>
                .done ((received (contentOutcome image entry) a).bind fun nested =>
                  (parseDocument entry.mediaType nested).bind (onlyManifest entry.mediaType)) := by
  unfold fetchManifest
  rw [Fetch.run_bind_ofExcept]
  cases parseDocument root.1.mediaType root.2 with
  | error e => rfl
  | ok document =>
      cases document with
      | manifest m => rfl
      | index i =>
          dsimp only
          rw [Fetch.run_bind_ofExcept]
          cases selectEntry r architecture i with
          | error e => rfl
          | ok entry =>
              refine (Dialogue.run_bind_of_ask (run_fetchContent _ image entry auth) _).trans ?_
              refine congrArg (Dialogue.ask _) (funext fun a => ?_)
              cases received (contentOutcome image entry) a with
              | error e => rfl
              | ok nested =>
                  refine (Fetch.run_bind_ofExcept _ _).trans ?_
                  simp only [Except.bind]
                  cases parseDocument entry.mediaType nested with
                  | error e => rfl
                  | ok document =>
                      cases document with
                      | manifest m => rfl
                      | index i => rfl

theorem holds_manifestCalls {r : Resolver} {reference : ImageReference}
    {p : CallLog → Call → Prop} {auth : Option Text}
    (hp : ∀ log method target,
      p log (manifestCall method (manifestUrl r.config reference.image target) auth))
    (architecture : Text) (kinds : List Artifact) (log : CallLog) :
    Holds p (fun _ _ => True) log (resolveWith r reference architecture kinds auth).run := by
  have hcontent (d : Descriptor) (log : CallLog) : Holds p (fun _ _ => True) log
      (fetchContent r.config reference.image d auth).run := by
    rw [run_fetchContent]
    exact ⟨hp log _ _, fun _ => trivial⟩
  refine Holds.then_except ?_ fun log root => Holds.then_except ?_ fun _ _ => trivial
  · rw [run_fetchRoot]
    refine ⟨hp log _ _, fun answer => ?_⟩
    dsimp only
    split
    · trivial
    · exact ⟨hp _ _ _, fun _ => trivial⟩
    · exact ⟨hp _ _ _, fun _ => trivial⟩
  · refine Holds.then_except trivial fun log document => ?_
    cases document with
    | manifest m => trivial
    | index i =>
        refine Holds.then_except trivial fun log entry => ?_
        refine Holds.then_except (hcontent entry log) fun log nested => ?_
        refine Holds.then_except trivial fun log document => ?_
        cases document <;> trivial

end Resolver

end NetBoot
