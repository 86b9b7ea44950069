import NetBoot.Proofs.Http.Redirects
import NetBoot.Proofs.Registry.Calls

namespace NetBoot

open Http
open Dialogue (Holds steady result_ask result_done result_bind questions_ask questions_done
  questions_bind result_through questions_through)

namespace RegistryInfo

def scopedTo (repository : Text) (info : RegistryInfo) : RegistryInfo :=
  { info with tokenUrl := info.tokenUrlFor repository }

theorem scopedTo_ofChallenge (domain : Text) (c : Challenge) (repository other : Text) :
    (ofChallenge domain c repository).scopedTo other = ofChallenge domain c other := by
  cases c <;> rfl

end RegistryInfo

namespace Registry

theorem infoOfProbe_scopedTo (domain repository other url : Text) (r : Reply) :
    infoOfProbe domain other url r =
      (infoOfProbe domain repository url r).map (RegistryInfo.scopedTo other) := by
  unfold infoOfProbe
  split
  · rfl
  · split
    · split
      · rfl
      · next header _ =>
          cases Challenge.parse header with
          | ok c => exact congrArg Except.ok (RegistryInfo.scopedTo_ofChallenge domain c _ _).symm
          | error f => cases f <;> rfl
    · rfl

theorem probed_scopedTo (c : RegistryConfig) (domain repository other : Text)
    (a : Except CallError Reply) :
    probed c domain other a = (probed c domain repository a).map (RegistryInfo.scopedTo other) := by
  cases a with
  | error e => rfl
  | ok r => exact infoOfProbe_scopedTo domain repository other _ r

theorem domain_of_probed {c : RegistryConfig} {domain repository : Text}
    {a : Except CallError Reply} {info : RegistryInfo}
    (h : probed c domain repository a = .ok info) : info.domain = domain := by
  cases a with
  | error e => exact nomatch h
  | ok r =>
      simp only [probed, infoOfProbe] at h
      split at h
      · cases h
        rfl
      · split at h
        · split at h
          · cases h
          · next header _ =>
              cases hc : Challenge.parse header with
              | ok challenge =>
                  simp only [hc, Except.ok.injEq] at h
                  subst h
                  cases challenge <;> rfl
              | error f => cases f <;> simp [hc] at h
        · cases h

theorem authorization_scopedTo (repository other : Text) (info : RegistryInfo) :
    authorization (info.scopedTo repository) other = authorization info other := rfl

def scopeParameter (repository : Text) : Text :=
  "scope=repository:".toList ++ repository ++ ":pull".toList

def inQuery (u : Url) (t : Text) : Text :=
  Percent.encode (Url.querySet u.isSpecial) (t.filter fun c => !Url.isTabOrLine c)

def AsksScope (repository url : Text) : Prop :=
  ∃ (u : Url) (before : Text), url = u.toText ∧ (before = [] ∨ ∃ b, before = b ++ ['&']) ∧
    u.query = some (before ++ inQuery u (scopeParameter repository))

theorem joinWith_append_singleton (separator : Text) (ts : List Text) (t : Text) :
    ∃ before, Text.joinWith separator (ts ++ [t]) = before ++ t ∧
      (before = [] ∨ ∃ b, before = b ++ separator) := by
  induction ts with
  | nil => exact ⟨[], rfl, .inl rfl⟩
  | cons x xs ih =>
      obtain ⟨before, hjoin, hbefore⟩ := ih
      have hcons : Text.joinWith separator (x :: xs ++ [t]) =
          x ++ separator ++ Text.joinWith separator (xs ++ [t]) := by
        cases xs <;> rfl
      refine ⟨x ++ separator ++ before, by rw [hcons, hjoin, ← List.append_assoc], .inr ?_⟩
      rcases hbefore with rfl | ⟨b, rfl⟩
      · exact ⟨x, List.append_nil _⟩
      · exact ⟨x ++ separator ++ b, (List.append_assoc _ _ _).symm⟩

theorem inQuery_append (u : Url) (a b : Text) : inQuery u (a ++ b) = inQuery u a ++ inQuery u b := by
  simp only [inQuery, List.filter_append, Percent.encode, List.flatMap_append]

theorem inQuery_ampersand (u : Url) : inQuery u ['&'] = ['&'] := by
  unfold inQuery
  cases u.isSpecial <;> decide

theorem asksScope_of_tokenUrlOf {realm repository url : Text} {service : Option Text}
    (h : RegistryInfo.tokenUrlOf realm service repository = some url) : AsksScope repository url := by
  obtain ⟨u, -, rfl⟩ := Option.map_eq_some_iff.1 h
  obtain ⟨before, hjoin, hbefore⟩ := joinWith_append_singleton ['&']
    ((u.query.filter fun t => t ≠ []).toList ++
      ((service.filter fun t => t ≠ []).toList.map ("service=".toList ++ ·)))
    (scopeParameter repository)
  refine ⟨_, inQuery u before, rfl, ?_, ?_⟩
  · rcases hbefore with rfl | ⟨b, rfl⟩
    · exact .inl rfl
    · exact .inr ⟨inQuery u b, by rw [inQuery_append, inQuery_ampersand]⟩
  · have hquery : RegistryInfo.tokenQuery u.query service repository =
        before ++ scopeParameter repository := hjoin
    change some (inQuery u _) = some (_ ++ inQuery u _)
    rw [hquery, inQuery_append]

theorem asksScope_of_tokenUrlFor {info : RegistryInfo} {repository url : Text}
    (h : info.tokenUrlFor repository = some url) : AsksScope repository url := by
  unfold RegistryInfo.tokenUrlFor at h
  split at h
  · exact asksScope_of_tokenUrlOf h
  · exact nomatch h

def negotiatedHeader (c : RegistryConfig) (image : ImageName) : Session (Option Text) := do
  let (_, auth) ← Resolver.negotiate c image
  return auth

theorem negotiatedHeader_eq (c : RegistryConfig) (image : ImageName) :
    negotiatedHeader c image = informed c image fun info => authorization info image.repository := by
  simp only [negotiatedHeader, Resolver.negotiate, informed, bind_assoc, pure_bind, bind_pure]

theorem resolve_eq (r : Resolver) (reference : ImageReference) (architecture : Text)
    (kinds : List Artifact) :
    Resolver.resolve r reference architecture kinds =
      informed r.config reference.image fun info =>
        authorization info reference.image.repository >>= fun auth =>
          Resolver.resolveWith r reference architecture kinds auth := by
  simp only [Resolver.resolve, Resolver.negotiate, informed, bind_assoc, pure_bind,
    Session.ofFetch_bind]

section Steady

variable {α : Type} {c : RegistryConfig} {answer : Call → Except CallError Reply}
  {image : ImageName} {cache : AuthCache} {k : RegistryInfo → Fetch α}

def Learnt (c : RegistryConfig) (answer : Call → Except CallError Reply) (cache : AuthCache) :
    Prop :=
  ∀ domain info, cache.get? domain = some info →
    ∃ repository, probed c domain repository (answer (probe c domain)) = .ok info

theorem learnt_nil (c : RegistryConfig) (answer : Call → Except CallError Reply) :
    Learnt c answer [] :=
  fun _ _ h => nomatch h

theorem Learnt.insert {repository domain : Text} {info : RegistryInfo} (h : Learnt c answer cache)
    (hinfo : probed c domain repository (answer (probe c domain)) = .ok info) :
    Learnt c answer (cache.insert info) := by
  obtain rfl : info.domain = domain := domain_of_probed hinfo
  intro d other hget
  by_cases hd : d = info.domain
  · subst hd
    rw [AuthCache.get?_insert_self, Option.some.injEq] at hget
    exact ⟨repository, hget ▸ hinfo⟩
  · rw [AuthCache.get?_insert_of_ne hd] at hget
    exact h d other hget

theorem Learnt.informed (h : Learnt c answer cache) (image : ImageName)
    (k : RegistryInfo → Fetch α) :
    Learnt c answer (((informed c image k).run.run cache).result (steady answer) ()).2 := by
  rw [run_informed]
  cases cache.get? image.registry with
  | some info => rwa [result_bind]
  | none =>
      dsimp only
      rw [result_ask]
      cases hp : probed c image.registry image.repository (answer (probe c image.registry)) with
      | error e => exact h
      | ok info =>
          dsimp only
          rw [result_bind]
          exact h.insert hp

theorem Learnt.ofFetch (h : Learnt c answer cache) (x : Fetch α) :
    Learnt c answer (((Session.ofFetch x).run.run cache).result (steady answer) ()).2 := by
  rwa [Session.run_ofFetch, result_bind]

def afterProbe (c : RegistryConfig) (answer : Call → Except CallError Reply) (image : ImageName)
    (k : RegistryInfo → Fetch α) : Except RegistryError α × List Call :=
  match probed c image.registry image.repository (answer (probe c image.registry)) with
  | .ok info => ((k info).run.result (steady answer) (), (k info).run.questions (steady answer) ())
  | .error e => (.error e, [])

theorem informed_of_learnt (h : Learnt c answer cache)
    (hk : ∀ info, k (info.scopedTo image.repository) = k info) :
    (((informed c image k).run.run cache).result (steady answer) ()).1 =
        (afterProbe c answer image k).1 ∧
      ((informed c image k).run.run cache).questions (steady answer) () =
        (if (cache.get? image.registry).isSome then [] else [probe c image.registry]) ++
          (afterProbe c answer image k).2 := by
  rw [run_informed]
  cases hget : cache.get? image.registry with
  | some info =>
      obtain ⟨repository, hprobed⟩ := h _ _ hget
      have hsame : probed c image.registry image.repository (answer (probe c image.registry)) =
          .ok (info.scopedTo image.repository) := by
        rw [probed_scopedTo c _ repository, hprobed]
        rfl
      simp only [afterProbe, hsame, hk, result_bind, questions_bind, result_done, questions_done,
        Option.isSome_some, if_true, List.append_nil, List.nil_append, and_self]
  | none =>
      dsimp only
      rw [result_ask, questions_ask]
      unfold afterProbe
      cases probed c image.registry image.repository (answer (probe c image.registry)) with
      | error e => exact ⟨rfl, rfl⟩
      | ok info =>
          simp [result_bind, questions_bind, result_done, questions_done]

theorem mem_afterProbe {p : Call → Prop}
    (hk : ∀ info, Holds (fun _ => p) (fun _ _ => True) [] (k info).run) :
    ∀ q ∈ (afterProbe c answer image k).2, p q := by
  unfold afterProbe
  split
  · next info _ => exact (hk info).asks.of_questions _ _
  · exact fun _ h => nomatch h

end Steady

def carried (network : Request → Answer) (q : Call) : Except CallError Reply :=
  (Http.perform q).result (steady network) ()

def traffic (network : Request → Answer) (calls : List Call) : List Request :=
  calls.flatMap fun q => (Http.perform q).questions (steady network) ()

def outcome {α : Type} (network : Request → Answer) (x : Session α) (known : AuthCache) :
    Except RegistryError α × AuthCache :=
  (onWire (x.run.run known)).result (steady network) ()

def requests {α : Type} (network : Request → Answer) (x : Session α) (known : AuthCache) :
    List Request :=
  (onWire (x.run.run known)).questions (steady network) ()

inductive EarlierCall where
  | detect (domain repository : Text)
  | registryInfo (domain repository : Text)
  | authorization (info : RegistryInfo) (repository : Text)
  | resolve (flavor : Text) (reference : ImageReference) (architecture : Text)
      (kinds : List Artifact)

def EarlierCall.after (c : RegistryConfig) (network : Request → Answer) (known : AuthCache) :
    EarlierCall → AuthCache
  | .detect domain repository =>
      (outcome network (Session.ofFetch (Registry.detect c domain repository)) known).2
  | .registryInfo domain repository =>
      (outcome network (Registry.registryInfo c domain repository) known).2
  | .authorization info repository =>
      (outcome network (Session.ofFetch (Registry.authorization info repository)) known).2
  | .resolve flavor reference architecture kinds =>
      (outcome network (Resolver.resolve ⟨c, flavor⟩ reference architecture kinds) known).2

def remembered (c : RegistryConfig) (network : Request → Answer) (earlier : List EarlierCall) :
    AuthCache :=
  earlier.foldl (EarlierCall.after c network) []

inductive FollowsProbe (c : RegistryConfig) (image : ImageName) : Call → Prop
  | token (url : Text) : AsksScope image.repository url → FollowsProbe c image (tokenCall url)
  | manifest (method : Method) (target : Text) (auth : Option Text) :
      FollowsProbe c image (Resolver.manifestCall method (manifestUrl c image target) auth)

structure SameButProbe {α : Type} (c : RegistryConfig) (network : Request → Answer)
    (image : ImageName) (known : AuthCache) (x : Session α) : Prop where
  outcome : (outcome network x known).1 = (outcome network x []).1
  requests : ∃ calls : List Call, (∀ q ∈ calls, FollowsProbe c image q) ∧
    requests network x [] = traffic network (probe c image.registry :: calls) ∧
    requests network x known = traffic network
      (if (known.get? image.registry).isSome then calls else probe c image.registry :: calls)

section Network

variable {α : Type} {c : RegistryConfig} {network : Request → Answer} {image : ImageName}
  {known : AuthCache} {k : RegistryInfo → Fetch α}

theorem outcome_eq (network : Request → Answer) (x : Session α) (known : AuthCache) :
    outcome network x known = (x.run.run known).result (steady (carried network)) () :=
  result_through _ _ _

theorem requests_eq (network : Request → Answer) (x : Session α) (known : AuthCache) :
    requests network x known =
      traffic network ((x.run.run known).questions (steady (carried network)) ()) :=
  questions_through _ _ _

theorem Learnt.after (h : Learnt c (carried network) known) (call : EarlierCall) :
    Learnt c (carried network) (call.after c network known) := by
  have hinfo (domain repository : Text) : registryInfo c domain repository =
      Registry.informed c ⟨domain, repository⟩ pure :=
    (bind_pure _).symm
  cases call with
  | detect domain repository =>
      simp only [EarlierCall.after, outcome_eq]
      exact h.ofFetch _
  | registryInfo domain repository =>
      simp only [EarlierCall.after, outcome_eq, hinfo]
      exact h.informed _ _
  | authorization info repository =>
      simp only [EarlierCall.after, outcome_eq]
      exact h.ofFetch _
  | resolve flavor reference architecture kinds =>
      simp only [EarlierCall.after, outcome_eq, resolve_eq]
      exact h.informed _ _

theorem learnt_remembered (c : RegistryConfig) (network : Request → Answer)
    (earlier : List EarlierCall) :
    Learnt c (carried network) (remembered c network earlier) := by
  have hrun (known : AuthCache) (h : Learnt c (carried network) known) :
      Learnt c (carried network) (earlier.foldl (EarlierCall.after c network) known) := by
    induction earlier generalizing known with
    | nil => exact h
    | cons call rest ih => exact ih _ (h.after call)
  exact hrun [] (learnt_nil c _)

theorem sameButProbe_informed (h : Learnt c (carried network) known)
    (hk : ∀ info, k (info.scopedTo image.repository) = k info)
    (hcalls : ∀ info, Holds (fun _ => FollowsProbe c image) (fun _ _ => True) [] (k info).run) :
    SameButProbe c network image known (informed c image k) := by
  obtain ⟨hwarm, hwarmCalls⟩ := informed_of_learnt h hk
  obtain ⟨hcold, hcoldCalls⟩ := informed_of_learnt (learnt_nil c (carried network)) hk
  refine ⟨by rw [outcome_eq, outcome_eq, hwarm, hcold],
    (afterProbe c (carried network) image k).2, mem_afterProbe hcalls, ?_, ?_⟩
  · rw [requests_eq, hcoldCalls]
    rfl
  · rw [requests_eq, hwarmCalls]
    split <;> rfl

theorem holds_authorization_followsProbe (c : RegistryConfig) (image : ImageName)
    (info : RegistryInfo) (log : CallLog) :
    Holds (fun _ => FollowsProbe c image) (fun _ _ => True) log
      (authorization info image.repository).run :=
  holds_authorization fun url hurl => .token url (asksScope_of_tokenUrlFor hurl)

end Network

theorem remembered_saves_probe_only (c : RegistryConfig) (network : Request → Answer)
    (earlier : List EarlierCall) :
    (∀ flavor reference architecture kinds,
      SameButProbe c network reference.image (remembered c network earlier)
        (Resolver.resolve ⟨c, flavor⟩ reference architecture kinds)) ∧
    ∀ image, SameButProbe c network image (remembered c network earlier)
      (negotiatedHeader c image) := by
  have hlearnt := learnt_remembered c network earlier
  constructor
  · intro flavor reference architecture kinds
    rw [resolve_eq]
    refine sameButProbe_informed hlearnt (fun info => ?_) fun info => ?_
    · rw [authorization_scopedTo]
    · exact Holds.then_except (holds_authorization_followsProbe c _ info [])
        fun log auth => Resolver.holds_manifestCalls (fun _ _ _ => .manifest _ _ _) _ _ log
  · intro image
    rw [negotiatedHeader_eq]
    exact sameButProbe_informed hlearnt (fun info => authorization_scopedTo _ _ info)
      fun info => holds_authorization_followsProbe c image info []

end Registry

end NetBoot
