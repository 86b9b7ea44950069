import NetBoot.Proofs.Registry.Calls
import NetBoot.Proofs.Success

namespace NetBoot.Resolver

open Http Registry
open Dialogue (Holds holds_bind_except)

structure Authentic (d : Descriptor) (data : Bytes) : Prop where
  size : d.size = data.length
  digest : Text.startsWith d.digest "sha256:".toList → Sha256.digestText data = d.digest

structure Brings (reply : Reply) (data : Bytes) : Prop where
  success : reply.isSuccess
  bytes : reply.bytes = .ok data

inductive Obtained (c : RegistryConfig) (image : ImageName) (reference : Text)
    (pinned : Option Digest) (auth : Option Text) : CallLog → Descriptor → Bytes → Prop
  | announced (head reply : Reply) (d : Descriptor) (data : Bytes) :
      head.isSuccess → headerDescriptor? head.headers = some d → Brings reply data →
        Obtained c image reference pinned auth
          [(manifestCall .head (manifestUrl c image reference) auth, .ok head),
            (manifestCall .get (manifestUrl c image d.digest) auth, .ok reply)] d data
  | derived (head reply : Reply) (data : Bytes) :
      head.status ≠ 404 → (head.isSuccess → headerDescriptor? head.headers = none) →
      Brings reply data →
        Obtained c image reference pinned auth
          [(manifestCall .head (manifestUrl c image reference) auth, .ok head),
            (manifestCall .get (manifestUrl c image reference) auth, .ok reply)]
          (derivedDescriptor pinned reply.headers data) data

structure Root (c : RegistryConfig) (reference : ImageReference) (auth : Option Text)
    (log : CallLog) (d : Descriptor) (data : Bytes) : Prop where
  obtained : Obtained c reference.image reference.manifestReference reference.digest auth log d data
  pinned : ∀ p, reference.digest = some p → d.digest = p.toText
  authentic : Authentic d data

inductive Leads (r : Resolver) (image : ImageName) (architecture : Text) (auth : Option Text)
    (root : Descriptor) (data : Bytes) : CallLog → Manifest → Prop
  | manifest (m : Manifest) : parseDocument root.mediaType data = .ok (.manifest m) →
      Leads r image architecture auth root data [] m
  | index (i : ImageIndex) (entry : Descriptor) (reply : Reply) (nested : Bytes) (m : Manifest) :
      parseDocument root.mediaType data = .ok (.index i) →
      selectEntry r architecture i = .ok entry →
      Brings reply nested → Authentic entry nested →
      parseDocument entry.mediaType nested = .ok (.manifest m) →
        Leads r image architecture auth root data
          [(manifestCall .get (manifestUrl r.config image entry.digest) auth, .ok reply)] m

def Verified (r : Resolver) (reference : ImageReference) (architecture : Text)
    (kinds : List Artifact) (auth : Option Text) (log : CallLog) (layers : Selection.Assignment) :
    Prop :=
  ∃ first rest root data m, log = first ++ rest ∧ Root r.config reference auth first root data ∧
    Leads r reference.image architecture auth root data rest m ∧
    selectLayers architecture m kinds = .ok layers

section Outcomes

variable {image : ImageName} {reference : Text} {pinned : Option Digest} {reply : Reply}
  {d : Descriptor} {data : Bytes}

theorem verify_eq_ok {u : Unit} : verify d data = .ok u ↔ Authentic d data := by
  unfold verify
  by_cases hsize : data.length ≠ d.size
  · rw [if_pos hsize]
    exact ⟨nofun, fun h => absurd h.size.symm hsize⟩
  · rw [if_neg hsize]
    have hsize : data.length = d.size := Decidable.not_not.1 hsize
    by_cases hdigest : Text.startsWith d.digest "sha256:".toList ∧ Sha256.digestText data ≠ d.digest
    · rw [if_pos hdigest]
      exact ⟨nofun, fun h => absurd (h.digest hdigest.1) hdigest.2⟩
    · rw [if_neg hdigest]
      refine ⟨fun _ => ⟨hsize.symm, fun hs => ?_⟩, fun _ => rfl⟩
      exact Decidable.not_not.1 fun hne => hdigest ⟨hs, hne⟩

theorem status_ne_of_isSuccess (h : reply.isSuccess) : reply.status ≠ 404 := by
  intro h404
  simp [Reply.isSuccess, h404] at h

theorem checkStatus_eq_ok {u : Unit} :
    checkStatus reply image reference = .ok u ↔ reply.isSuccess := by
  unfold checkStatus
  by_cases h : reply.isSuccess
  · simp [h]
  · rw [if_neg h]
    by_cases h404 : reply.status = 404
    · simp [h, h404]
    · simp [h, h404]

theorem contentOutcome_eq_ok : contentOutcome image d reply = .ok data ↔
    Brings reply data ∧ Authentic d data := by
  simp only [contentOutcome, bodyOf, Except.bind_eq_ok, Except.mapError_eq_ok, Except.pure_eq_ok,
    checkStatus_eq_ok, verify_eq_ok]
  constructor
  · rintro ⟨_, hs, received, hb, _, hv, rfl⟩
    exact ⟨⟨hs, hb⟩, hv⟩
  · rintro ⟨⟨hs, hb⟩, hv⟩
    exact ⟨(), hs, data, hb, (), hv, rfl⟩

theorem getOutcome_eq_ok : getOutcome image reference pinned reply = .ok (d, data) ↔
    Brings reply data ∧ d = derivedDescriptor pinned reply.headers data ∧ Authentic d data := by
  simp only [getOutcome, bodyOf, Except.bind_eq_ok, Except.mapError_eq_ok, Except.pure_eq_ok,
    checkStatus_eq_ok, verify_eq_ok, Prod.mk.injEq]
  constructor
  · rintro ⟨_, hs, received, hb, _, hv, rfl, rfl⟩
    exact ⟨⟨hs, hb⟩, rfl, hv⟩
  · rintro ⟨⟨hs, hb⟩, rfl, hv⟩
    exact ⟨(), hs, data, hb, (), hv, rfl, rfl⟩

theorem headOutcome_eq_some : headOutcome image reference pinned reply = .ok (some d) ↔
    reply.isSuccess ∧ headerDescriptor? reply.headers = some d ∧
      ∀ p, pinned = some p → d.digest = p.toText := by
  unfold headOutcome
  by_cases hs : reply.isSuccess
  · rw [if_neg (status_ne_of_isSuccess hs), if_pos hs]
    cases headerDescriptor? reply.headers with
    | none => simp
    | some found =>
        cases pinned with
        | none => simp [hs]
        | some p =>
            by_cases hp : found.digest = p.toText
            · simp only [hp, if_true, Except.ok.injEq, Option.some.injEq]
              exact ⟨fun h => ⟨hs, h, fun q hq => by rw [← h, ← hq]; exact hp⟩, fun h => h.2.1⟩
            · simp only [hp, if_false, Option.some.injEq]
              exact ⟨nofun, fun h => absurd (h.2.1 ▸ h.2.2 p rfl) hp⟩
  · rw [if_neg hs]
    split <;> simp [hs]

theorem headOutcome_eq_none : headOutcome image reference pinned reply = .ok none ↔
    reply.status ≠ 404 ∧ (reply.isSuccess → headerDescriptor? reply.headers = none) := by
  unfold headOutcome
  by_cases h404 : reply.status = 404
  · simp [h404]
  · rw [if_neg h404]
    by_cases hs : reply.isSuccess
    · rw [if_pos hs]
      cases headerDescriptor? reply.headers with
      | none => simp [h404]
      | some found =>
          cases pinned with
          | none => simp [hs]
          | some p =>
              dsimp only
              split <;> simp [hs]
    · simp [hs, h404]

end Outcomes

variable {r : Resolver} {c : RegistryConfig} {reference : ImageReference} {architecture : Text}
  {kinds : List Artifact} {auth : Option Text} {log first rest : CallLog} {root d : Descriptor}
  {data : Bytes} {m : Manifest} {layers : Selection.Assignment}

theorem Obtained.of_pair {image : ImageName} {reference : Text} {pinned : Option Digest}
    {q q' : Call} {head : Reply} {b : Except CallError Reply}
    (h : Obtained c image reference pinned auth [(q, .ok head), (q', b)] d data) :
    ∃ reply, b = .ok reply ∧ Brings reply data ∧
      (head.isSuccess ∧ headerDescriptor? head.headers = some d ∨
        head.status ≠ 404 ∧ (head.isSuccess → headerDescriptor? head.headers = none) ∧
          d = derivedDescriptor pinned reply.headers data) := by
  generalize hlog : [(q, Except.ok head), (q', b)] = log at h
  cases h with
  | announced head' reply _ _ hs hd hb =>
      simp only [List.cons.injEq, Prod.mk.injEq, Except.ok.injEq] at hlog
      obtain ⟨⟨-, rfl⟩, ⟨-, rfl⟩, -⟩ := hlog
      exact ⟨reply, rfl, hb, .inl ⟨hs, hd⟩⟩
  | derived head' reply _ hs hd hb =>
      simp only [List.cons.injEq, Prod.mk.injEq, Except.ok.injEq] at hlog
      obtain ⟨⟨-, rfl⟩, ⟨-, rfl⟩, -⟩ := hlog
      exact ⟨reply, rfl, hb, .inr ⟨hs, hd, rfl⟩⟩

theorem Root.length_eq_two (h : Root c reference auth log d data) : log.length = 2 := by
  cases h.obtained <;> rfl

theorem Root.exists_reply (h : Root c reference auth log d data) :
    ∃ q reply, (q, .ok reply) ∈ log ∧ q.method = .get ∧ Brings reply data := by
  cases h.obtained with
  | announced head reply _ _ _ _ hb => exact ⟨_, reply, .tail _ (.head _), rfl, hb⟩
  | derived head reply _ _ _ hb => exact ⟨_, reply, .tail _ (.head _), rfl, hb⟩

theorem pinned_derivedDescriptor {pinned : Option Digest} {hs : Headers} {p : Digest}
    (h : pinned = some p) : (derivedDescriptor pinned hs data).digest = p.toText := by
  subst h
  rfl

theorem holds_fetchRoot (c : RegistryConfig) (reference : ImageReference) (auth : Option Text) :
    Holds (fun _ _ => True)
      (fun log x => log.length ≤ 2 ∧ ∀ d data, x = .ok (d, data) ↔ Root c reference auth log d data)
      [] (fetchRoot c reference.image reference.manifestReference reference.digest auth).run := by
  rw [run_fetchRoot]
  refine ⟨trivial, fun a => ?_⟩
  dsimp only [List.nil_append]
  cases hhead : received (headOutcome reference.image reference.manifestReference reference.digest)
      a with
  | error e => exact ⟨Nat.le_succ 1, fun d data => ⟨nofun, fun h => nomatch h.length_eq_two⟩⟩
  | ok known =>
      obtain ⟨head, rfl, hhead⟩ := received_eq_ok.1 hhead
      cases known with
      | some d =>
          refine ⟨trivial, fun b => ⟨Nat.le_refl 2, fun d' data => ?_⟩⟩
          have hsome := headOutcome_eq_some.1 hhead
          rw [Except.map_eq_ok]
          constructor
          · rintro ⟨found, hfound, heq⟩
            cases heq
            obtain ⟨reply, rfl, hreply⟩ := received_eq_ok.1 hfound
            have hcontent := contentOutcome_eq_ok.1 hreply
            exact ⟨.announced head reply d data hsome.1 hsome.2.1 hcontent.1, hsome.2.2, hcontent.2⟩
          · rintro ⟨hobtained, -, hauthentic⟩
            obtain ⟨reply, rfl, hb, ⟨-, hd⟩ | ⟨-, hd, -⟩⟩ := hobtained.of_pair
            · rw [hsome.2.1] at hd
              cases hd
              have hcontent : contentOutcome reference.image d reply = .ok data :=
                contentOutcome_eq_ok.2 ⟨hb, hauthentic⟩
              exact ⟨data, received_eq_ok.2 ⟨reply, rfl, hcontent⟩, rfl⟩
            · rw [hd hsome.1] at hsome
              exact nomatch hsome.2.1
      | none =>
          refine ⟨trivial, fun b => ⟨Nat.le_refl 2, fun d' data => ?_⟩⟩
          have hnone := headOutcome_eq_none.1 hhead
          rw [received_eq_ok]
          constructor
          · rintro ⟨reply, rfl, hreply⟩
            obtain ⟨hb, rfl, hauthentic⟩ := getOutcome_eq_ok.1 hreply
            exact ⟨.derived head reply data hnone.1 hnone.2 hb,
              fun p hp => pinned_derivedDescriptor hp, hauthentic⟩
          · rintro ⟨hobtained, -, hauthentic⟩
            obtain ⟨reply, rfl, hb, ⟨hs, hd⟩ | ⟨-, -, rfl⟩⟩ := hobtained.of_pair
            · rw [hnone.2 hs] at hd
              exact nomatch hd
            · exact ⟨reply, rfl, getOutcome_eq_ok.2 ⟨hb, rfl, hauthentic⟩⟩

theorem leads_nil_iff {image : ImageName} :
    Leads r image architecture auth root data [] m ↔
      parseDocument root.mediaType data = .ok (.manifest m) := by
  refine ⟨fun h => ?_, .manifest m⟩
  cases h with
  | manifest _ h => exact h

theorem leads_singleton_iff {image : ImageName} {i : ImageIndex} {entry : Descriptor}
    {a : Except CallError Reply} (hi : parseDocument root.mediaType data = .ok (.index i))
    (he : selectEntry r architecture i = .ok entry) :
    Leads r image architecture auth root data
        [(manifestCall .get (manifestUrl r.config image entry.digest) auth, a)] m ↔
      ∃ nested, received (contentOutcome image entry) a = .ok nested ∧
        parseDocument entry.mediaType nested = .ok (.manifest m) := by
  constructor
  · intro h
    generalize hlog : [(manifestCall .get (manifestUrl r.config image entry.digest) auth, a)] = log
      at h
    cases h with
    | manifest _ h => exact nomatch hlog
    | index i' entry' reply nested _ hi' he' hb hauthentic hm =>
        simp only [List.cons.injEq, Prod.mk.injEq] at hlog
        obtain ⟨⟨-, rfl⟩, -⟩ := hlog
        rw [hi] at hi'
        cases hi'
        rw [he] at he'
        cases he'
        exact ⟨nested, received_eq_ok.2 ⟨reply, rfl, contentOutcome_eq_ok.2 ⟨hb, hauthentic⟩⟩, hm⟩
  · rintro ⟨nested, hnested, hm⟩
    obtain ⟨reply, rfl, hreply⟩ := received_eq_ok.1 hnested
    have hcontent := contentOutcome_eq_ok.1 hreply
    exact .index i entry reply nested m hi he hcontent.1 hcontent.2 hm

theorem bind_onlyManifest_eq_ok {mt : MediaType} {x : Except RegistryError Document} :
    x.bind (onlyManifest mt) = .ok m ↔ x = .ok (.manifest m) := by
  refine Except.bind_eq_ok.trans ⟨fun ⟨document, hx, hm⟩ => ?_, fun hx => ⟨_, hx, rfl⟩⟩
  cases document with
  | manifest found =>
      cases hm
      exact hx
  | index i => exact nomatch hm

theorem holds_fetchManifest (r : Resolver) (image : ImageName) (architecture : Text)
    (auth : Option Text) (root : Descriptor) (data : Bytes) (log : CallLog) :
    Holds (fun _ _ => True)
      (fun log' x => ∃ rest, log' = log ++ rest ∧
        ∀ m, x = .ok m ↔ Leads r image architecture auth root data rest m)
      log (fetchManifest r image architecture auth (root, data)).run := by
  rw [run_fetchManifest]
  cases hdoc : parseDocument root.mediaType data with
  | error e =>
      refine ⟨[], (List.append_nil log).symm, fun m => ?_⟩
      rw [leads_nil_iff, hdoc]
      exact ⟨nofun, nofun⟩
  | ok document =>
      cases document with
      | manifest found =>
          refine ⟨[], (List.append_nil log).symm, fun m => ?_⟩
          rw [leads_nil_iff, hdoc]
          exact ⟨fun h => by cases h; rfl, fun h => by cases h; rfl⟩
      | index i =>
          dsimp only
          cases hentry : selectEntry r architecture i with
          | error e =>
              refine ⟨[], (List.append_nil log).symm, fun m => ?_⟩
              rw [leads_nil_iff, hdoc]
              exact ⟨nofun, nofun⟩
          | ok entry =>
              refine ⟨trivial, fun a => ⟨_, rfl, fun m => ?_⟩⟩
              rw [leads_singleton_iff hdoc hentry]
              refine Except.bind_eq_ok.trans (exists_congr fun nested => and_congr_right fun _ => ?_)
              exact bind_onlyManifest_eq_ok

theorem not_verified_of_short (h : log.length ≤ 2)
    (hroot : ∀ d data, ¬ Root r.config reference auth log d data) :
    ¬ Verified r reference architecture kinds auth log layers := by
  rintro ⟨first, rest, root, data, m, rfl, hfirst, -, -⟩
  have hlength := hfirst.length_eq_two
  have hrest : rest = [] := by
    rw [List.length_append, hlength] at h
    exact List.length_eq_zero_iff.1 (by omega)
  subst hrest
  rw [List.append_nil] at hroot
  exact hroot root data hfirst

theorem verified_append_iff
    (hroot : ∀ d' data', Root r.config reference auth first d' data' ↔ (d, data) = (d', data'))
    (hlength : first.length = 2) :
    Verified r reference architecture kinds auth (first ++ rest) layers ↔
      ∃ m, Leads r reference.image architecture auth d data rest m ∧
        selectLayers architecture m kinds = .ok layers := by
  constructor
  · rintro ⟨first', rest', root, data', m, heq, hfirst, hleads, hselect⟩
    obtain ⟨rfl, rfl⟩ := List.append_inj heq (hlength.trans hfirst.length_eq_two.symm)
    cases (hroot root data').1 hfirst
    exact ⟨m, hleads, hselect⟩
  · rintro ⟨m, hleads, hselect⟩
    exact ⟨first, rest, d, data, m, rfl, (hroot d data).2 rfl, hleads, hselect⟩

theorem holds_resolveWith (r : Resolver) (reference : ImageReference) (architecture : Text)
    (kinds : List Artifact) (auth : Option Text) :
    Holds (fun _ _ => True)
      (fun log x => ∀ layers, x = .ok layers ↔
        Verified r reference architecture kinds auth log layers)
      [] (resolveWith r reference architecture kinds auth).run := by
  unfold resolveWith
  refine holds_bind_except.2 ((holds_fetchRoot r.config reference auth).mono fun log x hx => ?_)
  obtain ⟨hshort, hroot⟩ := hx
  cases x with
  | error e =>
      intro layers
      have hnone : ∀ d data, ¬ Root r.config reference auth log d data :=
        fun d data h => nomatch (hroot d data).2 h
      exact ⟨nofun, fun h => absurd h (not_verified_of_short hshort hnone)⟩
  | ok p =>
      obtain ⟨root, data⟩ := p
      have hunique (d : Descriptor) (data' : Bytes) :
          Root r.config reference auth log d data' ↔ (root, data) = (d, data') := by
        rw [← hroot d data', Except.ok.injEq]
      have hlength : log.length = 2 := ((hunique root data).2 rfl).length_eq_two
      refine holds_bind_except.2
        ((holds_fetchManifest r reference.image architecture auth root data log).mono
          fun log' x hx => ?_)
      obtain ⟨rest, rfl, hmanifest⟩ := hx
      cases x with
      | error e =>
          intro layers
          rw [verified_append_iff hunique hlength]
          exact ⟨nofun, fun ⟨m, h, _⟩ => nomatch (hmanifest m).2 h⟩
      | ok m =>
          intro layers
          rw [verified_append_iff hunique hlength]
          constructor
          · intro h
            exact ⟨m, (hmanifest m).1 rfl, h⟩
          · rintro ⟨m', h, hselect⟩
            cases (hmanifest m').2 h
            exact hselect

theorem resolveWith_eq_ok_iff_verified (r : Resolver) (reference : ImageReference)
    (architecture : Text) (kinds : List Artifact) (auth : Option Text) {σ : Type}
    (network : Dialogue.Answerer Call (Except CallError Reply) σ) (start : σ) :
    let outcome := (resolveWith r reference architecture kinds auth).run.run network start
    (∀ layers, outcome.result = .ok layers ↔
        Verified r reference architecture kinds auth outcome.log layers) ∧
      ((∀ layers, ¬ Verified r reference architecture kinds auth outcome.log layers) →
        ∃ e, outcome.result = .error e) := by
  intro outcome
  have hiff : ∀ layers, outcome.result = .ok layers ↔
      Verified r reference architecture kinds auth outcome.log layers :=
    (holds_resolveWith r reference architecture kinds auth).run network start
  refine ⟨hiff, fun hnone => ?_⟩
  cases hresult : outcome.result with
  | error e => exact ⟨e, rfl⟩
  | ok layers => exact absurd ((hiff layers).1 hresult) (hnone layers)

end NetBoot.Resolver
