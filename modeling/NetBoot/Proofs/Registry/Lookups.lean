import Mathlib.Data.Finset.Card
import Mathlib.Logic.Relation
import NetBoot.Proofs.Dialogue.Runs
import NetBoot.Proofs.Registry.Remembering
import NetBoot.Proofs.Text.Keys

namespace NetBoot.Registry

open Http
open Dialogue (Trace trace_done trace_ask_done)

inductive Stage where
  | arrived
  | missed
  | detected (info : RegistryInfo)
  | finished (result : Except RegistryError RegistryInfo)
  deriving DecidableEq

structure Lookup where
  domain : Text
  repository : Text
  stage : Stage
  deriving DecidableEq

namespace Lookup

def afterLook : Option RegistryInfo → Stage
  | some info => .finished (.ok info)
  | none => .missed

def afterProbe : Except RegistryError RegistryInfo → Stage
  | .ok info => .detected info
  | .error e => .finished (.error e)

def advance (c : RegistryConfig) (l : Lookup) (cache : AuthCache) : Calls (Lookup × AuthCache) :=
  match l.stage with
  | .arrived => .done ({ l with stage := afterLook (cache.get? l.domain) }, cache)
  | .missed =>
      (detect c l.domain l.repository).run.bind fun outcome =>
        .done ({ l with stage := afterProbe outcome }, cache)
  | .detected info => .done ({ l with stage := .finished (.ok info) }, cache.insert info)
  | .finished _ => .done (l, cache)

def alone (c : RegistryConfig) (domain repository : Text) (cache : AuthCache) :
    Calls (Lookup × AuthCache) :=
  (advance c ⟨domain, repository, .arrived⟩ cache).bind fun looked =>
    (advance c looked.1 looked.2).bind fun probed => advance c probed.1 probed.2

theorem alone_eq (c : RegistryConfig) (domain repository : Text) (cache : AuthCache) :
    alone c domain repository cache =
      ((registryInfo c domain repository).run.run cache).bind fun p =>
        .done (⟨domain, repository, .finished p.1⟩, p.2) := by
  rw [run_registryInfo]
  unfold alone
  cases hget : cache.get? domain with
  | some info => simp only [advance, hget, afterLook, Dialogue.bind]
  | none =>
      simp only [advance, hget, afterLook, Dialogue.bind, run_detect]
      refine congrArg (Dialogue.ask (probe c domain)) (funext fun a => ?_)
      cases probed c domain repository a <;> rfl

def insertion (l : Lookup) : List Text :=
  match l.stage with
  | .detected info => [info.domain]
  | _ => []

end Lookup

structure Client where
  cache : AuthCache
  lookups : List Lookup
  log : CallLog
  inserted : List Text

namespace Client

def start : Client := ⟨[], [], [], []⟩

def arrived (domain repository : Text) (s : Client) : Client :=
  { s with lookups := s.lookups ++ [⟨domain, repository, .arrived⟩] }

def moved (i : Nat) (l : Lookup) (s : Client) : Client := { s with lookups := s.lookups.set i l }

inductive Step (c : RegistryConfig) : Client → Client → Prop
  | arrive (s : Client) (domain repository : Text) : Step c s (s.arrived domain repository)
  | advance (s : Client) (i : Nat) (l l' : Lookup) (cache : AuthCache) (log : CallLog) :
      s.lookups[i]? = some l → Trace (l.advance c s.cache) log (l', cache) →
      Step c s
        ⟨cache, s.lookups.set i l', s.log ++ log, s.inserted ++ l.insertion⟩

abbrev Steps (c : RegistryConfig) : Client → Client → Prop := Relation.ReflTransGen (Step c)

variable {c : RegistryConfig} {s t : Client} {domain : Text} {info : RegistryInfo}

inductive Effect (c : RegistryConfig) (s : Client) : Client → Prop
  | arrive (domain repository : Text) : Effect c s (s.arrived domain repository)
  | look (i : Nat) (l : Lookup) : s.lookups[i]? = some l → l.stage = .arrived →
      Effect c s (s.moved i { l with stage := Lookup.afterLook (s.cache.get? l.domain) })
  | probe (i : Nat) (l : Lookup) (a : Except CallError Reply) : s.lookups[i]? = some l →
      l.stage = .missed →
      Effect c s
        { s.moved i { l with stage := Lookup.afterProbe (probed c l.domain l.repository a) } with
          log := s.log ++ [(probe c l.domain, a)] }
  | insert (i : Nat) (l : Lookup) (info : RegistryInfo) : s.lookups[i]? = some l →
      l.stage = .detected info →
      Effect c s
        { s.moved i { l with stage := .finished (.ok info) } with
          cache := s.cache.insert info
          inserted := s.inserted ++ [info.domain] }
  | rest : Effect c s s

theorem Step.effect (h : Step c s t) : Effect c s t := by
  cases h with
  | arrive domain repository => exact .arrive domain repository
  | advance i l l' cache log hl htrace =>
      unfold Lookup.advance at htrace
      unfold Lookup.insertion
      cases hstage : l.stage with
      | arrived =>
          simp only [hstage] at htrace ⊢
          obtain ⟨rfl, heq⟩ := trace_done.1 htrace
          cases heq
          simpa [moved] using Effect.look i l hl hstage
      | missed =>
          simp only [hstage, run_detect, Dialogue.bind] at htrace ⊢
          obtain ⟨a, rfl, heq⟩ := trace_ask_done.1 htrace
          cases heq
          simpa [moved] using Effect.probe i l a hl hstage
      | detected info =>
          simp only [hstage] at htrace ⊢
          obtain ⟨rfl, heq⟩ := trace_done.1 htrace
          cases heq
          simpa [moved] using Effect.insert i l info hl hstage
      | finished result =>
          simp only [hstage] at htrace ⊢
          obtain ⟨rfl, heq⟩ := trace_done.1 htrace
          cases heq
          have hset : s.lookups.set i l = s.lookups := by
            obtain ⟨hi, rfl⟩ := List.getElem?_eq_some_iff.1 hl
            exact List.set_getElem_self hi
          simpa [hset] using Effect.rest

def Told (c : RegistryConfig) (log : CallLog) (domain : Text) (info : RegistryInfo) : Prop :=
  ∃ repository a, (probe c domain, a) ∈ log ∧ probed c domain repository a = .ok info

theorem Told.domain_eq {log : CallLog} (h : Told c log domain info) : info.domain = domain := by
  obtain ⟨repository, a, -, hinfo⟩ := h
  exact domain_of_probed hinfo

theorem Told.append {log : CallLog} (h : Told c log domain info) (more : CallLog) :
    Told c (log ++ more) domain info := by
  obtain ⟨repository, a, hmem, hinfo⟩ := h
  exact ⟨repository, a, List.mem_append_left more hmem, hinfo⟩

def Justified (c : RegistryConfig) (log : CallLog) (l : Lookup) : Prop :=
  match l.stage with
  | .detected info | .finished (.ok info) => Told c log l.domain info
  | _ => True

theorem Justified.append {log : CallLog} {l : Lookup} (h : Justified c log l) (more : CallLog) :
    Justified c (log ++ more) l := by
  unfold Justified at h ⊢
  split at h
  · exact h.append more
  · exact h.append more
  · trivial

structure Sound (c : RegistryConfig) (s : Client) : Prop where
  entries : ∀ domain info, (domain, info) ∈ s.cache → Told c s.log domain info
  nodup : (s.cache.map Prod.fst).Nodup
  inserted : ∀ domain, domain ∈ s.cache.map Prod.fst ↔ domain ∈ s.inserted
  lookups : ∀ l ∈ s.lookups, Justified c s.log l

theorem sound_start : Sound c start := ⟨nofun, List.nodup_nil, fun _ => Iff.rfl, nofun⟩

theorem mem_keys_insert {cache : AuthCache} :
    domain ∈ (cache.insert info).map Prod.fst ↔
      domain = info.domain ∨ domain ∈ cache.map Prod.fst := by
  rw [AuthCache.insert, List.map_cons, List.mem_cons, Text.mem_keys_filter]
  by_cases hdomain : domain = info.domain
  · simp [hdomain]
  · simp [hdomain]

theorem nodup_insert {cache : AuthCache} (h : (cache.map Prod.fst).Nodup) :
    ((cache.insert info).map Prod.fst).Nodup := by
  rw [AuthCache.insert, List.map_cons, List.nodup_cons]
  exact ⟨fun hmem => (Text.mem_keys_filter.1 hmem).2 rfl, Text.nodup_keys_filter h _⟩

theorem Sound.moved {i : Nat} {l : Lookup} (h : Sound c s) (hl : Justified c s.log l) :
    Sound c (s.moved i l) where
  entries := h.entries
  nodup := h.nodup
  inserted := h.inserted
  lookups l' hl' := by
    rcases List.mem_or_eq_of_mem_set hl' with hl' | rfl
    · exact h.lookups l' hl'
    · exact hl

theorem Sound.append (h : Sound c s) (more : CallLog) :
    Sound c { s with log := s.log ++ more } where
  entries domain info hmem := (h.entries domain info hmem).append more
  nodup := h.nodup
  inserted := h.inserted
  lookups l hl := (h.lookups l hl).append more

theorem Sound.insert (h : Sound c s) (hinfo : Told c s.log info.domain info) :
    Sound c { s with cache := s.cache.insert info, inserted := s.inserted ++ [info.domain] } where
  entries domain other hmem := by
    rcases List.mem_cons.1 hmem with heq | hmem
    · cases heq
      exact hinfo
    · exact h.entries domain other (List.mem_filter.1 hmem).1
  nodup := nodup_insert h.nodup
  inserted domain := by
    rw [mem_keys_insert, h.inserted domain, List.mem_append, List.mem_singleton, or_comm]
  lookups := h.lookups

theorem Sound.told_of_detected (h : Sound c s) {i : Nat} {l : Lookup}
    (hl : s.lookups[i]? = some l) (hstage : l.stage = .detected info) :
    Told c s.log l.domain info := by
  have hjustified := h.lookups l (List.mem_of_getElem? hl)
  simpa only [Justified, hstage] using hjustified

theorem Sound.step (h : Sound c s) (hst : Step c s t) : Sound c t := by
  cases hst.effect with
  | arrive domain repository =>
      refine ⟨h.entries, h.nodup, h.inserted, fun l hl => ?_⟩
      rcases List.mem_append.1 hl with hl | hl
      · exact h.lookups l hl
      · obtain rfl := List.mem_singleton.1 hl
        trivial
  | look i l hl hstage =>
      apply h.moved
      cases hget : s.cache.get? l.domain with
      | none => trivial
      | some info => exact h.entries l.domain info (Text.mem_of_lookup hget)
  | probe i l a hl hstage =>
      refine Sound.moved (h.append [(probe c l.domain, a)]) ?_
      cases hp : probed c l.domain l.repository a with
      | error e => trivial
      | ok info => exact ⟨l.repository, a, List.mem_append_right _ (.head _), hp⟩
  | insert i l info hl hstage =>
      have htold := h.told_of_detected hl hstage
      have hown : Told c s.log info.domain info := htold.domain_eq.symm ▸ htold
      exact Sound.moved (h.insert hown) htold
  | rest => exact h

theorem Sound.steps (h : Sound c s) (hst : Steps c s t) : Sound c t := by
  induction hst with
  | refl => exact h
  | tail _ hstep ih => exact ih.step hstep

theorem lookup_moved {i j : Nat} {l l' : Lookup} (h : (s.moved i l').lookups[j]? = some l) :
    s.lookups[j]? = some l ∨ l = l' := by
  simp only [moved, List.getElem?_set] at h
  split at h
  · split at h
    · exact .inr (Option.some.inj h).symm
    · exact nomatch h
  · exact .inl h

structure Orderly (c : RegistryConfig) (s t : Client) : Prop where
  kept : ∀ domain ∈ s.cache.map Prod.fst, domain ∈ t.cache.map Prod.fst
  changed : t.cache = s.cache ∨ t.log = s.log ∧ ∃ l ∈ s.lookups, ∃ info,
    l.stage = .detected info ∧ Told c s.log l.domain info ∧ t.cache = s.cache.insert info
  failed : ∀ (i : Nat) (l l' : Lookup) (e : RegistryError), s.lookups[i]? = some l →
    l.stage = .missed → t.lookups[i]? = some l' → l'.stage = .finished (.error e) →
      t.cache = s.cache
  final : ∀ (i : Nat) (l : Lookup) (result : Except RegistryError RegistryInfo),
    s.lookups[i]? = some l → l.stage = .finished result → t.lookups[i]? = some l

theorem lookup_moved_of_stage {i j : Nat} {l l' moving : Lookup} (hl : s.lookups[i]? = some l)
    (hmoving : s.lookups[j]? = some moving) (hne : l.stage ≠ moving.stage) :
    (s.moved j l').lookups[i]? = some l := by
  have hij : j ≠ i := by
    rintro rfl
    exact hne (congrArg Lookup.stage (Option.some.inj (hl.symm.trans hmoving)))
  rw [moved, List.getElem?_set_ne hij, hl]

theorem Step.orderly (h : Sound c s) (hst : Step c s t) : Orderly c s t := by
  cases hst.effect with
  | arrive domain repository =>
      refine ⟨fun _ hmem => hmem, .inl rfl, fun _ _ _ _ _ _ _ _ => rfl, ?_⟩
      intro i l result hl _
      have hlength : i < s.lookups.length := (List.getElem?_eq_some_iff.1 hl).1
      exact (List.getElem?_append_left hlength).trans hl
  | look j moving hmoving hstage =>
      refine ⟨fun _ hmem => hmem, .inl rfl, fun _ _ _ _ _ _ _ _ => rfl, ?_⟩
      intro i l result hl hfinished
      exact lookup_moved_of_stage hl hmoving (by simp [hstage, hfinished])
  | probe j moving a hmoving hstage =>
      refine ⟨fun _ hmem => hmem, .inl rfl, fun _ _ _ _ _ _ _ _ => rfl, ?_⟩
      intro i l result hl hfinished
      exact lookup_moved_of_stage hl hmoving (by simp [hstage, hfinished])
  | insert j moving info hmoving hstage =>
      have htold := h.told_of_detected hmoving hstage
      refine ⟨fun _ hmem => mem_keys_insert.2 (.inr hmem), ?_, ?_, ?_⟩
      · exact .inr ⟨rfl, moving, List.mem_of_getElem? hmoving, info, hstage, htold, rfl⟩
      · intro i l l' e hl hmissed hl' hfailed
        have hsame : (s.moved j { moving with stage := .finished (.ok info) }).lookups[i]? =
            some l := lookup_moved_of_stage hl hmoving (by simp [hstage, hmissed])
        have heq : l' = l := Option.some.inj (hl'.symm.trans hsame)
        rw [heq, hmissed] at hfailed
        exact nomatch hfailed
      · intro i l result hl hfinished
        exact lookup_moved_of_stage hl hmoving (by simp [hstage, hfinished])
  | rest => exact ⟨fun _ hmem => hmem, .inl rfl, fun _ _ _ _ _ _ _ _ => rfl, fun _ _ _ hl _ => hl⟩

theorem Steps.keys_subset (h : Sound c s) (hst : Steps c s t) :
    ∀ domain ∈ s.cache.map Prod.fst, domain ∈ t.cache.map Prod.fst := by
  intro domain hmem
  induction hst with
  | refl => exact hmem
  | tail hsteps hstep ih => exact (hstep.orderly (h.steps hsteps)).kept domain ih

/-- The domain has its entry, and no call that has missed it is still to insert another one. -/
structure Settled (s : Client) (domain : Text) (info : RegistryInfo) : Prop where
  entry : s.cache.get? domain = some info
  idle : ∀ l ∈ s.lookups, l.domain = domain →
    l.stage = .arrived ∨ ∃ result, l.stage = .finished result

theorem probe_injective {first second : Text} (h : probe c first = probe c second) :
    first = second := by
  have hurl : c.schemeFor first ++ "://".toList ++ first ++ "/v2/".toList =
      c.schemeFor second ++ "://".toList ++ second ++ "/v2/".toList := congrArg Call.url h
  have hbase := List.append_cancel_right hurl
  unfold RegistryConfig.schemeFor at hbase
  split at hbase
  · split at hbase
    · exact List.append_cancel_left hbase
    · simp at hbase
  · split at hbase
    · simp at hbase
    · exact List.append_cancel_left hbase

theorem lookup_arrived {repository : Text} {i : Nat} {l : Lookup}
    (h : (s.arrived domain repository).lookups[i]? = some l) :
    s.lookups[i]? = some l ∨ l = ⟨domain, repository, .arrived⟩ := by
  simp only [arrived, List.getElem?_append] at h
  split at h
  · exact .inl h
  · exact .inr (List.mem_singleton.1 (List.mem_of_getElem? h))

structure Quiet (c : RegistryConfig) (domain : Text) (info : RegistryInfo) (s t : Client) :
    Prop where
  settled : Settled t domain info
  unprobed : ∃ later, t.log = s.log ++ later ∧ ∀ e ∈ later, e.1 ≠ probe c domain
  served : ∀ (i : Nat) (l : Lookup), t.lookups[i]? = some l → l.domain = domain →
    s.lookups[i]? = some l ∨ l.stage = .arrived ∨ l.stage = .finished (.ok info)

theorem Settled.quiet_refl (hs : Settled s domain info) : Quiet c domain info s s where
  settled := hs
  unprobed := ⟨[], (List.append_nil _).symm, fun _ he => nomatch he⟩
  served _ _ hl _ := .inl hl

theorem Settled.ne_of_stage (hs : Settled s domain info) {i : Nat} {l : Lookup}
    (hl : s.lookups[i]? = some l) (harrived : l.stage ≠ .arrived)
    (hfinished : ∀ result, l.stage ≠ .finished result) : l.domain ≠ domain := by
  intro hdomain
  rcases hs.idle l (List.mem_of_getElem? hl) hdomain with hstage | ⟨result, hstage⟩
  · exact harrived hstage
  · exact hfinished result hstage

theorem Settled.quiet_moved (hs : Settled s domain info) {i : Nat} {l : Lookup}
    (hl : l.domain = domain → l.stage = .finished (.ok info)) :
    Quiet c domain info s (s.moved i l) where
  settled :=
    { entry := hs.entry
      idle := by
        intro l' hl' hdomain
        rcases List.mem_or_eq_of_mem_set hl' with hl' | rfl
        · exact hs.idle l' hl' hdomain
        · exact .inr ⟨_, hl hdomain⟩ }
  unprobed := ⟨[], (List.append_nil _).symm, fun _ he => nomatch he⟩
  served j l' hl' hdomain := by
    rcases lookup_moved hl' with hl' | rfl
    · exact .inl hl'
    · exact .inr (.inr (hl hdomain))

theorem Settled.quiet_step (h : Sound c s) (hs : Settled s domain info) (hst : Step c s t) :
    Quiet c domain info s t := by
  cases hst.effect with
  | arrive d repository =>
      refine ⟨⟨hs.entry, ?_⟩, ⟨[], (List.append_nil _).symm, fun _ he => nomatch he⟩, ?_⟩
      · intro l hl hdomain
        rcases List.mem_append.1 hl with hl | hl
        · exact hs.idle l hl hdomain
        · obtain rfl := List.mem_singleton.1 hl
          exact .inl rfl
      · intro i l hl _
        rcases lookup_arrived hl with hl | rfl
        · exact .inl hl
        · exact .inr (.inl rfl)
  | look i l hl hstage =>
      apply hs.quiet_moved
      intro hdomain
      rw [show l.domain = domain from hdomain, hs.entry]
      rfl
  | probe i l a hl hstage =>
      have hne : l.domain ≠ domain := hs.ne_of_stage hl (by simp [hstage]) (by simp [hstage])
      obtain ⟨⟨hentry, hidle⟩, -, hserved⟩ := hs.quiet_moved (c := c) (i := i)
        (l := { l with stage := Lookup.afterProbe (probed c l.domain l.repository a) })
        fun hdomain => absurd hdomain hne
      refine ⟨⟨hentry, hidle⟩, ⟨_, rfl, ?_⟩, hserved⟩
      intro e he
      obtain rfl := List.mem_singleton.1 he
      exact fun hprobe => hne (probe_injective hprobe)
  | insert i l other hl hstage =>
      have hne : l.domain ≠ domain := hs.ne_of_stage hl (by simp [hstage]) (by simp [hstage])
      have hdomain := (h.told_of_detected hl hstage).domain_eq
      obtain ⟨⟨hentry, hidle⟩, hunprobed, hserved⟩ := hs.quiet_moved (c := c) (i := i)
        (l := { l with stage := .finished (.ok other) }) fun hdomain => absurd hdomain hne
      refine ⟨⟨?_, hidle⟩, hunprobed, hserved⟩
      change (s.cache.insert other).get? domain = some info
      rw [AuthCache.get?_insert_of_ne (fun heq => hne (hdomain.symm.trans heq.symm))]
      exact hs.entry
  | rest => exact hs.quiet_refl

theorem Settled.quiet (h : Sound c s) (hs : Settled s domain info) (hst : Steps c s t) :
    Quiet c domain info s t := by
  induction hst with
  | refl => exact hs.quiet_refl
  | tail hsteps hstep ih =>
      have hquiet := ih.settled.quiet_step (h.steps hsteps) hstep
      obtain ⟨earlier, hearlier, hold⟩ := ih.unprobed
      obtain ⟨later, hlater, hnew⟩ := hquiet.unprobed
      refine ⟨hquiet.settled, ⟨earlier ++ later, ?_, ?_⟩, ?_⟩
      · rw [hlater, hearlier, List.append_assoc]
      · intro e he
        rcases List.mem_append.1 he with he | he
        · exact hold e he
        · exact hnew e he
      · intro i l hl hdomain
        rcases hquiet.served i l hl hdomain with hl | hstage
        · exact ih.served i l hl hdomain
        · exact .inr hstage

structure Coherent (c : RegistryConfig) (s : Client) : Prop where
  entries : ∀ domain info, (domain, info) ∈ s.cache →
    info.domain = domain ∧ Told c s.log domain info
  count : s.cache.length = s.inserted.toFinset.card
  results : ∀ l ∈ s.lookups, ∀ info, l.stage = .finished (.ok info) →
    info.domain = l.domain ∧ Told c s.log l.domain info

theorem Sound.coherent (h : Sound c s) : Coherent c s where
  entries domain info hmem :=
    have htold := h.entries domain info hmem
    ⟨htold.domain_eq, htold⟩
  count := by
    have hsame : s.inserted.toFinset = (s.cache.map Prod.fst).toFinset := by
      ext domain
      rw [List.mem_toFinset, List.mem_toFinset, h.inserted domain]
    rw [hsame, List.toFinset_card_of_nodup h.nodup, List.length_map]
  results l hl info hstage := by
    have htold := h.lookups l hl
    simp only [Justified, hstage] at htold
    exact ⟨htold.domain_eq, htold⟩

theorem Settled.advance (hs : Settled s domain info) (c : RegistryConfig) {l : Lookup}
    (hdomain : l.domain = domain) (hstage : l.stage = .arrived) :
    l.advance c s.cache = .done ({ l with stage := .finished (.ok info) }, s.cache) := by
  rw [Lookup.advance, hstage, hdomain]
  simp only [hs.entry, Lookup.afterLook]

theorem lookups_share_cache (c : RegistryConfig) :
    (∀ domain repository cache, Lookup.alone c domain repository cache =
      ((registryInfo c domain repository).run.run cache).bind fun p =>
        .done (⟨domain, repository, .finished p.1⟩, p.2)) ∧
    ∀ s, Steps c start s → Coherent c s ∧ (∀ t, Step c s t → Orderly c s t) ∧
      ∀ t, Steps c s t →
        (∀ domain ∈ s.cache.map Prod.fst, domain ∈ t.cache.map Prod.fst) ∧
        ∀ domain info, Settled s domain info → Quiet c domain info s t ∧
          ∀ l : Lookup, l.domain = domain → l.stage = .arrived →
            l.advance c t.cache = .done ({ l with stage := .finished (.ok info) }, t.cache) := by
  refine ⟨Lookup.alone_eq c, fun s hs => ?_⟩
  have hsound : Sound c s := sound_start.steps hs
  refine ⟨hsound.coherent, fun t hst => hst.orderly hsound, fun t hst => ?_⟩
  refine ⟨Steps.keys_subset hsound hst, fun domain info hsettled => ?_⟩
  have hquiet := hsettled.quiet hsound hst
  exact ⟨hquiet, fun l hdomain hstage => hquiet.settled.advance c hdomain hstage⟩

def proceed (c : RegistryConfig) (a : Except CallError Reply) (i : Nat) (s : Client) : Client :=
  match s.lookups[i]? with
  | none => s
  | some l =>
      let run := (l.advance c s.cache).run (fun _ _ => (a, ())) ()
      ⟨run.result.2, s.lookups.set i run.result.1, s.log ++ run.log, s.inserted ++ l.insertion⟩

theorem steps_proceed (c : RegistryConfig) (a : Except CallError Reply) (i : Nat) (s : Client) :
    Steps c s (s.proceed c a i) := by
  unfold proceed
  cases hl : s.lookups[i]? with
  | none => exact .refl
  | some l =>
      exact .single (.advance s i l _ _ _ hl (Dialogue.trace_run (l.advance c s.cache) _ ()))

theorem two_first_lookups_share_cache :
    let c : RegistryConfig := {}
    let r : Text := "r".toList
    let answered : Except CallError Reply := .ok ⟨default, 200, [], default⟩
    let failed : Except CallError Reply := .error .undecodedBody
    let both := (start.arrived r "a".toList).arrived r "b".toList
    let asked := ((both.proceed c failed 0).proceed c failed 1).proceed c answered 0
    let s := (asked.proceed c failed 1).proceed c failed 0
    let t := (s.arrived r "c".toList).proceed c failed 2
    Steps c start s ∧ Steps c s t ∧ s.cache.length = 1 ∧ Settled s r (.anonymous r) ∧
      Quiet c r (.anonymous r) s t ∧ (t.lookups.map Lookup.stage)[2]? =
        some (.finished (.ok (.anonymous r))) := by
  intro c r answered failed both asked s t
  have hboth : Steps c start both := .tail (.single (.arrive start r _)) (.arrive _ r _)
  have hasked : Steps c both asked :=
    ((steps_proceed c failed 0 both).trans (steps_proceed c failed 1 _)).trans
      (steps_proceed c answered 0 _)
  have hs : Steps c start s := ((hboth.trans hasked).trans (steps_proceed c failed 1 asked)).trans
    (steps_proceed c failed 0 _)
  have hst : Steps c s t :=
    Relation.ReflTransGen.head (.arrive s r _) (steps_proceed c failed 2 _)
  have hcache : s.cache = [(r, .anonymous r)] := by decide +kernel
  have hlookups : s.lookups = [⟨r, "a".toList, .finished (.ok (.anonymous r))⟩,
      ⟨r, "b".toList, .finished (.error (.connectionFailed (probeUrl c r) .undecodedBody))⟩] := by
    decide +kernel
  have hthird : (t.lookups.map Lookup.stage)[2]? = some (.finished (.ok (.anonymous r))) := by
    decide +kernel
  clear_value s t
  have hsettled : Settled s r (.anonymous r) := by
    refine ⟨by rw [hcache]; rfl, fun l hl _ => ?_⟩
    rw [hlookups] at hl
    rcases List.mem_pair.1 hl with rfl | rfl
    · exact .inr ⟨_, rfl⟩
    · exact .inr ⟨_, rfl⟩
  have hquiet := (((lookups_share_cache c).2 s hs).2.2 t hst).2 r _ hsettled
  have hlength : s.cache.length = 1 := congrArg List.length hcache
  exact ⟨hs, hst, hlength, hsettled, hquiet.1, hthird⟩

end Client

end NetBoot.Registry
