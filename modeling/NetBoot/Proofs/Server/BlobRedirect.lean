import NetBoot.Proofs.Server.HandingOn

namespace NetBoot

open Http Registry
open Dialogue (Threads Trace exists_threads_of_trace trace_ask trace_ask_done trace_done
  trace_map_except trace_run)

inductive SentFor : CallLog → WireLog → Prop
  | nil : SentFor [] []
  | unsent (q : Call) (e : CallError) (calls : CallLog) (log : WireLog) :
      target? q.url = .error e → SentFor calls log → SentFor ((q, .error e) :: calls) log
  | sent (q : Call) (u : Url) (answer : Answer) (calls : CallLog) (log : WireLog) :
      target? q.url = .ok u → SentFor calls log →
        SentFor ((q, answer.plainReply u) :: calls) ((q.request u, answer) :: log)

theorem sentFor_of_threads {calls : CallLog} {log : WireLog}
    (hplain : ∀ e ∈ calls, e.1.client = .plain) (h : Threads perform calls log) :
    SentFor calls log := by
  induction h with
  | nil => exact .nil
  | cons q reply part calls rest hpart _ ih =>
      obtain ⟨hq, hcalls⟩ := List.forall_mem_cons.1 hplain
      rcases trace_perform_plain hq hpart with
        ⟨e, htarget, rfl, rfl⟩ | ⟨u, answer, htarget, rfl, rfl⟩
      · exact .unsent q e calls rest htarget (ih hcalls)
      · exact .sent q u answer calls rest htarget (ih hcalls)

theorem SentFor.target?_eq {calls : CallLog} {log : WireLog} (h : SentFor calls log) :
    ∀ q reply, (q, .ok reply) ∈ calls → target? q.url = .ok reply.url := by
  induction h with
  | nil =>
      intro q reply hmem
      exact absurd hmem List.not_mem_nil
  | unsent q e calls log _ _ ih =>
      intro p reply hmem
      rcases List.mem_cons.1 hmem with heq | hmem
      · cases heq
      · exact ih p reply hmem
  | sent q u answer calls log htarget _ ih =>
      intro p reply hmem
      rcases List.mem_cons.1 hmem with heq | hmem
      · cases answer with
        | failed fault => cases heq
        | response status headers body =>
            cases heq
            exact htarget
      · exact ih p reply hmem

namespace BlobRelay

variable {url : Text} {headers : Headers} {log : CallLog} {reply : Reply} {target : Url}

theorem isStorageRedirect_iff : isStorageRedirect reply ↔ reply.status = 307 := by
  rw [isStorageRedirect, decide_eq_true_iff]

def LeadsTo (reply : Reply) (target : Url) : Prop :=
  ∃ location, (reply.headers.values locationName).head? = some location ∧
    Headers.isReadable location ∧ Url.join? reply.url location = some target

theorem redirectTarget_eq_ok_iff : redirectTarget reply = .ok target ↔ LeadsTo reply target := by
  simp only [redirectTarget_eq_ok, LeadsTo, Headers.readable?, Headers.first?,
    Option.filter_eq_some_iff, and_assoc]

theorem redirectTarget_cases (reply : Reply) :
    (∃ target, LeadsTo reply target ∧ redirectTarget reply = .ok target) ∨
      (∀ target, ¬ LeadsTo reply target) ∧
        redirectTarget reply = .error (.invalidRedirect reply.url.toText) := by
  cases h : redirectTarget reply with
  | ok target => exact .inl ⟨target, redirectTarget_eq_ok_iff.1 h, rfl⟩
  | error e =>
      refine .inr ⟨fun target hleads => ?_, ?_⟩
      · rw [redirectTarget_eq_ok_iff.2 hleads] at h
        cases h
      · unfold redirectTarget at h
        split at h
        · cases h
        · exact h.symm

inductive Fetched (url : Text) (headers : Headers) : CallLog → Except BootError Reply → Prop
  | failed (e : CallError) :
      Fetched url headers [(blobCall url headers, .error e)] (.error (.relayFailed url e))
  | direct (reply : Reply) : reply.status ≠ 307 →
      Fetched url headers [(blobCall url headers, .ok reply)] (.ok reply)
  | astray (reply : Reply) : reply.status = 307 → (∀ target, ¬ LeadsTo reply target) →
      Fetched url headers [(blobCall url headers, .ok reply)]
        (.error (.invalidRedirect reply.url.toText))
  | lost (reply : Reply) (target : Url) (e : CallError) :
      reply.status = 307 → LeadsTo reply target →
        Fetched url headers
          [(blobCall url headers, .ok reply), (blobCall target.toText headers, .error e)]
          (.error (.relayFailed target.toText e))
  | redirected (reply : Reply) (target : Url) (last : Reply) :
      reply.status = 307 → LeadsTo reply target →
        Fetched url headers
          [(blobCall url headers, .ok reply), (blobCall target.toText headers, .ok last)]
          (.ok last)

variable {r : Except BootError Reply}

theorem fetched_of_trace (h : Trace (fetch url headers).run log r) :
    Fetched url headers log r := by
  rw [LayerService.run_fetch] at h
  obtain ⟨answer, rest, rfl, hrest⟩ := trace_ask.1 h
  cases answer with
  | error e =>
      obtain ⟨rfl, rfl⟩ := trace_done.1 hrest
      exact .failed e
  | ok reply =>
      dsimp only at hrest
      split at hrest
      · next hredirects =>
          have hstatus := isStorageRedirect_iff.1 hredirects
          rcases redirectTarget_cases reply with ⟨target, hleads, htarget⟩ | ⟨hnone, htarget⟩
          · rw [htarget] at hrest
            obtain ⟨e | last, rfl, rfl⟩ := trace_ask_done.1 hrest
            · exact .lost reply target e hstatus hleads
            · exact .redirected reply target last hstatus hleads
          · rw [htarget] at hrest
            obtain ⟨rfl, rfl⟩ := trace_done.1 hrest
            exact .astray reply hstatus hnone
      · next hredirects =>
          obtain ⟨rfl, rfl⟩ := trace_done.1 hrest
          exact .direct reply (mt isStorageRedirect_iff.2 hredirects)

theorem Fetched.trace (h : Fetched url headers log r) : Trace (fetch url headers).run log r := by
  rw [LayerService.run_fetch]
  apply trace_ask.2
  cases h with
  | failed e => exact ⟨.error e, [], rfl, .done _⟩
  | direct reply hstatus =>
      refine ⟨.ok reply, [], rfl, ?_⟩
      dsimp only
      rw [if_neg (mt isStorageRedirect_iff.1 hstatus)]
      exact .done _
  | astray reply hstatus hnone =>
      refine ⟨.ok reply, [], rfl, ?_⟩
      obtain ⟨target, hleads, -⟩ | ⟨-, htarget⟩ := redirectTarget_cases reply
      · exact absurd hleads (hnone target)
      · dsimp only
        rw [if_pos (isStorageRedirect_iff.2 hstatus), htarget]
        exact .done _
  | lost reply target e hstatus hleads =>
      refine ⟨.ok reply, _, rfl, ?_⟩
      dsimp only
      rw [if_pos (isStorageRedirect_iff.2 hstatus), redirectTarget_eq_ok_iff.2 hleads]
      exact trace_ask_done.2 ⟨.error e, rfl, rfl⟩
  | redirected reply target last hstatus hleads =>
      refine ⟨.ok reply, _, rfl, ?_⟩
      dsimp only
      rw [if_pos (isStorageRedirect_iff.2 hstatus), redirectTarget_eq_ok_iff.2 hleads]
      exact trace_ask_done.2 ⟨.ok last, rfl, rfl⟩

theorem trace_fetch_iff : Trace (fetch url headers).run log r ↔ Fetched url headers log r :=
  ⟨fetched_of_trace, Fetched.trace⟩

/-- The headers of a blob's request, whichever of its URLs it is for. Where no credentials were
negotiated, those in that URL are added. -/
structure SentWith (inbound : Headers) (auth : Option Text) (q : Call) : Prop where
  same : auth.isSome ∨ q.userHeader? = none → q.wireHeaders = withDefaults (outbound inbound auth)
  others : ∀ name ≠ authorizationName,
    q.wireHeaders.values name = (withDefaults (outbound inbound auth)).values name
  authorization : q.wireHeaders.values authorizationName = (auth <|> q.userHeader?).toList

theorem sentWith_blobCall (url : Text) (inbound : Headers) (auth : Option Text) :
    SentWith inbound auth (blobCall url (outbound inbound auth)) where
  same h := by
    rcases h with hauth | huser
    · obtain ⟨value, rfl⟩ := Option.isSome_iff_exists.1 hauth
      exact Call.wireHeaders_of_named rfl (Headers.values_set_self _ _ _)
    · exact Call.wireHeaders_of_no_user huser
  others name hname := (Call.values_wireHeaders _ _).trans (if_neg hname)
  authorization := (carries_blobCall url inbound auth).authorization

theorem Fetched.eq_blobCall (h : Fetched url headers log r) :
    ∀ e ∈ log, e.1 = blobCall e.1.url headers := by
  cases h with
  | failed | direct | astray => simp [blobCall]
  | lost | redirected => simp [blobCall]

theorem Fetched.length_le (h : Fetched url headers log r) : log.length ≤ 2 := by
  cases h <;> simp

theorem Fetched.last_of_ok (h : Fetched url headers log (.ok reply)) :
    ∃ q, log.getLast? = some (q, .ok reply) := by
  cases h with
  | direct reply => exact ⟨_, rfl⟩
  | redirected reply target last => exact ⟨_, rfl⟩

theorem Fetched.status_of_error {e : BootError} (h : Fetched url headers log (.error e)) :
    (Response.ofError e).status = 502 := by
  cases h <;> rfl

theorem blob_redirect_followed_once {σ : Type} (network : Network σ) (start : σ)
    (c : RegistryConfig) (inbound : Headers) (image : ImageName) (d : Digest)
    (auth : Option Text) :
    let o := (onWire (relay c inbound image d auth).run).run network start
    ∃ calls fetched, SentFor calls o.log ∧
      Fetched (blobUrl c image d) (outbound inbound auth) calls fetched ∧
      o.result = fetched.map respond ∧ calls.length ≤ 2 ∧
      (∀ e ∈ calls, SentWith inbound auth e.1) ∧
      (∀ q reply, (q, .ok reply) ∈ calls → target? q.url = .ok reply.url) ∧
      (∀ reply, fetched = .ok reply →
        (∃ q, calls.getLast? = some (q, .ok reply)) ∧ (respond reply).status = reply.status ∧
          (respond reply).body.bytes = reply.body.bytes ∧
          (respond reply).body.whole = reply.body.whole) ∧
      ∀ e, fetched = .error e → (Response.ofError e).status = 502 := by
  intro o
  obtain ⟨calls, hcalls, hthreads⟩ := exists_threads_of_trace
    (trace_run (onWire (relay c inbound image d auth).run) network start)
  obtain ⟨fetched, hfetch, hresult⟩ := trace_map_except.1 hcalls
  have hfetched := fetched_of_trace hfetch
  have hcall := hfetched.eq_blobCall
  have hplain : ∀ e ∈ calls, e.1.client = .plain := fun e he => congrArg Call.client (hcall e he)
  have hsent := sentFor_of_threads hplain hthreads
  refine ⟨calls, fetched, hsent, hfetched, hresult, hfetched.length_le, fun e he => ?_,
    hsent.target?_eq, ?_, ?_⟩
  · rw [hcall e he]
    exact sentWith_blobCall _ inbound auth
  · rintro reply rfl
    exact ⟨hfetched.last_of_ok, rfl, rfl, rfl⟩
  · rintro e rfl
    exact hfetched.status_of_error

def restlessWire : Network Unit := fun _ u =>
  (.response 307 [(locationName, "../s/1?k=v".toList), (locationName, "https://t.example/".toList)]
    ⟨Utf8.encode "moved".toList, .whole, none⟩, u)

theorem second_redirect_handed_to_client :
    let image : ImageName := ⟨"r.example".toList, "os".toList⟩
    let d : Digest := ⟨Digest.sha256, "abc".toList⟩
    let o := (onWire (relay {} [] image d (some "Bearer t".toList)).run).run restlessWire ()
    o.log.map (fun e => (e.1.url.toText, e.1.authorizations)) =
        [("https://r.example/v2/os/blobs/sha256:abc".toList, ["Bearer t".toList]),
          ("https://r.example/v2/os/s/1?k=v".toList, ["Bearer t".toList])] ∧
      o.result.toOption.map (fun r => (r.status, r.body.bytes)) =
        some (307, Utf8.encode "moved".toList) ∧
      ∃ calls fetched, SentFor calls o.log ∧
        Fetched (blobUrl {} image d) (outbound [] (some "Bearer t".toList)) calls fetched ∧
        calls.length ≤ 2 ∧ ∀ e ∈ calls, SentWith [] (some "Bearer t".toList) e.1 := by
  intro image d o
  obtain ⟨calls, fetched, hsent, hfetched, -, hlength, hwith, -⟩ :=
    blob_redirect_followed_once restlessWire () {} [] image d (some "Bearer t".toList)
  exact ⟨by decide +kernel, by decide +kernel, calls, fetched, hsent, hfetched, hlength, hwith⟩

def namingWire : Network Unit := fun _ u =>
  (.response 307 [(locationName, "https://u:p@s.example/os".toList)] ⟨[], .whole, none⟩, u)

theorem redirect_names_user :
    let image : ImageName := ⟨"r.example".toList, "os".toList⟩
    let d : Digest := ⟨Digest.sha256, "abc".toList⟩
    ((onWire (relay {} [] image d none).run).questions namingWire ()).map
        (fun q => (q.url.toText, q.authorizations)) =
      [("https://r.example/v2/os/blobs/sha256:abc".toList, []),
        ("https://s.example/os".toList, ["Basic dTpw".toList])] := by
  decide +kernel

end BlobRelay

end NetBoot
