import NetBoot.Proofs.Dialogue.Runs
import NetBoot.Proofs.Http.WireHeaders

namespace NetBoot.Http

open Dialogue (Asks Trace trace_ask trace_done trace_ask_done)

theorem values_withReferer {name : Text} (h : name ≠ refererName) (referer : Option Text)
    (hs : Headers) : (withReferer referer hs).values name = hs.values name := by
  cases referer with
  | none => rfl
  | some value => exact Headers.values_set_of_ne h value hs

abbrev WireLog := List (Request × Answer)

variable {r q q' : Request} {u v w : Url}

section Endpoints

theorem sameEndpoint_iff :
    sameEndpoint u v ↔ u.hostText = v.hostText ∧ u.portOrDefault? = v.portOrDefault? := by
  simp [sameEndpoint]

theorem sameEndpoint_refl (u : Url) : sameEndpoint u u := sameEndpoint_iff.2 ⟨rfl, rfl⟩

theorem sameEndpoint_trans (huv : sameEndpoint u v) (hvw : sameEndpoint v w) :
    sameEndpoint u w := by
  rw [sameEndpoint_iff] at huv hvw ⊢
  exact ⟨huv.1.trans hvw.1, huv.2.trans hvw.2⟩

theorem sameEndpoint_of_site (h : u.site = v.site) : sameEndpoint u v := by
  simp only [Url.site, Prod.mk.injEq] at h
  obtain ⟨hscheme, hhost, hport⟩ := h
  rw [sameEndpoint_iff, Url.hostText, Url.hostText, Url.portOrDefault?, Url.portOrDefault?, hhost,
    hport, hscheme]
  exact ⟨rfl, rfl⟩

end Endpoints

def Request.authorizations (r : Request) : List Text := r.headers.values authorizationName

def Follows (r q : Request) : Prop :=
  ∀ value ∈ q.authorizations, value ∈ r.authorizations ∧ sameEndpoint r.url q.url

theorem Follows.trans (h : Follows r q) (h' : Follows q q') : Follows r q' := by
  intro value hvalue
  obtain ⟨hq, hlast⟩ := h' value hvalue
  obtain ⟨hr, hfirst⟩ := h value hq
  exact ⟨hr, sameEndpoint_trans hfirst hlast⟩

theorem authorizations_redirected (r : Request) (url : Url) :
    (redirected r url).authorizations =
      if sameEndpoint r.url url then r.authorizations else [] := by
  unfold redirected Request.authorizations
  dsimp only
  split
  · exact values_withReferer (by decide) _ _
  · exact Headers.values_remove_self _ _

theorem follows_redirected (r : Request) (url : Url) : Follows r (redirected r url) := by
  intro value hvalue
  rw [authorizations_redirected] at hvalue
  split at hvalue
  · next hsame => exact ⟨hvalue, hsame⟩
  · exact nomatch hvalue

theorem asks_send (r : Request) : Asks (Follows r) (send r) :=
  .ask _ _ (fun _ hvalue => ⟨hvalue, sameEndpoint_refl r.url⟩) .done

theorem asks_follow (start : Text) (budget : Nat) (r : Request) :
    Asks (Follows r) (follow start budget r) := by
  induction budget generalizing r with
  | zero =>
      unfold follow
      refine (asks_send r).bind fun answer => ?_
      cases answer with
      | failed fault => exact .done _
      | response status headers body =>
          dsimp only
          split
          · exact .done _
          · split <;> exact .done _
  | succ budget ih =>
      unfold follow
      refine (asks_send r).bind fun answer => ?_
      cases answer with
      | failed fault => exact .done _
      | response status headers body =>
          dsimp only
          split
          · exact .done _
          · next url _ =>
              split
              · exact (ih _).mono fun q => (follows_redirected r url).trans
              · exact .done _

theorem asks_sendPlain (start : Text) (r : Request) : Asks (Follows r) (sendPlain start r) := by
  refine (asks_send r).bind fun answer => ?_
  cases answer <;> exact .done _

def Call.Keeps (c : Call) (q : Request) : Prop :=
  ∀ value ∈ q.authorizations, value ∈ c.authorizations ∧
    ∃ url, target? c.url = .ok url ∧ sameEndpoint url q.url

theorem asks_perform (c : Call) : Asks c.Keeps (perform c) := by
  unfold perform
  cases htarget : target? c.url with
  | error e => exact .done _
  | ok url =>
      dsimp only
      have hkeeps (q : Request) (h : Follows ⟨c.method, url, c.wireHeaders⟩ q) : c.Keeps q := by
        intro value hvalue
        obtain ⟨hmem, hsame⟩ := h value hvalue
        rw [Request.authorizations, Call.values_wireHeaders_authorization] at hmem
        exact ⟨hmem, url, htarget, hsame⟩
      cases c.client with
      | following => exact (asks_follow _ _ _).mono hkeeps
      | plain => exact (asks_sendPlain _ _).mono hkeeps

section Chains

def Request.sent (r : Request) : Request := { r with url := r.url.withoutFragment }

inductive Chain : Request → WireLog → Prop
  | single (r : Request) (answer : Answer) : Chain r [(r.sent, answer)]
  | redirect (r : Request) (status : Nat) (headers : Headers) (body : Body) (url : Url)
      (log : WireLog) :
      redirectTarget? r.url status headers = some url → Chain (redirected r url) log →
        Chain r ((r.sent, .response status headers body) :: log)

theorem send_bind {α : Type} (r : Request) (f : Answer → Exchange α) :
    (send r).bind f = .ask r.sent f := rfl

theorem trace_follow_step {start : Text} {budget : Nat} {log : WireLog}
    {reply : Except CallError Reply} (h : Trace (follow start budget r) log reply) :
    ∃ answer rest, log = (r.sent, answer) :: rest ∧ (rest = [] ∨
      ∃ status headers body url left, answer = .response status headers body ∧
        redirectTarget? r.url status headers = some url ∧ budget = left + 1 ∧
          Trace (follow start left (redirected r url)) rest reply) := by
  unfold follow at h
  rw [send_bind] at h
  obtain ⟨answer, rest, rfl, hrest⟩ := trace_ask.1 h
  refine ⟨answer, rest, rfl, ?_⟩
  cases answer with
  | failed fault => exact .inl (trace_done.1 hrest).1
  | response status headers body =>
      dsimp only at hrest
      split at hrest
      · exact .inl (trace_done.1 hrest).1
      · next url hurl =>
          split at hrest
          · cases budget with
            | zero => exact .inl (trace_done.1 hrest).1
            | succ left => exact .inr ⟨status, headers, body, url, left, rfl, hurl, rfl, hrest⟩
          · exact .inl (trace_done.1 hrest).1

theorem chain_of_trace_follow {start : Text} {budget : Nat} {log : WireLog}
    {reply : Except CallError Reply} (h : Trace (follow start budget r) log reply) :
    Chain r log ∧ log.length ≤ budget + 1 := by
  induction budget generalizing r log with
  | zero =>
      obtain ⟨answer, rest, rfl, rfl | ⟨-, -, -, -, left, -, -, hleft, -⟩⟩ := trace_follow_step h
      · exact ⟨.single r answer, Nat.le_refl _⟩
      · exact absurd hleft (Nat.succ_ne_zero left).symm
  | succ budget ih =>
      obtain ⟨answer, rest, rfl, hend⟩ := trace_follow_step h
      rcases hend with rfl | ⟨status, headers, body, url, left, rfl, hurl, hleft, hnext⟩
      · exact ⟨.single r answer, Nat.succ_le_succ (Nat.zero_le _)⟩
      · obtain rfl : budget = left := Nat.succ.inj hleft
        obtain ⟨hchain, hlength⟩ := ih hnext
        exact ⟨.redirect r status headers body url rest hurl hchain, Nat.succ_le_succ hlength⟩

theorem trace_perform_following {c : Call} {log : WireLog}
    {reply : Except CallError Reply} (hfollowing : c.client = .following)
    (h : Trace (perform c) log reply) :
    (∃ e, target? c.url = .error e ∧ log = [] ∧ reply = .error e) ∨
      ∃ u, target? c.url = .ok u ∧ Chain ⟨c.method, u, c.wireHeaders⟩ log ∧
        log.length ≤ redirectLimit + 1 := by
  unfold perform at h
  cases htarget : target? c.url with
  | error e =>
      rw [htarget] at h
      obtain ⟨rfl, rfl⟩ := trace_done.1 h
      exact .inl ⟨e, rfl, rfl, rfl⟩
  | ok u =>
      rw [htarget, hfollowing] at h
      exact .inr ⟨u, rfl, chain_of_trace_follow h⟩

end Chains

section Plain

def Call.request (c : Call) (u : Url) : Request :=
  ⟨c.method, u.withoutFragment, c.wireHeaders⟩

def Answer.plainReply (u : Url) : Answer → Except CallError Reply
  | .failed fault => .error (.unsent u.toText fault)
  | .response status headers body => .ok ⟨u, status, headers, body⟩

theorem perform_plain {c : Call} (hplain : c.client = .plain) :
    perform c =
      match target? c.url with
      | .error e => .done (.error e)
      | .ok u => .ask (c.request u) fun answer => .done (answer.plainReply u) := by
  unfold perform
  cases target? c.url with
  | error e => rfl
  | ok u =>
      dsimp only
      rw [hplain]
      refine congrArg (Dialogue.ask _) (funext fun answer => ?_)
      cases answer <;> rfl

theorem trace_perform_plain {c : Call} {log : WireLog}
    {reply : Except CallError Reply} (hplain : c.client = .plain)
    (h : Trace (perform c) log reply) :
    (∃ e, target? c.url = .error e ∧ log = [] ∧ reply = .error e) ∨
      ∃ u answer, target? c.url = .ok u ∧ log = [(c.request u, answer)] ∧
        reply = answer.plainReply u := by
  rw [perform_plain hplain] at h
  cases htarget : target? c.url with
  | error e =>
      rw [htarget] at h
      obtain ⟨rfl, rfl⟩ := trace_done.1 h
      exact .inl ⟨e, rfl, rfl, rfl⟩
  | ok u =>
      rw [htarget] at h
      obtain ⟨answer, rfl, rfl⟩ := trace_ask_done.1 h
      exact .inr ⟨u, answer, rfl, rfl, rfl⟩

end Plain

section Sending

theorem authorizations_request (c : Call) (u : Url) :
    (c.request u).authorizations = c.authorizations := c.values_wireHeaders_authorization

theorem Chain.eq_cons {log : WireLog} (h : Chain r log) :
    ∃ answer rest, log = (r.sent, answer) :: rest := by
  cases h with
  | single _ answer => exact ⟨answer, [], rfl⟩
  | redirect _ status headers body url log => exact ⟨_, log, rfl⟩

/-- What a call comes to on the wire: its own request and those that redirects lead to, or nothing
if its URL is none to send a request to. -/
def Call.Sends (c : Call) (part : WireLog) : Prop :=
  (part = [] ∧ ∃ e, target? c.url = .error e) ∨
    ∃ u answer rest, target? c.url = .ok u ∧ part = (c.request u, answer) :: rest ∧
      (c.request u).authorizations = c.authorizations ∧ (c.client = .plain → rest = []) ∧
        rest.length ≤ redirectLimit ∧ ∀ e ∈ part, c.Keeps e.1

theorem sends_of_trace {c : Call} {part : WireLog} {reply : Except CallError Reply}
    (h : Trace (perform c) part reply) : c.Sends part := by
  have hkeeps : ∀ e ∈ part, c.Keeps e.1 := (asks_perform c).trace h
  cases hclient : c.client with
  | following =>
      rcases trace_perform_following hclient h with
        ⟨e, htarget, rfl, -⟩ | ⟨u, htarget, hchain, hlength⟩
      · exact .inl ⟨rfl, e, htarget⟩
      · obtain ⟨answer, rest, rfl⟩ := hchain.eq_cons
        have hplain (hplain : c.client = .plain) : rest = [] := nomatch hclient.symm.trans hplain
        exact .inr ⟨u, answer, rest, htarget, rfl, authorizations_request c u, hplain,
          Nat.le_of_succ_le_succ hlength, hkeeps⟩
  | plain =>
      rcases trace_perform_plain hclient h with
        ⟨e, htarget, rfl, -⟩ | ⟨u, answer, htarget, rfl, -⟩
      · exact .inl ⟨rfl, e, htarget⟩
      · exact .inr ⟨u, answer, [], htarget, rfl, authorizations_request c u, fun _ => rfl,
          Nat.zero_le _, hkeeps⟩

end Sending

end NetBoot.Http
