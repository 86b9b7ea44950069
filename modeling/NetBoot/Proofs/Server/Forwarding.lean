import NetBoot.Proofs.Http.WireHeaders
import NetBoot.Server.BlobRelay

namespace NetBoot.BlobRelay

open Http

def withheld : List Text := authorizationName :: hostName :: hopByHop

theorem values_endToEnd (name : Text) (hs : Headers) :
    (endToEnd hs).values name = if name ∈ hopByHop then [] else hs.values name := by
  simp only [Headers.values, endToEnd, List.filter_filter]
  split
  · next hname =>
      rw [List.filter_eq_nil_iff.2 ?_, List.map_nil]
      rintro ⟨other, value⟩ - h
      simp only [Bool.and_eq_true, decide_eq_true_eq] at h
      obtain ⟨rfl, hother⟩ := h
      exact hother hname
  · next hname =>
      refine congrArg (List.map Prod.snd) (List.filter_congr ?_)
      rintro ⟨other, value⟩ -
      by_cases h : other = name
      · simp [h, hname]
      · simp [h]

theorem values_forwarded (name : Text) (inbound : Headers) :
    (forwarded inbound).values name = if name ∈ withheld then [] else inbound.values name := by
  unfold forwarded
  by_cases hauth : name = authorizationName
  · have hmem : authorizationName ∈ withheld := .head _
    rw [hauth, Headers.values_remove_self, if_pos hmem]
  rw [Headers.values_remove_of_ne hauth]
  by_cases hhost : name = hostName
  · have hmem : hostName ∈ withheld := .tail _ (.head _)
    rw [hhost, Headers.values_remove_self, if_pos hmem]
  rw [Headers.values_remove_of_ne hhost, values_endToEnd]
  simp only [withheld, List.mem_cons, hauth, hhost, false_or]

theorem values_outbound (name : Text) (inbound : Headers) (auth : Option Text) :
    (outbound inbound auth).values name =
      if name = authorizationName then auth.toList else (forwarded inbound).values name := by
  by_cases hname : name = authorizationName
  · rw [if_pos hname, hname]
    cases auth with
    | some value => exact Headers.values_set_self _ _ _
    | none => exact (values_forwarded _ _).trans (if_pos (.head _))
  · rw [if_neg hname]
    cases auth with
    | some value => exact Headers.values_set_of_ne hname _ _
    | none => rfl

/-- What a call is sent with: a client's headers, but for those that are withheld, and the header
that is negotiated for it. Without one, the credentials in its own URL are sent. -/
structure Carries (inbound : Headers) (auth : Option Text) (q : Call) : Prop where
  kept : ∀ name ∉ withheld, q.wireHeaders.values name =
    if inbound.values name = [] then (withDefaults []).values name else inbound.values name
  dropped : ∀ name ∈ withheld, name ≠ authorizationName → q.wireHeaders.values name = []
  authorization : q.wireHeaders.values authorizationName = (auth <|> q.userHeader?).toList

theorem authorizations_blobCall (url : Text) (inbound : Headers) (auth : Option Text) :
    (blobCall url (outbound inbound auth)).authorizations =
      (auth <|> (blobCall url (outbound inbound auth)).userHeader?).toList :=
  Call.authorizations_of_plain rfl ((values_outbound _ _ _).trans (if_pos rfl))

theorem carries_blobCall (url : Text) (inbound : Headers) (auth : Option Text) :
    Carries inbound auth (blobCall url (outbound inbound auth)) where
  kept name hname := by
    have hauth : name ≠ authorizationName := fun heq => hname (heq ▸ .head _)
    have hvalues : (outbound inbound auth).values name = inbound.values name := by
      rw [values_outbound, if_neg hauth, values_forwarded, if_neg hname]
    rw [Call.values_wireHeaders, if_neg hauth, Headers.values_withDefaults, blobCall, hvalues]
  dropped name hname hauth := by
    have hvalues : (outbound inbound auth).values name = [] := by
      rw [values_outbound, if_neg hauth, values_forwarded, if_pos hname]
    have hdefaults : ∀ name ∈ withheld, (withDefaults []).values name = [] := by decide
    rw [Call.values_wireHeaders, if_neg hauth, Headers.values_withDefaults, blobCall, hvalues,
      if_pos rfl, hdefaults name hname]
  authorization :=
    (Call.values_wireHeaders_authorization _).trans (authorizations_blobCall url inbound auth)

end NetBoot.BlobRelay
