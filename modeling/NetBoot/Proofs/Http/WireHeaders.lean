import NetBoot.Http.Wire
import NetBoot.Proofs.Url.Authority

namespace NetBoot

namespace Url

variable {u : Url}

theorem credentials?_eq_none (hname : u.username = []) (hpassword : u.password = []) :
    u.credentials? = none := by
  rw [credentials?, hname, hpassword]
  rfl

theorem requested_eq_self (h : u.credentials? = none) : u.requested = u := by
  rw [requested, h]
  rfl

theorem site_requested (u : Url) : u.requested.site = u.site := by
  unfold requested
  split <;> rfl

end Url

namespace Http

namespace Headers

variable {hs : Headers} {name : Text}

theorem has_eq_false_iff : hs.has name = false ↔ hs.values name = [] := by
  simp [has, values]

theorem has_iff : hs.has name ↔ hs.values name ≠ [] := by
  rw [← Bool.not_eq_false, ne_eq, has_eq_false_iff]

theorem values_setDefault (name other value : Text) (hs : Headers) :
    (hs.setDefault other value).values name =
      if name = other ∧ hs.values name = [] then [value] else hs.values name := by
  unfold setDefault
  by_cases hname : name = other
  · subst hname
    cases hhas : hs.has name with
    | false =>
        rw [if_neg Bool.false_ne_true, values_append, if_pos ⟨rfl, has_eq_false_iff.1 hhas⟩,
          has_eq_false_iff.1 hhas]
        simp [values]
    | true => rw [if_pos rfl, if_neg fun h => has_iff.1 hhas h.2]
  · have hif : ¬(name = other ∧ hs.values name = []) := fun h => hname h.1
    rw [if_neg hif]
    split
    · rfl
    · rw [values_append]
      simp [values, Ne.symm hname]

theorem values_withDefaults (name : Text) (hs : Headers) :
    (withDefaults hs).values name =
      if hs.values name = [] then (withDefaults []).values name else hs.values name := by
  have hnil : Headers.values name [] = [] := rfl
  have hother : acceptName ≠ userAgentName := by decide
  simp only [withDefaults, values_setDefault, hnil]
  by_cases haccept : name = acceptName
  · simp only [haccept, hother, false_and, true_and, if_false, if_true]
  · by_cases hagent : name = userAgentName
    · simp only [hagent, hother.symm, false_and, true_and, if_false, if_true]
    · simp only [haccept, hagent, false_and, if_false]
      split
      · next hnone => exact hnone
      · rfl

theorem values_withDefaults_authorization (hs : Headers) :
    (withDefaults hs).values authorizationName = hs.values authorizationName := by
  have hdefault : (withDefaults []).values authorizationName = [] := by decide
  rw [values_withDefaults, hdefault]
  split
  · next hnil => exact hnil.symm
  · rfl

end Headers

namespace Call

def authorizations (c : Call) : List Text :=
  match c.client, c.headers.values authorizationName with
  | .following, values => c.userHeader?.toList ++ values
  | .plain, [] => c.userHeader?.toList
  | .plain, values => values

variable {c : Call}

theorem values_user (user : Option Text) (name : Text) :
    Headers.values name (user.map fun value => (authorizationName, value)).toList =
      if name = authorizationName then user.toList else [] := by
  by_cases hname : authorizationName = name
  · cases user <;> simp [Headers.values, hname]
  · cases user <;> simp [Headers.values, hname, Ne.symm hname]

theorem values_ownHeaders (c : Call) (name : Text) :
    c.ownHeaders.values name =
      if name = authorizationName then c.authorizations else c.headers.values name := by
  by_cases hname : name = authorizationName
  · subst hname
    rw [if_pos rfl, ownHeaders, authorizations]
    cases c.client with
    | following =>
        dsimp only
        rw [Headers.values_append, values_user, if_pos rfl]
    | plain =>
        dsimp only
        cases hhas : c.headers.has authorizationName with
        | false =>
            have hnil := Headers.has_eq_false_iff.1 hhas
            rw [if_neg Bool.false_ne_true, Headers.values_append, values_user, if_pos rfl, hnil,
              List.append_nil]
        | true =>
            rw [if_pos rfl]
            cases hvalues : c.headers.values authorizationName with
            | nil => exact absurd hvalues (Headers.has_iff.1 hhas)
            | cons value rest => rfl
  · rw [if_neg hname, ownHeaders]
    have huser : (Headers.values name
        ((c.userHeader?.map fun value => (authorizationName, value)).toList ++ c.headers)) =
          c.headers.values name := by
      rw [Headers.values_append, values_user, if_neg hname, List.nil_append]
    cases c.client with
    | following => exact huser
    | plain =>
        dsimp only
        split
        · rfl
        · exact huser

theorem values_wireHeaders (c : Call) (name : Text) :
    c.wireHeaders.values name =
      if name = authorizationName then c.authorizations
      else (withDefaults c.headers).values name := by
  rw [wireHeaders]
  by_cases hname : name = authorizationName
  · rw [if_pos hname, hname, Headers.values_withDefaults_authorization, values_ownHeaders,
      if_pos rfl]
  · rw [if_neg hname, Headers.values_withDefaults, Headers.values_withDefaults _ c.headers,
      values_ownHeaders, if_neg hname]

theorem values_wireHeaders_authorization (c : Call) :
    c.wireHeaders.values authorizationName = c.authorizations :=
  (c.values_wireHeaders authorizationName).trans (if_pos rfl)

theorem authorizations_of_following (h : c.client = .following) :
    c.authorizations = c.userHeader?.toList ++ c.headers.values authorizationName := by
  rw [authorizations, h]

theorem authorizations_of_bare (h : c.client = .following) (hheaders : c.headers = []) :
    c.authorizations = c.userHeader?.toList := by
  rw [authorizations_of_following h, hheaders]
  exact List.append_nil _

theorem authorizations_of_plain {auth : Option Text} (h : c.client = .plain)
    (hauth : c.headers.values authorizationName = auth.toList) :
    c.authorizations = (auth <|> c.userHeader?).toList := by
  rw [authorizations, h, hauth]
  cases auth <;> rfl

theorem wireHeaders_of_named {value : Text} (h : c.client = .plain)
    (hauth : c.headers.values authorizationName = [value]) :
    c.wireHeaders = withDefaults c.headers := by
  have hhas : c.headers.has authorizationName :=
    Headers.has_iff.2 (hauth ▸ List.cons_ne_nil value [])
  rw [wireHeaders, ownHeaders, h]
  exact congrArg withDefaults (if_pos hhas)

theorem wireHeaders_of_no_user (h : c.userHeader? = none) :
    c.wireHeaders = withDefaults c.headers := by
  rw [wireHeaders, ownHeaders, h]
  cases c.client with
  | following => rfl
  | plain => exact congrArg withDefaults (ite_self _)

theorem userHeader?_eq_none {scheme authority t : Text} (hscheme : Url.IsWeb scheme)
    (hauthority : ∃ x ∈ authority, Url.isSlash true x = false ∧ Url.isTabOrLine x = false)
    (hat : '@' ∉ authority) (hurl : c.url = scheme ++ "://".toList ++ authority ++ '/' :: t) :
    c.userHeader? = none := by
  rw [Call.userHeader?, hurl]
  refine Option.bind_eq_none_iff.2 fun u hparse => ?_
  obtain ⟨hname, hpassword⟩ := Url.user_of_parse? hscheme hauthority t hat hparse
  rw [Http.userHeader?, Url.credentials?_eq_none hname hpassword]
  rfl

end Call

end Http

end NetBoot
