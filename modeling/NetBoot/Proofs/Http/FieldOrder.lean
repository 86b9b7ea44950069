import NetBoot.Proofs.Dialogue.Runs
import NetBoot.Proofs.Http.WireHeaders

namespace NetBoot.Http

open Dialogue (Alike)

/-- Fields of one name keep their order; those of different names may be in any. -/
def Headers.Same (a b : Headers) : Prop := ∀ name, a.values name = b.values name

namespace Headers

variable {a b : Headers}

theorem Same.refl (hs : Headers) : Same hs hs := fun _ => rfl

theorem has_eq (h : Same a b) (name : Text) : a.has name = b.has name := by
  rw [Bool.eq_iff_iff, ← not_iff_not, Bool.not_eq_true, Bool.not_eq_true, has_eq_false_iff,
    has_eq_false_iff, h name]

theorem Same.append (h : Same a b) (c : Headers) : Same (a ++ c) (b ++ c) := fun name => by
  rw [values_append, values_append, h name]

theorem Same.setDefault (h : Same a b) (name value : Text) :
    Same (a.setDefault name value) (b.setDefault name value) := by
  unfold Headers.setDefault
  rw [has_eq h name]
  split
  · exact h
  · exact h.append _

theorem Same.remove (h : Same a b) (other : Text) : Same (a.remove other) (b.remove other) := by
  intro name
  by_cases hname : name = other
  · rw [hname, values_remove_self, values_remove_self]
  · rw [values_remove_of_ne hname, values_remove_of_ne hname, h name]

theorem Same.set (h : Same a b) (name value : Text) : Same (a.set name value) (b.set name value) :=
  (h.remove name).append _

theorem Same.withReferer (h : Same a b) (referer : Option Text) :
    Same (withReferer referer a) (withReferer referer b) := by
  cases referer with
  | none => exact h
  | some value => exact h.set _ value

theorem Same.withDefaults (h : Same a b) : Same (withDefaults a) (withDefaults b) :=
  (h.setDefault _ _).setDefault _ _

end Headers

structure Call.Same (a b : Call) : Prop where
  client : a.client = b.client
  method : a.method = b.method
  url : a.url = b.url
  headers : a.headers.Same b.headers

structure Request.Same (a b : Request) : Prop where
  method : a.method = b.method
  url : a.url = b.url
  headers : a.headers.Same b.headers

theorem Call.Same.refl (c : Call) : c.Same c := ⟨rfl, rfl, rfl, .refl _⟩

theorem Request.Same.refl (r : Request) : r.Same r := ⟨rfl, rfl, .refl _⟩

variable {r r' : Request} {c c' : Call}

theorem Call.Same.authorizations (h : c.Same c') : c.authorizations = c'.authorizations := by
  have huser : c.userHeader? = c'.userHeader? := by rw [userHeader?, userHeader?, h.url]
  rw [Call.authorizations, Call.authorizations, h.client, h.headers authorizationName, huser]

theorem Call.Same.wireHeaders (h : c.Same c') : c.wireHeaders.Same c'.wireHeaders := by
  intro name
  rw [values_wireHeaders, values_wireHeaders, h.authorizations, h.headers.withDefaults name]

theorem alike_send (h : r.Same r') : Alike Request.Same (send r) (send r') := by
  refine .ask _ _ _ _ ⟨h.method, ?_, h.headers⟩ .done
  change r.url.withoutFragment = r'.url.withoutFragment
  rw [h.url]

theorem Request.Same.redirected (h : r.Same r') (url : Url) :
    (Http.redirected r url).Same (Http.redirected r' url) := by
  refine ⟨h.method, rfl, ?_⟩
  unfold Http.redirected
  dsimp only
  rw [h.url]
  split
  · exact h.headers.withReferer _
  · exact (h.headers.withReferer _).remove _

theorem alike_follow (start : Text) (budget : Nat) (h : r.Same r') :
    Alike Request.Same (follow start budget r) (follow start budget r') := by
  -- The induction is on the redirects left; a redirect keeps two requests the same.
  induction budget generalizing r r' with
  | zero =>
      unfold follow
      refine (alike_send h).bind fun answer => ?_
      cases answer with
      | failed fault => exact .done _
      | response status headers body =>
          dsimp only
          rw [h.url]
          exact .refl Request.Same.refl _
  | succ budget ih =>
      unfold follow
      refine (alike_send h).bind fun answer => ?_
      cases answer with
      | failed fault => exact .done _
      | response status headers body =>
          dsimp only
          rw [h.url]
          split
          · exact .done _
          · next url _ =>
              split
              · exact ih (h.redirected url)
              · exact .done _

theorem alike_sendPlain (start : Text) (h : r.Same r') :
    Alike Request.Same (sendPlain start r) (sendPlain start r') := by
  unfold sendPlain
  refine (alike_send h).bind fun answer => ?_
  cases answer with
  | failed fault => exact .done _
  | response status headers body =>
      dsimp only
      rw [h.url]
      exact .done _

theorem alike_perform (h : c.Same c') : Alike Request.Same (perform c) (perform c') := by
  unfold perform
  rw [h.url, h.client, h.method]
  split
  · exact .done _
  · next url _ =>
      have hrequest : Request.Same ⟨c'.method, url, c.wireHeaders⟩
          ⟨c'.method, url, c'.wireHeaders⟩ := ⟨rfl, rfl, h.wireHeaders⟩
      dsimp only
      split
      · exact alike_follow _ _ hrequest
      · exact alike_sendPlain _ hrequest

end NetBoot.Http
