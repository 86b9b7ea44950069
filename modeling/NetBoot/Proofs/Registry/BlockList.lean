import NetBoot.Http.Message
import NetBoot.Image.Name
import NetBoot.Proofs.Url.Authority
import NetBoot.Registry.Client
import NetBoot.Registry.Policy

namespace NetBoot

open Http Registry

namespace Url

variable {u v : Url}

theorem port_eq_of_portOrDefault? (hscheme : u.scheme = v.scheme)
    (hu : ∀ n ∈ u.port, defaultPort? u.scheme ≠ some n)
    (hv : ∀ n ∈ v.port, defaultPort? v.scheme ≠ some n)
    (h : u.portOrDefault? = v.portOrDefault?) : u.port = v.port := by
  simp only [portOrDefault?, ← hscheme] at h
  rw [← hscheme] at hv
  cases hport : u.port with
  | none =>
      cases hport' : v.port with
      | none => rfl
      | some n =>
          rw [hport, hport'] at h
          exact absurd h (hv n hport')
  | some n =>
      cases hport' : v.port with
      | none =>
          rw [hport, hport'] at h
          exact absurd h.symm (hu n hport)
      | some m =>
          rw [hport, hport'] at h
          exact h

end Url

namespace RegistryPolicy

variable {allowed blocked domain item : Text} {c : RegistryConfig} {u v : Url}

theorem admits_eq_false_iff (hallowed : items allowed = []) (hblocked : items blocked ≠ []) :
    (ofLists allowed blocked).admits domain = false ↔ domain ∈ items blocked := by
  simp [ofLists, configured, admits, hallowed, hblocked]

theorem blocked_as_spelled (hallowed : items allowed = []) (hitem : item ∈ items blocked)
    (hu : Url.parse? (probeUrl c domain) = some u) (hv : Url.parse? (probeUrl c item) = some v)
    (hhost : u.hostText = v.hostText) (hport : u.portOrDefault? = v.portOrDefault?) :
    ((ofLists allowed blocked).admits domain = false ↔ domain ∈ items blocked) ∧
      (u.scheme = v.scheme → domain = Message.hostField u → item = Message.hostField v →
        (ofLists allowed blocked).admits domain = false) := by
  have hiff : (ofLists allowed blocked).admits domain = false ↔ domain ∈ items blocked :=
    admits_eq_false_iff hallowed (List.ne_nil_of_mem hitem)
  refine ⟨hiff, fun hscheme hdomain hspelled => hiff.2 ?_⟩
  have hsame : u.port = v.port :=
    Url.port_eq_of_portOrDefault? hscheme (Url.port_of_parse? hu) (Url.port_of_parse? hv) hport
  have heq : Message.hostField u = Message.hostField v := by
    rw [Message.hostField, Message.hostField, hhost, hsame]
  rw [hdomain, heq, ← hspelled]
  exact hitem

theorem local_registry_blocked_as_spelled :
    let place := "localhost:5000".toList
    let policy := ofLists ", ".toList "docker.io, localhost:5000".toList
    items ", ".toList = [] ∧ place ∈ items "docker.io, localhost:5000".toList ∧
      ∃ u, Url.parse? (probeUrl {} place) = some u ∧ place = Message.hostField u ∧
        policy.admits place = false := by
  intro place policy
  have hallowed : items ", ".toList = [] := by decide
  have hitem : place ∈ items "docker.io, localhost:5000".toList := by decide
  obtain ⟨u, hu⟩ : ∃ u, Url.parse? (probeUrl {} place) = some u := ⟨_, rfl⟩
  have hspelled : place = Message.hostField u := by
    cases hu
    decide
  exact ⟨hallowed, hitem, u, hu, hspelled,
    (blocked_as_spelled hallowed hitem hu hu rfl rfl).2 rfl hspelled hspelled⟩

def blockedPlace : Url.Place where
  host := "ghcr.io".toList
  port := none
  host_ne_nil := by decide
  host_inert := by decide
  host_closed := by decide
  port_digits := by simp

def SameEndpoint (c : RegistryConfig) (domain item : Text) : Prop :=
  ∃ u v, Url.parse? (probeUrl c domain) = some u ∧ Url.parse? (probeUrl c item) = some v ∧
    u.hostText = v.hostText ∧ u.portOrDefault? = v.portOrDefault?

theorem spelled_differently_admitted :
    let policy := ofLists [] blockedPlace.toText
    (∀ domain ∈ ["GHCR.io".toList, "ghcr.io:443".toList, "u@ghcr.io".toList, "ghcr%2Eio:".toList,
        "ghcr.io?".toList],
      (∃ image, ImageName.parse (domain ++ "/org/os".toList) = .ok image ∧
        image.registry = domain) ∧
      SameEndpoint {} domain blockedPlace.toText ∧ policy.admits domain = true) ∧
    SameEndpoint { insecureRegistries := ["ghcr.io:443".toList] } "ghcr.io:443".toList
      blockedPlace.toText := by
  intro policy
  refine ⟨fun domain hdomain => ?_, ⟨_, _, rfl, rfl, by decide, by decide⟩⟩
  simp only [List.mem_cons, List.not_mem_nil, or_false] at hdomain
  rcases hdomain with rfl | rfl | rfl | rfl | rfl
  · exact ⟨⟨_, rfl, rfl⟩, ⟨_, _, rfl, rfl, by decide, by decide⟩, by decide⟩
  · exact ⟨⟨_, rfl, rfl⟩, ⟨_, _, rfl, rfl, by decide, by decide⟩, by decide⟩
  · exact ⟨⟨_, rfl, rfl⟩, ⟨_, _, rfl, rfl, by decide, by decide⟩, by decide⟩
  · exact ⟨⟨_, rfl, rfl⟩, ⟨_, _, rfl, rfl, by decide, by decide⟩, by decide⟩
  · exact ⟨⟨_, rfl, rfl⟩, ⟨_, _, rfl, rfl, by decide, by decide⟩, by decide⟩

end RegistryPolicy

end NetBoot
