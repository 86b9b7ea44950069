import NetBoot.Proofs.CommandLine.Resolved
import NetBoot.Proofs.Registry.Landing
import NetBoot.Proofs.Registry.LayerByKind
import NetBoot.Proofs.Registry.Remembering
import NetBoot.Proofs.Server.Pipeline

namespace NetBoot

open Http Registry
open Dialogue (Holds steady result_ask result_done result_bind questions_bind trace_run)

variable {answer : Call → Except CallError Reply} {cache : AuthCache} {image : ImageName}

namespace LayerService

variable {s : LayerService} {inbound : Headers} {request : LayerRequest}

def lookup (s : LayerService) (request : LayerRequest) (image : ImageName) (info : RegistryInfo) :
    Fetch (Option Text × Digest) := do
  let auth ← authorization info image.repository
  let d ← s.digestOf request auth
  return (auth, d)

theorem prepare_eq (s : LayerService) (request : LayerRequest) (image : ImageName) :
    s.prepare request image = informed s.registry image (s.lookup request image) := by
  unfold lookup
  simp only [prepare, Resolver.negotiate, informed, bind_assoc, pure_bind, Session.ofFetch_bind]
  rfl

theorem Learnt.serve (h : Learnt s.registry answer cache) :
    Learnt s.registry answer
      (((s.serve inbound request).run.run cache).result (steady answer) ()).2 := by
  cases himage : admittedImage s.policy request.imageName with
  | error e =>
      rw [LayerService.serve, run_bind_ofExcept, himage]
      exact h
  | ok image =>
      rw [run_serve_of_admitted himage, result_bind, result_bind, prepare_eq]
      exact h.informed image _

end LayerService

namespace Router

variable {s : LayerService} {provider : DriveProvider} {now : Time} {r : BootRequest}
  {st : ServerState}

theorem Learnt.served (h : Learnt s.registry answer st.auth) :
    Learnt s.registry answer
      ((serve s provider now r st).result (steady answer) ()).state.auth := by
  rw [serve, result_bind]
  cases hrequest : layerRequest? r with
  | none =>
      have hdone : ∃ served, serveMethod s provider now r st = .done served ∧
          served.state.auth = st.auth := serveMethod_of_no_layerRequest hrequest
      obtain ⟨served, hserved, hauth⟩ := hdone
      rw [hserved]
      exact hauth ▸ h
  | some request =>
      rw [serveMethod_of_layerRequest hrequest, ofBoot_eq, result_bind]
      exact LayerService.Learnt.serve h

end Router

end NetBoot
