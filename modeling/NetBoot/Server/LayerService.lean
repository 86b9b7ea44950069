import NetBoot.Registry.Policy
import NetBoot.Registry.Resolver
import NetBoot.Server.BlobRelay
import NetBoot.Server.LayerRequest

namespace NetBoot

/-- A computation that serves a boot client. What it learns of registries outlives its failure. -/
abbrev Boot := ExceptT BootError (StateT AuthCache Http.Calls)

namespace Boot

def ofExcept {α : Type} (x : Except BootError α) : Boot α := ExceptT.mk (pure x)

def ofSession {α : Type} (x : Session α) : Boot α :=
  ExceptT.mk fun cache => (x.run cache).bind fun p => .done (p.1.mapError .registry, p.2)

def ofRelay {α : Type} (x : Relay α) : Boot α :=
  ExceptT.mk fun cache => x.run.bind fun r => .done (r, cache)

end Boot

structure LayerService where
  registry : RegistryConfig
  policy : RegistryPolicy
  architecture : Text
  deriving DecidableEq, Repr

namespace LayerService

open Http

def resolver (s : LayerService) : Resolver := { config := s.registry }

def admittedImage (p : RegistryPolicy) (imageName : Text) : Except RegistryError ImageName := do
  let image ← ImageName.parse imageName
  if p.admits image.registry then return image else throw (.registryNotAllowed image.registry)

def digestOf (s : LayerService) (request : LayerRequest) (auth : Option Text) : Fetch Digest :=
  match request.layer with
  | .digest d => return d
  | .artifact version kind => do
      let reference ← Fetch.ofExcept (ImageReference.withTag request.imageName version)
      let a ← s.resolver.resolveWith reference s.architecture [kind] auth
      let layer ← Fetch.ofExcept (Resolver.take kind a)
      match Digest.parse? layer.digest with
      | some d => return d
      | none => throw (.invalidDigest layer.digest)

def serve (s : LayerService) (inbound : Headers) (request : LayerRequest) : Boot Response := do
  let image ← Boot.ofExcept ((admittedImage s.policy request.imageName).mapError .registry)
  let (_, auth) ← Boot.ofSession (Resolver.negotiate s.registry image)
  let d ← Boot.ofSession (Session.ofFetch (s.digestOf request auth))
  Boot.ofRelay (BlobRelay.relay s.registry inbound image d auth)

def serveQuery (s : LayerService) (inbound : Headers) (q : ImageQuery) : Boot Response := do
  s.serve inbound (← Boot.ofExcept (LayerRequest.ofQuery q))

def serveBootPath (s : LayerService) (inbound : Headers) (path : Text) : Boot Response := do
  s.serve inbound (← Boot.ofExcept (LayerRequest.ofBootPath path))

end LayerService

end NetBoot
