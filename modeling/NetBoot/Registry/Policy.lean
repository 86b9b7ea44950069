import NetBoot.Text.Blank

namespace NetBoot

structure RegistryPolicy where
  allowed : Option (List Text)
  blocked : Option (List Text)
  deriving DecidableEq, Repr

namespace RegistryPolicy

def items (list : Text) : List Text :=
  ((Text.splitAll ',' list).map Text.trim).filter fun t => t ≠ []

def configured (list : Text) : Option (List Text) :=
  if items list = [] then none else some (items list)

def ofLists (allowed blocked : Text) : RegistryPolicy := ⟨configured allowed, configured blocked⟩

def denyAll : RegistryPolicy := ⟨none, none⟩

def admits (p : RegistryPolicy) (domain : Text) : Bool :=
  match p.allowed, p.blocked with
  | some allowed, _ => domain ∈ allowed
  | none, some blocked => domain ∉ blocked
  | none, none => false

inductive Mode where
  | allowList
  | blockList
  | denyAll
  deriving DecidableEq, Repr

def mode (p : RegistryPolicy) : Mode :=
  match p.allowed, p.blocked with
  | some _, _ => .allowList
  | none, some _ => .blockList
  | none, none => .denyAll

def Mode.toText : Mode → Text
  | .allowList => "allow-list".toList
  | .blockList => "block-list".toList
  | .denyAll => "deny-all".toList

def allowedVariable : Text := "ALLOWED_REGISTRIES".toList

def blockedVariable : Text := "BLOCKED_REGISTRIES".toList

def ofEnvironment (environment : Text → Option Text) : RegistryPolicy :=
  ofLists ((environment allowedVariable).getD []) ((environment blockedVariable).getD [])

end RegistryPolicy

end NetBoot
