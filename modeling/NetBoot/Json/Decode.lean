import NetBoot.Json.Tree

namespace NetBoot.Json

/-- What is wrong with a value that is not of the kind asked for: a scalar is read first, an array
or object is refused at its bracket. -/
def Tree.mismatch : Tree → Fault
  | .fault read _ => read
  | .garbled => .malformed
  | .number true => .malformed
  | _ => .unfit

def Tree.toText : Tree → Except Fault Text
  | .text t => .ok t
  | v => .error v.mismatch

def Tree.toNatural (bound : Nat) : Tree → Except Fault Nat
  | .natural n => if n < bound then .ok n else .error .unfit
  | v => .error v.mismatch

def Tree.toOption {α : Type} (read : Tree → Except Fault α) : Tree → Except Fault (Option α)
  | .null => .ok none
  | v => (read v).map some

def Items.toList {α : Type} (read : Tree → Except Fault α) : Items → Except Fault (List α)
  | .close => .ok []
  | .fault f => .error f
  | .item v rest =>
      match read v with
      | .error f => .error f
      | .ok a => (rest.toList read).map (a :: ·)

def Tree.toList {α : Type} (read : Tree → Except Fault α) : Tree → Except Fault (List α)
  | .array items => items.toList read
  | v => .error v.mismatch

def Members.fold {σ : Type} (step : σ → Text → Tree → Except Fault σ) :
    σ → Members → Except Fault σ
  | s, .close => .ok s
  | _, .fault read _ => .error read
  | _, .member none _ _ => .error .malformed
  | s, .member (some k) v rest =>
      match step s k v with
      | .error f => .error f
      | .ok s' => rest.fold step s'

def passOver {σ : Type} (s : σ) (v : Tree) : Except Fault σ :=
  match v.skipFault with
  | some f => .error f
  | none => .ok s

def once {α : Type} (slot : Option α) (read : Tree → Except Fault α) (v : Tree) :
    Except Fault (Option α) :=
  match slot with
  | some _ => .error .unfit
  | none => (read v).map some

def required {α : Type} : Option α → Except Fault α
  | some a => .ok a
  | none => .error .unfit

def Items.next {α : Type} (read : Tree → Except Fault α) (absent : Except Fault α) :
    Items → Except Fault (α × Items)
  | .close => absent.map fun a => (a, .close)
  | .fault f => .error f
  | .item v rest => (read v).map fun a => (a, rest)

def Items.finish : Items → Except Fault Unit
  | .close => .ok ()
  | .fault f => .error f
  | .item .. => .error .malformed

def Tree.toRecord {σ α : Type} (step : σ → Text → Tree → Except Fault σ) (start : σ)
    (build : σ → Except Fault α) (inOrder : Items → Except Fault (α × Items)) :
    Tree → Except Fault α
  | .object members => (members.fold step start).bind build
  | .array items =>
      (inOrder items).bind fun p => p.2.finish.map fun _ => p.1
  | v => .error v.mismatch

end NetBoot.Json
