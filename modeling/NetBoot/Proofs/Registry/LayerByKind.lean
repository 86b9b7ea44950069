import NetBoot.Proofs.Dialogue.Runs
import NetBoot.Proofs.Registry.Calls
import NetBoot.Proofs.Success

namespace NetBoot

open Http Registry
open Dialogue (steady)

namespace Selection

variable {architecture : Text} {available : List Descriptor} {kinds : List Artifact}
  {kind : Artifact} {layer : Descriptor} {a : Assignment}

theorem Assignment.get?_cons (kind other : Artifact) (layer : Descriptor) (a : Assignment) :
    get? kind ((other, layer) :: a) = if other = kind then some layer else get? kind a := by
  by_cases h : other = kind <;> simp [get?, h]

theorem Assignment.take?_eq_get? (kind : Artifact) (a : Assignment) :
    take? kind a = get? kind a := by
  induction a with
  | nil => rfl
  | cons p a ih =>
      obtain ⟨other, layer⟩ := p
      rw [get?_cons, ← ih]
      by_cases h : other = kind
      · simp [take?, List.findIdx?_cons, h]
      · have hother : ¬ decide (other = kind) = true := mt of_decide_eq_true h
        rw [take?, take?, List.findIdx?_cons, if_neg h, if_neg hother]
        exact Option.bind_map

end Selection

namespace Resolver

variable {r : Resolver} {reference : ImageReference} {architecture : Text} {kinds : List Artifact}
  {auth : Option Text} {answer : Call → Except CallError Reply} {a : Selection.Assignment}
  {kind : Artifact} {layer : Descriptor}

end Resolver

end NetBoot
