import NetBoot.Text.Basic

namespace NetBoot.Json

inductive Fault where
  | ended
  | malformed
  | unfit
  deriving DecidableEq, Repr, Inhabited

mutual

inductive Tree where
  /-- No value is found here: `read` is what stops a reader of the value, `skip` what stops one
  that passes over it. -/
  | fault (read skip : Fault)
  | null
  | bool (b : Bool)
  | natural (n : Nat)
  | number (huge : Bool)
  | text (t : Text)
  | garbled
  | array (items : Items)
  | object (members : Members)

inductive Items where
  | close
  | fault (f : Fault)
  | item (value : Tree) (rest : Items)

inductive Members where
  | close
  | fault (read skip : Fault)
  | member (key : Option Text) (value : Tree) (rest : Members)

end

instance : Inhabited Tree := ⟨.null⟩

instance : Inhabited Items := ⟨.close⟩

instance : Inhabited Members := ⟨.close⟩

def Items.ofList : List Tree → Items
  | [] => .close
  | v :: vs => .item v (ofList vs)

def Members.ofList : List (Text × Tree) → Members
  | [] => .close
  | (k, v) :: ms => .member (some k) v (ofList ms)

mutual

def Tree.skipFault : Tree → Option Fault
  | .fault _ skip => some skip
  | .null => none
  | .bool _ => none
  | .natural _ => none
  | .number _ => none
  | .text _ => none
  | .garbled => none
  | .array items => items.skipFault
  | .object members => members.skipFault

def Items.skipFault : Items → Option Fault
  | .close => none
  | .fault f => some f
  | .item v rest => v.skipFault <|> rest.skipFault

def Members.skipFault : Members → Option Fault
  | .close => none
  | .fault _ skip => some skip
  | .member _ v rest => v.skipFault <|> rest.skipFault

end

def Members.lookup (key : Text) : Members → Option Tree
  | .close => none
  | .fault .. => none
  | .member k v rest => if k = some key then some v else rest.lookup key

def Members.keys : Members → List (Option Text)
  | .close => []
  | .fault .. => []
  | .member k _ rest => k :: rest.keys

def Tree.get? (key : Text) : Tree → Option Tree
  | .object members => members.lookup key
  | _ => none

def Tree.asText? : Tree → Option Text
  | .text t => some t
  | _ => none

mutual

/-- Reading a document as generic JSON: every value is read, nesting is limited, and of the members
with one key the last remains. -/
def Tree.generic : Nat → Tree → Except Fault Tree
  | _, .fault read _ => .error read
  | _, .null => .ok .null
  | _, .bool b => .ok (.bool b)
  | _, .natural n => .ok (.natural n)
  | _, .number huge => if huge then .error .malformed else .ok (.number false)
  | _, .text t => .ok (.text t)
  | _, .garbled => .error .malformed
  | depth, .array items =>
      match depth with
      | 0 => .error .malformed
      | d + 1 => (items.generic d).map .array
  | depth, .object members =>
      match depth with
      | 0 => .error .malformed
      | d + 1 => (members.generic d).map .object

def Items.generic : Nat → Items → Except Fault Items
  | _, .close => .ok .close
  | _, .fault f => .error f
  | d, .item v rest =>
      match v.generic d with
      | .error f => .error f
      | .ok v' => (rest.generic d).map (.item v')

def Members.generic : Nat → Members → Except Fault Members
  | _, .close => .ok .close
  | _, .fault read _ => .error read
  | _, .member none _ _ => .error .malformed
  | d, .member (some k) v rest =>
      match v.generic d with
      | .error f => .error f
      | .ok v' =>
          (rest.generic d).map fun rest' =>
            if some k ∈ rest'.keys then rest' else .member (some k) v' rest'

end

def depthLimit : Nat := 127

structure Document where
  tree : Tree
  trailing : Bool

def Document.read {α : Type} (read : Tree → Except Fault α) (d : Document) : Except Fault α :=
  match read d.tree with
  | .error f => .error f
  | .ok a => if d.trailing then .error .malformed else .ok a

def Document.generic (d : Document) : Except Fault Tree := d.read (Tree.generic depthLimit)

def fromGeneric {α : Type} (read : Tree → Except Fault α) (t : Tree) : Except Fault α :=
  (read t).mapError fun _ => .unfit

end NetBoot.Json
