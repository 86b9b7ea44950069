import NetBoot.Http.Wire

namespace NetBoot.Http

inductive Delivery where
  | measured
  | chunked
  | untilClosed
  | truncated
  | dropped
  | hanging
  deriving DecidableEq, Repr

structure ScriptEntry where
  url : Text
  method : Option Text := none
  auth : Option Text := none
  times : Option Nat := none
  status : Nat := 200
  headers : Headers := []
  body : Bytes := []
  delivery : Delivery := .measured
  deriving DecidableEq, Repr

structure Script where
  entries : List (ScriptEntry × Nat)
  log : List Request := []

namespace Script

def ofEntries (entries : List ScriptEntry) : Script where
  entries := entries.map fun e => (e, 0)

def agrees {α : Type} [DecidableEq α] (wanted : Option α) (actual : Option α) : Bool :=
  match wanted with
  | none => true
  | some _ => wanted = actual

def matchesRequest (r : Request) (e : ScriptEntry) (used : Nat) : Bool :=
  e.url = r.url.toText && agrees e.method (some r.method.toText) &&
    agrees e.auth (r.headers.first? authorizationName) &&
    match e.times with
    | none => true
    | some n => used < n

def use (r : Request) :
    List (ScriptEntry × Nat) → Option ScriptEntry × List (ScriptEntry × Nat)
  | [] => (none, [])
  | (e, used) :: rest =>
      if matchesRequest r e used then (some e, (e, used + 1) :: rest)
      else ((use r rest).1, (e, used) :: (use r rest).2)

def hasNoBody (status : Nat) : Bool := status = 204 || status = 304

def announced (e : ScriptEntry) : Option Nat :=
  match (e.headers.first? contentLengthName).bind Text.natural? with
  | some n => some n
  | none =>
      match e.delivery with
      | .measured => if hasNoBody e.status then none else some e.body.length
      | .truncated => some (e.body.length + 10)
      | _ => none

def headersOf (e : ScriptEntry) : Headers :=
  let hs : Headers := e.headers.map fun h =>
    (Text.lower h.1, Text.trimWith (fun c => c = ' ' || c = '\t') h.2)
  match e.delivery, announced e with
  | .chunked, _ => hs ++ [("transfer-encoding".toList, "chunked".toList)]
  | _, some n => hs.setDefault contentLengthName (Text.digits n)
  | _, none => hs

def bodyOf (e : ScriptEntry) : Body :=
  if hasNoBody e.status then ⟨[], .whole, some 0⟩
  else
    match announced e with
    | some n => ⟨e.body.take n, .ofWhole (n ≤ e.body.length), some n⟩
    | none => ⟨e.body, .whole, none⟩

def answerOf (method : Method) (e : ScriptEntry) : Answer :=
  match e.delivery with
  | .dropped => .failed ⟨.broken, []⟩
  | .hanging => .failed ⟨.timedOut, ["operation timed out".toList]⟩
  | _ =>
      .response e.status (headersOf e)
        (match method with
          | .get => bodyOf e
          | .head => ⟨[], .whole, none⟩)

def missing : ScriptEntry := { url := [], status := 404 }

def answer : Network Script := fun r s =>
  if r.url.scheme = "https".toList then (.failed ⟨.unreachable, []⟩, { s with log := r :: s.log })
  else
    let (entry, entries) := use r s.entries
    (answerOf r.method (entry.getD missing), { entries := entries, log := r :: s.log })

end Script

end NetBoot.Http
