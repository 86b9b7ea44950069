import NetBoot.Text.Basic

namespace NetBoot

abbrev Time := Nat

def millisecond : Time := 1000000

namespace DriveCache

structure Entry where
  payload : Bytes
  version : Text
  inserted : Time
  /-- Counts insertions, so that entries of one moment keep their order. -/
  sequence : Nat
  deriving DecidableEq, Repr

namespace Entry

def age (now : Time) (e : Entry) : Time := now - e.inserted

def isOlder (a b : Entry) : Bool :=
  a.inserted < b.inserted || (a.inserted = b.inserted && a.sequence < b.sequence)

end Entry

end DriveCache

structure DriveCache where
  ttl : Time
  maxSize : Nat
  entries : List (Text × DriveCache.Entry) := []
  size : Nat := 0
  nextSequence : Nat := 0
  deriving DecidableEq, Repr

namespace DriveCache

def length (c : DriveCache) : Nat := c.entries.length

def isEmpty (c : DriveCache) : Bool := c.entries.isEmpty

def find? (key : Text) (c : DriveCache) : Option Entry := List.lookup key c.entries

def isFresh (c : DriveCache) (now : Time) (e : Entry) : Bool := e.age now ≤ c.ttl

def get (key : Text) (now : Time) (c : DriveCache) : Option Bytes :=
  ((c.find? key).filter (c.isFresh now)).map Entry.payload

def getIfCurrent (key version : Text) (now : Time) (c : DriveCache) : Option Bytes :=
  ((c.find? key).filter fun e => c.isFresh now e && e.version = version).map Entry.payload

def delete (key : Text) (c : DriveCache) : DriveCache :=
  match c.find? key with
  | none => c
  | some e =>
      { c with
        entries := c.entries.filter fun p => p.1 ≠ key
        size := c.size - e.payload.length }

def oldest? : List (Text × Entry) → Option (Text × Entry)
  | [] => none
  | p :: rest =>
      match oldest? rest with
      | none => some p
      | some q => if q.2.isOlder p.2 then some q else some p

/-- Evicts the oldest entries, at most `count`, until `needed` more bytes fit in. If they do not
fit into the cache without entries either, that cache is the error. -/
def makeRoom (needed : Nat) : (count : Nat) → DriveCache → Except DriveCache DriveCache
  | 0, c => if c.size + needed ≤ c.maxSize then .ok c else .error c
  | count + 1, c =>
      if c.size + needed ≤ c.maxSize then .ok c
      else
        match oldest? c.entries with
        | none => .error c
        | some p => makeRoom needed count (c.delete p.1)

def store (key : Text) (payload : Bytes) (version : Text) (now : Time) (c : DriveCache) :
    DriveCache :=
  { c with
    entries := (key, ⟨payload, version, now, c.nextSequence⟩) :: c.entries
    size := c.size + payload.length
    nextSequence := c.nextSequence + 1 }

def set (key : Text) (payload : Bytes) (version : Text) (now : Time) (c : DriveCache) :
    DriveCache :=
  let c := c.delete key
  if c.maxSize < payload.length then c
  else
    match c.makeRoom payload.length c.length with
    | .ok c => c.store key payload version now
    | .error c => c.store key payload version now

def expired (now : Time) (c : DriveCache) : List Text :=
  (c.entries.filter fun p => !c.isFresh now p.2).map Prod.fst

def sweep (now : Time) (c : DriveCache) : DriveCache × Nat :=
  ((c.expired now).foldl (fun c key => c.delete key) c, (c.expired now).length)

def sweepPeriod (c : DriveCache) : Time := max (c.ttl / 2) millisecond

def sweepTimes (c : DriveCache) (start last now : Time) : List Time :=
  let passed := (last - start) / c.sweepPeriod
  (List.range' (passed + 1) ((now - start) / c.sweepPeriod - passed)).map fun k =>
    start + k * c.sweepPeriod

def sweepThrough (c : DriveCache) (start last now : Time) : DriveCache :=
  (c.sweepTimes start last now).foldl (fun c t => (c.sweep t).1) c

end DriveCache

end NetBoot
