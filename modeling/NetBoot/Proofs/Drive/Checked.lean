import NetBoot.Proofs.Drive.Queue

namespace NetBoot.DriveCache

def word : Nat := 2 ^ 64

def addChecked (a b : Nat) : Option Nat := if a + b < word then some (a + b) else none

def subChecked (a b : Nat) : Option Nat := if b ≤ a then some (a - b) else none

def deleteChecked (key : Text) (c : DriveCache) : Option DriveCache :=
  match c.find? key with
  | none => some c
  | some e =>
      (subChecked c.size e.payload.length).map fun size =>
        { c with entries := c.entries.filter fun p => p.1 ≠ key, size }

/-- The loop of evictions: nothing comes out if a sum is too large, or nothing is left to evict. -/
def makeRoomChecked (needed : Nat) : (count : Nat) → DriveCache → Option DriveCache
  | 0, c => do
      let sum ← addChecked c.size needed
      if sum ≤ c.maxSize then some c else none
  | count + 1, c => do
      let sum ← addChecked c.size needed
      if sum ≤ c.maxSize then some c
      else
        let p ← oldest? c.entries
        let c ← deleteChecked p.1 c
        makeRoomChecked needed count c

def storeChecked (key : Text) (payload : Bytes) (version : Text) (now : Time) (c : DriveCache) :
    Option DriveCache := do
  let nextSequence ← addChecked c.nextSequence 1
  let size ← addChecked c.size payload.length
  return { c with
    entries := (key, ⟨payload, version, now, c.nextSequence⟩) :: c.entries, size, nextSequence }

def setChecked (key : Text) (payload : Bytes) (version : Text) (now : Time) (c : DriveCache) :
    Option DriveCache := do
  let c ← deleteChecked key c
  if c.maxSize < payload.length then some c
  else
    let c ← makeRoomChecked payload.length c.length c
    storeChecked key payload version now c

def sweepChecked (now : Time) (c : DriveCache) : Option (DriveCache × Nat) := do
  let swept ← (c.expired now).foldlM (fun c key => deleteChecked key c) c
  return (swept, (c.expired now).length)

def performChecked (now : Time) (op : DriveOperation) (c : DriveCache) :
    Option (DriveAnswer × DriveCache) :=
  match op with
  | .set key payload version => (c.setChecked key payload version now).map fun c => (.done, c)
  | .get key => some (.payload (c.get key now), c)
  | .getIfCurrent key version => some (.payload (c.getIfCurrent key version now), c)
  | .delete key => (c.deleteChecked key).map fun c => (.done, c)
  | .sweep => (c.sweepChecked now).map fun p => (.removed p.2, p.1)

def performAllChecked : DriveOperation.Run → DriveCache → Option (List DriveAnswer × DriveCache)
  | [], c => some ([], c)
  | (now, op) :: rest, c => do
      let first ← performChecked now op c
      let others ← performAllChecked rest first.2
      return (first.1 :: others.1, others.2)

end NetBoot.DriveCache
