import Mathlib.Algebra.Ring.Nat
import NetBoot.Drive.Cache

namespace NetBoot

inductive DriveOperation where
  | set (key : Text) (payload : Bytes) (version : Text)
  | get (key : Text)
  | getIfCurrent (key version : Text)
  | delete (key : Text)
  | sweep
  deriving DecidableEq, Repr

inductive DriveAnswer where
  | done
  | payload (found : Option Bytes)
  | removed (count : Nat)
  deriving DecidableEq, Repr

namespace DriveOperation

abbrev Run := List (Time × DriveOperation)

def isSet : DriveOperation → Bool
  | .set .. => true
  | _ => false

def sets (steps : Run) : Nat := steps.countP fun step => step.2.isSet

def performAll {S : Type} (perform : Time → DriveOperation → S → DriveAnswer × S) :
    Run → S → List DriveAnswer × S
  | [], s => ([], s)
  | (now, op) :: rest, s =>
      let first := perform now op s
      let others := performAll perform rest first.2
      (first.1 :: others.1, others.2)

end DriveOperation

def DriveCache.perform (now : Time) (op : DriveOperation) (c : DriveCache) :
    DriveAnswer × DriveCache :=
  match op with
  | .set key payload version => (.done, c.set key payload version now)
  | .get key => (.payload (c.get key now), c)
  | .getIfCurrent key version => (.payload (c.getIfCurrent key version now), c)
  | .delete key => (.done, c.delete key)
  | .sweep => (.removed (c.sweep now).2, (c.sweep now).1)

def DriveCache.performAll (steps : DriveOperation.Run) (c : DriveCache) :
    List DriveAnswer × DriveCache :=
  DriveOperation.performAll DriveCache.perform steps c

structure DriveItem where
  key : Text
  payload : Bytes
  version : Text
  inserted : Time
  deriving DecidableEq, Repr

abbrev DriveQueue := List DriveItem

namespace DriveQueue

def total (q : DriveQueue) : Nat := (q.map fun x => x.payload.length).sum

def remove (key : Text) (q : DriveQueue) : DriveQueue := q.filter fun x => x.key ≠ key

def dropToFit (maxSize needed : Nat) : DriveQueue → DriveQueue
  | [] => []
  | x :: rest =>
      if total (x :: rest) + needed ≤ maxSize then x :: rest else dropToFit maxSize needed rest

def set (maxSize : Nat) (key : Text) (payload : Bytes) (version : Text) (now : Time)
    (q : DriveQueue) : DriveQueue :=
  if maxSize < payload.length then remove key q
  else dropToFit maxSize payload.length (remove key q) ++ [⟨key, payload, version, now⟩]

def isFresh (ttl now : Time) (x : DriveItem) : Bool := now - x.inserted ≤ ttl

def find? (key : Text) (q : DriveQueue) : Option DriveItem := List.find? (fun x => x.key = key) q

def perform (ttl : Time) (maxSize : Nat) (now : Time) (op : DriveOperation) (q : DriveQueue) :
    DriveAnswer × DriveQueue :=
  match op with
  | .set key payload version => (.done, set maxSize key payload version now q)
  | .get key => (.payload (((find? key q).filter (isFresh ttl now)).map DriveItem.payload), q)
  | .getIfCurrent key version =>
      (.payload (((find? key q).filter fun x => isFresh ttl now x && x.version = version).map
        DriveItem.payload), q)
  | .delete key => (.done, remove key q)
  | .sweep =>
      (.removed (q.filter fun x => !isFresh ttl now x).length, q.filter (isFresh ttl now))

def performAll (ttl : Time) (maxSize : Nat) (steps : DriveOperation.Run) (q : DriveQueue) :
    List DriveAnswer × DriveQueue :=
  DriveOperation.performAll (perform ttl maxSize) steps q

theorem dropToFit_of_fits {maxSize needed : Nat} {q : DriveQueue}
    (h : total q + needed ≤ maxSize) : dropToFit maxSize needed q = q := by
  cases q with
  | nil => rfl
  | cons x rest => rw [dropToFit, if_pos h]

theorem dropToFit_eq_drop {maxSize needed : Nat} (h : needed ≤ maxSize) (q : DriveQueue) :
    ∃ n, dropToFit maxSize needed q = q.drop n ∧ total (q.drop n) + needed ≤ maxSize ∧
      ∀ k < n, maxSize < total (q.drop k) + needed := by
  induction q with
  | nil => exact ⟨0, rfl, by simpa [total] using h, nofun⟩
  | cons x rest ih =>
      by_cases hfits : total (x :: rest) + needed ≤ maxSize
      · exact ⟨0, by rw [dropToFit, if_pos hfits]; rfl, hfits, nofun⟩
      · obtain ⟨n, hdrop, htotal, hshortest⟩ := ih
        refine ⟨n + 1, by rw [dropToFit, if_neg hfits]; exact hdrop, htotal, fun k hk => ?_⟩
        cases k with
        | zero => exact Nat.lt_of_not_le hfits
        | succ k => exact hshortest k (by omega)

end DriveQueue

end NetBoot
