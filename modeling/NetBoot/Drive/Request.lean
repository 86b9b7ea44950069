import NetBoot.Drive.Cache
import NetBoot.Drive.Provider

namespace NetBoot

/-- How far a request for a drive has come. Other requests may take steps between any two of its
own. -/
inductive DriveRequest where
  | opened (id : Text)
  | versioned (id version : Text)
  | missed (id version : Text)
  | rendered (id version : Text) (payload : Bytes)
  | closed (answer : Except DriveError Bytes)

namespace DriveRequest

inductive Question where
  | version (id : Text)
  | render (id : Text)
  deriving DecidableEq, Repr

def question? : DriveRequest → Option Question
  | .opened id => some (.version id)
  | .missed id _ => some (.render id)
  | _ => none

def afterVersion (id : Text) : Except DriveError (Option Text) → DriveRequest
  | .error e => .closed (.error e)
  | .ok none => .closed (.error (.notFound id))
  | .ok (some version) => .versioned id version

def afterLookup (id version : Text) : Option Bytes → DriveRequest
  | some payload => .closed (.ok payload)
  | none => .missed id version

def afterRender (id version : Text) : Except DriveError Bytes → DriveRequest
  | .error e => .closed (.error e)
  | .ok payload => .rendered id version payload

def step (p : DriveProvider) (now : Time) (r : DriveRequest) (c : DriveCache) :
    DriveRequest × DriveCache :=
  match r with
  | .opened id => (afterVersion id (p.version id), c)
  | .versioned id version => (afterLookup id version (c.getIfCurrent id version now), c)
  | .missed id version => (afterRender id version (p.render id), c)
  | .rendered id version payload => (.closed (.ok payload), c.set id payload version now)
  | .closed answer => (.closed answer, c)

structure Served where
  answer : Except DriveError Bytes
  cache : DriveCache
  questions : List Question

def remaining : DriveRequest → Nat
  | .opened .. => 4
  | .versioned .. => 3
  | .missed .. => 2
  | .rendered .. => 1
  | .closed _ => 0

theorem remaining_afterVersion (id : Text) (v : Except DriveError (Option Text)) :
    (afterVersion id v).remaining < 4 := by
  rcases v with e | v
  · simp [afterVersion, remaining]
  · cases v <;> simp [afterVersion, remaining]

theorem remaining_afterLookup (id version : Text) (found : Option Bytes) :
    (afterLookup id version found).remaining < 3 := by
  cases found <;> simp [afterLookup, remaining]

theorem remaining_afterRender (id version : Text) (image : Except DriveError Bytes) :
    (afterRender id version image).remaining < 2 := by
  cases image <;> simp [afterRender, remaining]

theorem remaining_step (p : DriveProvider) (now : Time) {r : DriveRequest} (c : DriveCache)
    (h : r.remaining ≠ 0) : (r.step p now c).1.remaining < r.remaining := by
  cases r with
  | opened id => exact remaining_afterVersion id _
  | versioned id version => exact remaining_afterLookup id version _
  | missed id version => exact remaining_afterRender id version _
  | rendered id version payload => simp [step, remaining]
  | closed answer => simp [remaining] at h

def finish (p : DriveProvider) (now : Time) (r : DriveRequest) (c : DriveCache) : Served :=
  if _h : r.remaining = 0 then
    match r with
    | .closed answer => ⟨answer, c, []⟩
  else
    let next := r.step p now c
    let rest := finish p now next.1 next.2
    { rest with questions := r.question?.toList ++ rest.questions }
termination_by r.remaining
decreasing_by exact remaining_step p now c ‹_›

end DriveRequest

def serveDrive (p : DriveProvider) (now : Time) (id : Text) (c : DriveCache) :
    DriveRequest.Served :=
  DriveRequest.finish p now (.opened id) c

end NetBoot
