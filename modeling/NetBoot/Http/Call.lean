import NetBoot.Http.Dialogue
import NetBoot.Http.Header
import NetBoot.Url.Parser

namespace NetBoot.Http

inductive Method where
  | get
  | head
  deriving DecidableEq, Repr

def Method.toText : Method → Text
  | .get => "GET".toList
  | .head => "HEAD".toList

inductive Failure where
  | unreachable
  | timedOut
  | broken
  deriving DecidableEq, Repr

structure TransportFault where
  failure : Failure
  causes : List Text
  deriving DecidableEq, Repr

inductive CallError where
  | unusableUrl
  | unusableScheme (url : Text)
  | unsent (url : Text) (fault : TransportFault)
  | tooManyRedirects (url : Text)
  | undecodedBody
  | stalledBody
  deriving DecidableEq, Repr

namespace CallError

def message : CallError → Text
  | .unusableUrl => "builder error".toList
  | .unusableScheme url => "builder error for url (".toList ++ url ++ [')']
  | .unsent url _ => "error sending request for url (".toList ++ url ++ [')']
  | .tooManyRedirects url => "error following redirect for url (".toList ++ url ++ [')']
  | .undecodedBody | .stalledBody => "error decoding response body".toList

def causes : CallError → List Text
  | .unsent _ fault => fault.causes
  | .tooManyRedirects _ => ["too many redirects".toList]
  | .unusableScheme _ => ["URL scheme is not allowed".toList]
  | .stalledBody => ["request or response body error".toList, "operation timed out".toList]
  | _ => []

/-- What is shown for a URL that did not answer in full. A body does not know where it is from. -/
def unreachedUrl? : CallError → Option Text
  | .unsent url fault => if fault.failure = .broken then none else some url
  | .stalledBody => some "unknown".toList
  | _ => none

end CallError

inductive Client where
  | following
  | plain
  deriving DecidableEq, Repr

structure Call where
  client : Client
  method : Method
  url : Text
  headers : Headers
  deriving DecidableEq, Repr

inductive BodyEnd where
  | whole
  | broken
  | timedOut
  deriving DecidableEq, Repr, Inhabited

def BodyEnd.ofWhole (whole : Bool) : BodyEnd := if whole then .whole else .broken

structure Body where
  bytes : Bytes
  ending : BodyEnd
  length : Option Nat
  deriving DecidableEq, Repr, Inhabited

def Body.whole (b : Body) : Bool := b.ending = .whole

structure Reply where
  url : Url
  status : Nat
  headers : Headers
  body : Body
  deriving DecidableEq, Repr

def Reply.isSuccess (r : Reply) : Bool := 200 ≤ r.status && r.status < 300

def Reply.bytes (r : Reply) : Except CallError Bytes :=
  match r.body.ending with
  | .whole => .ok r.body.bytes
  | .broken => .error .undecodedBody
  | .timedOut => .error .stalledBody

theorem Reply.toOption_bytes (r : Reply) :
    r.bytes.toOption = if r.body.whole then some r.body.bytes else none := by
  rw [Reply.bytes, Body.whole]
  cases r.body.ending <;> rfl

abbrev Calls := Dialogue Call (Except CallError Reply)

def call (c : Call) : Calls (Except CallError Reply) := Dialogue.question c

end NetBoot.Http
