import NetBoot.Http.Call
import NetBoot.Server.Error

namespace NetBoot

structure Response where
  status : Nat
  headers : Http.Headers
  body : Http.Body
  deriving DecidableEq, Repr

namespace Response

open Http

def ofBytes (status : Nat) (headers : Headers) (bytes : Bytes) : Response :=
  ⟨status, headers, ⟨bytes, .whole, some bytes.length⟩⟩

def empty (status : Nat) (headers : Headers) : Response := ofBytes status headers []

def plainText : Text := "text/plain; charset=utf-8".toList

def ofText (status : Nat) (text : Text) : Response :=
  ofBytes status [(contentTypeName, plainText)] (Utf8.encode text)

def ofError (e : BootError) : Response := ofText e.notice.status e.notice.text

def withLength (r : Response) : Response :=
  match r.body.length with
  | some n => { r with headers := r.headers.setDefault contentLengthName (Text.digits n) }
  | none => r

def withoutBody (r : Response) : Response := { r with body := ⟨[], .whole, some 0⟩ }

end Response

end NetBoot
