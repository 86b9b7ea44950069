import NetBoot.Http.Credentials

namespace NetBoot.Http

structure Request where
  method : Method
  url : Url
  headers : Headers
  deriving DecidableEq, Repr

inductive Answer where
  | response (status : Nat) (headers : Headers) (body : Body)
  | failed (fault : TransportFault)
  deriving DecidableEq, Repr

abbrev Exchange := Dialogue Request Answer

abbrev Network (σ : Type) := Dialogue.Answerer Request Answer σ

def userAgent : Text := "bootproxy/0.1.0".toList

def withDefaults (hs : Headers) : Headers :=
  Headers.setDefault acceptName "*/*".toList (Headers.setDefault userAgentName userAgent hs)

def isWebScheme (scheme : Text) : Bool := scheme = "http".toList || scheme = "https".toList

def Call.wireHeaders (c : Call) : Headers := withDefaults c.ownHeaders

def target? (url : Text) : Except CallError Url :=
  match Url.parse? url with
  | none => .error .unusableUrl
  | some u =>
      if isWebScheme u.scheme then .ok u.requested
      else .error (.unusableScheme u.requested.toText)

def isRedirect (status : Nat) : Bool :=
  status = 301 || status = 302 || status = 303 || status = 307 || status = 308

def redirectTarget? (url : Url) (status : Nat) (headers : Headers) : Option Url :=
  if isRedirect status then
    match Headers.first? locationName headers with
    | none => none
    | some location => Url.join? url location
  else none

def sameEndpoint (a b : Url) : Bool :=
  a.hostText = b.hostText && a.portOrDefault? = b.portOrDefault?

/-- Where a redirect comes from, as the next server is told. A plain connection is not told of a
secure one. -/
def referer? (previous next : Url) : Option Text :=
  if previous.scheme = "https".toList ∧ next.scheme = "http".toList then none
  else some previous.withoutUser.withoutFragment.toText

def withReferer (referer : Option Text) (hs : Headers) : Headers :=
  match referer with
  | some value => hs.set refererName value
  | none => hs

/-- The request that a redirect asks for: credentials do not leave their endpoint, and those in the
new URL are not sent. -/
def redirected (r : Request) (url : Url) : Request :=
  let headers := withReferer (referer? r.url url) r.headers
  { r with
    url := url
    headers :=
      if sameEndpoint r.url url then headers else Headers.remove authorizationName headers }

def send (r : Request) : Exchange Answer := .question { r with url := r.url.withoutFragment }

def follow (start : Text) : Nat → Request → Exchange (Except CallError Reply)
  | budget, r =>
      (send r).bind fun
        | .failed fault => .done (.error (.unsent start fault))
        | .response status headers body =>
            match redirectTarget? r.url status headers with
            | none => .done (.ok ⟨r.url, status, headers, body⟩)
            | some url =>
                if isWebScheme url.scheme then
                  match budget with
                  | 0 => .done (.error (.tooManyRedirects start))
                  | budget + 1 => follow start budget (redirected r url)
                else .done (.error (.unusableScheme start))

def sendPlain (start : Text) (r : Request) : Exchange (Except CallError Reply) :=
  (send r).bind fun
    | .failed fault => .done (.error (.unsent start fault))
    | .response status headers body => .done (.ok ⟨r.url, status, headers, body⟩)

def redirectLimit : Nat := 10

def perform (c : Call) : Exchange (Except CallError Reply) :=
  match target? c.url with
  | .error e => .done (.error e)
  | .ok url =>
      let r : Request := ⟨c.method, url, c.wireHeaders⟩
      match c.client with
      | .following => follow url.toText redirectLimit r
      | .plain => sendPlain url.toText r

def onWire {α : Type} (d : Calls α) : Exchange α := d.through perform

def unrouted : Network Unit := fun _ s =>
  (.failed ⟨.unreachable,
    ["client error (Connect)".toList, "tcp connect error".toList,
      "Network is unreachable (os error 101)".toList]⟩, s)

end NetBoot.Http
