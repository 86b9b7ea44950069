import NetBoot.Http.Status
import NetBoot.Image.Digest
import NetBoot.Image.Name
import NetBoot.Registry.Config
import NetBoot.Registry.Info
import NetBoot.Registry.Token

namespace NetBoot

abbrev Fetch := ExceptT RegistryError Http.Calls

abbrev Session := ExceptT RegistryError (StateT AuthCache Http.Calls)

def Fetch.ofExcept {α : Type} (x : Except RegistryError α) : Fetch α := ExceptT.mk (.done x)

def Session.ofFetch {α : Type} (x : Fetch α) : Session α :=
  ExceptT.mk fun cache => x.run.bind fun r => .done (r, cache)

def Session.ofExcept {α : Type} (x : Except RegistryError α) : Session α :=
  Session.ofFetch (Fetch.ofExcept x)

namespace Registry

open Http

def blobUrl (c : RegistryConfig) (image : ImageName) (d : Digest) : Text :=
  c.baseUrl image.registry ++ "/v2/".toList ++ image.repository ++ "/blobs/".toList ++ d.toText

def manifestUrl (c : RegistryConfig) (image : ImageName) (reference : Text) : Text :=
  c.baseUrl image.registry ++ "/v2/".toList ++ image.repository ++ "/manifests/".toList ++
    reference

def probeUrl (c : RegistryConfig) (domain : Text) : Text := c.baseUrl domain ++ "/v2/".toList

def challengeName : Text := "www-authenticate".toList

def infoOfProbe (domain repository url : Text) (r : Reply) : Except RegistryError RegistryInfo :=
  if r.status = 200 then .ok (.anonymous domain)
  else if r.status = 401 then
    match (r.headers.readable? challengeName).filter fun v => Text.trim v ≠ [] with
    | none => .error (.missingChallenge domain)
    | some header =>
        match Challenge.parse header with
        | .ok challenge => .ok (.ofChallenge domain challenge repository)
        | .error (.unsupported text) => .error (.unsupportedAuth text)
        | .error .splitCharacter => .error .brokenChallenge
  else .error (.unexpectedProbeStatus url r.status)

def probe (c : RegistryConfig) (domain : Text) : Call :=
  ⟨.following, .get, probeUrl c domain, []⟩

def detect (c : RegistryConfig) (domain repository : Text) : Fetch RegistryInfo := do
  match ← call (probe c domain) with
  | .error e => throw (.connectionFailed (probeUrl c domain) e)
  | .ok r => Fetch.ofExcept (infoOfProbe domain repository (probeUrl c domain) r)

def registryInfo (c : RegistryConfig) (domain repository : Text) : Session RegistryInfo := do
  match (← get).get? domain with
  | some info => return info
  | none =>
      let info ← Session.ofFetch (detect c domain repository)
      modify (AuthCache.insert info)
      return info

def tokenOfReply (r : Reply) : Except RegistryError Text :=
  if r.isSuccess then
    match r.bytes.toOption.map TokenResponse.ofBytes with
    | some (.ok response) =>
        match response.chosen with
        | some token => .ok token
        | none => .error (.authenticationFailed "token endpoint returned no token".toList)
    | _ =>
        .error (.authenticationFailed
          ("invalid token response: ".toList ++ CallError.undecodedBody.message))
  else
    .error (.authenticationFailed ("token endpoint returned ".toList ++ statusText r.status))

def tokenCall (url : Text) : Call := ⟨.following, .get, url, []⟩

def bearerToken (url : Text) : Fetch Text := do
  match ← call (tokenCall url) with
  | .error e =>
      throw (.authenticationFailed ("token request failed: ".toList ++ e.message))
  | .ok r => Fetch.ofExcept (tokenOfReply r)

def bearerHeader (token : Text) : Text := "Bearer ".toList ++ token

def authorization (info : RegistryInfo) (repository : Text) : Fetch (Option Text) :=
  match info.method with
  | .none => return none
  | .basic => throw (.notImplemented "basic auth".toList)
  | .bearer =>
      match info.tokenUrlFor repository with
      | none =>
          throw (.authenticationFailed "bearer challenge without a usable realm".toList)
      | some url => do
          let token ← bearerToken url
          if Headers.isLegal (bearerHeader token) then return some (bearerHeader token)
          else throw (.authenticationFailed "Invalid token".toList)

def credentials (auth : Option Text) : Headers :=
  match auth with
  | some value => [(authorizationName, value)]
  | none => []

def ofCallError (e : CallError) : RegistryError :=
  match e.unreachedUrl? with
  | some url => .connectionFailed url e
  | none => .httpError 0 e.message

def callOrFail (c : Call) : Fetch Reply := do
  match ← call c with
  | .error e => throw (ofCallError e)
  | .ok r => return r

end Registry

end NetBoot
