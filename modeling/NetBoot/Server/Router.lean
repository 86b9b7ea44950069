import NetBoot.Drive.Request
import NetBoot.Http.Target
import NetBoot.Server.Config
import NetBoot.Server.LayerService
import NetBoot.Server.Route

namespace NetBoot

structure BootRequest where
  method : Text
  target : Http.Target
  headers : Http.Headers
  deriving DecidableEq, Repr

structure ServerState where
  auth : AuthCache
  drives : DriveCache

structure Served where
  response : Response
  state : ServerState
  questions : List DriveRequest.Question

namespace Router

open Http

def stateless (st : ServerState) (r : Response) : Served := ⟨r, st, []⟩

def ofBoot (x : Boot Response) (st : ServerState) : Calls Served :=
  (x.run st.auth).bind fun p =>
    .done
      { response :=
          match p.1 with
          | .ok r => r
          | .error e => .ofError e
        state := { st with auth := p.2 }
        questions := [] }

def isoType : Text := "application/x-iso9660-image".toList

def missingDrive : BootError := .invalidRequest "config drive path must end in .iso".toList

def driveId (file : Text) : Except BootError Text :=
  match (Text.before? ".iso".toList file).filter fun id => id ≠ [] with
  | some id => .ok id
  | none => .error missingDrive

def driveResponse (x : Except DriveError Bytes) : Response :=
  match x with
  | .ok image => .ofBytes 200 [(contentTypeName, isoType)] image
  | .error e => .ofError (.drive e)

def serveDriveFile (p : DriveProvider) (now : Time) (file : Text) (st : ServerState) : Served :=
  match driveId file with
  | .error e => stateless st (.ofError e)
  | .ok id =>
      let served := serveDrive p now id st.drives
      ⟨driveResponse served.answer, { st with drives := served.cache }, served.questions⟩

def inTicks (t : Text) : Text := '\x60' :: t ++ ['\x60']

def repeatedParameter (key : Text) : Response :=
  .ofText 400 ("Failed to deserialize query string: duplicate field ".toList ++ inTicks key)

def undecodable (parameter : Text) : Response :=
  .ofText 400 ("Invalid URL: Invalid UTF-8 in ".toList ++ inTicks parameter)

def serveRoute (s : LayerService) (p : DriveProvider) (now : Time) (r : BootRequest)
    (st : ServerState) : Route → Calls Served
  | .image =>
      match ImageQuery.parse (r.target.query.getD []) with
      | .error key => return stateless st (repeatedParameter key)
      | .ok q => ofBoot (s.serveQuery r.headers q) st
  | .httpBoot path =>
      match Route.decode? path with
      | none => return stateless st (undecodable "path".toList)
      | some path => ofBoot (s.serveBootPath r.headers path) st
  | .drive file =>
      match Route.decode? file with
      | none => return stateless st (undecodable "file".toList)
      | some file => return serveDriveFile p now file st
  | .health => return stateless st (.ofText 200 "ok".toList)

def getMethod : Text := Method.get.toText

def headMethod : Text := Method.head.toText

def allowName : Text := "allow".toList

def wrongMethod : Response := .empty 405 [(allowName, "GET,HEAD".toList)]

def unknownPath : Response := .empty 404 []

def serveMethod (s : LayerService) (p : DriveProvider) (now : Time) (r : BootRequest)
    (st : ServerState) : Calls Served :=
  match Route.ofPath? r.target.path with
  | none => return stateless st unknownPath
  | some route =>
      if r.method = getMethod ∨ r.method = headMethod then serveRoute s p now r st route
      else return stateless st wrongMethod

def finished (r : BootRequest) (response : Response) : Response :=
  if r.method = headMethod then response.withLength.withoutBody else response.withLength

def serve (s : LayerService) (p : DriveProvider) (now : Time) (r : BootRequest)
    (st : ServerState) : Calls Served :=
  (serveMethod s p now r st).bind fun served =>
    .done { served with response := finished r served.response }

end Router

end NetBoot
