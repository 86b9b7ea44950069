import NetBoot.Proofs.Drive.Contents
import NetBoot.Proofs.Server.Admission

namespace NetBoot

namespace DriveRequest

variable {p : DriveProvider} {now : Time} {r : DriveRequest} {c : DriveCache}

theorem finish_closed (p : DriveProvider) (now : Time) (answer : Except DriveError Bytes)
    (c : DriveCache) : finish p now (.closed answer) c = ⟨answer, c, []⟩ := by
  rw [finish]
  rfl

theorem finish_of_remaining (h : r.remaining ≠ 0) :
    finish p now r c =
      let next := r.step p now c
      let rest := finish p now next.1 next.2
      { rest with questions := r.question?.toList ++ rest.questions } := by
  rw [finish, dif_neg h]

theorem finish_rendered (p : DriveProvider) (now : Time) (id version : Text) (payload : Bytes)
    (c : DriveCache) :
    finish p now (.rendered id version payload) c =
      ⟨.ok payload, c.set id payload version now, []⟩ := by
  rw [finish_of_remaining (by simp [remaining])]
  dsimp only [step]
  rw [finish_closed]
  rfl

theorem finish_missed (p : DriveProvider) (now : Time) (id version : Text) (c : DriveCache) :
    finish p now (.missed id version) c =
      match p.render id with
      | .error e => ⟨.error e, c, [.render id]⟩
      | .ok payload => ⟨.ok payload, c.set id payload version now, [.render id]⟩ := by
  rw [finish_of_remaining (by simp [remaining])]
  dsimp only [step]
  cases p.render id with
  | error e =>
      rw [afterRender, finish_closed]
      rfl
  | ok payload =>
      rw [afterRender, finish_rendered]
      rfl

theorem finish_versioned (p : DriveProvider) (now : Time) (id version : Text) (c : DriveCache) :
    finish p now (.versioned id version) c =
      match c.getIfCurrent id version now with
      | some payload => ⟨.ok payload, c, []⟩
      | none => finish p now (.missed id version) c := by
  rw [finish_of_remaining (by simp [remaining])]
  dsimp only [step]
  cases c.getIfCurrent id version now with
  | some payload =>
      rw [afterLookup, finish_closed]
      rfl
  | none => rfl

end DriveRequest

theorem serveDrive_eq (p : DriveProvider) (now : Time) (id : Text) (c : DriveCache) :
    serveDrive p now id c =
      match p.version id with
      | .error e => ⟨.error e, c, [.version id]⟩
      | .ok none => ⟨.error (.notFound id), c, [.version id]⟩
      | .ok (some version) =>
          match c.getIfCurrent id version now with
          | some payload => ⟨.ok payload, c, [.version id]⟩
          | none =>
              match p.render id with
              | .error e => ⟨.error e, c, [.version id, .render id]⟩
              | .ok payload =>
                  ⟨.ok payload, c.set id payload version now, [.version id, .render id]⟩ := by
  rw [serveDrive, DriveRequest.finish_of_remaining (by simp [DriveRequest.remaining])]
  dsimp only [DriveRequest.step]
  cases p.version id with
  | error e =>
      rw [DriveRequest.afterVersion, DriveRequest.finish_closed]
      rfl
  | ok found =>
      cases found with
      | none =>
          rw [DriveRequest.afterVersion, DriveRequest.finish_closed]
          rfl
      | some version =>
          rw [DriveRequest.afterVersion, DriveRequest.finish_versioned, DriveRequest.finish_missed]
          dsimp only
          cases c.getIfCurrent id version now with
          | some payload => rfl
          | none => cases p.render id <;> rfl

namespace DriveTable

theorem get?_insert (id id' version : Text) (image : Bytes) (t : DriveTable) :
    (t.insert id' version image).get? id =
      if id = id' then some (version, image) else t.get? id := by
  by_cases h : id = id'
  · subst h
    simp [get?, insert]
  · have hb : (id == id') = false := by simpa using h
    simp only [get?, insert, List.lookup_cons, hb, if_neg h]
    exact Text.lookup_filter_of_ne h t

theorem get?_erase (id id' : Text) (t : DriveTable) :
    (t.erase id').get? id = if id = id' then none else t.get? id := by
  by_cases h : id = id'
  · subst h
    rw [if_pos rfl]
    exact Text.lookup_filter_self id t
  · rw [if_neg h]
    exact Text.lookup_filter_of_ne h t

theorem serveDrive_provider (t : DriveTable) (now : Time) (id : Text) (c : DriveCache) :
    serveDrive t.provider now id c =
      match t.get? id with
      | none => ⟨.error (.notFound id), c, [.version id]⟩
      | some (version, image) =>
          match c.getIfCurrent id version now with
          | some payload => ⟨.ok payload, c, [.version id]⟩
          | none => ⟨.ok image, c.set id image version now, [.version id, .render id]⟩ := by
  rw [serveDrive_eq]
  dsimp only [provider]
  cases t.get? id with
  | none => rfl
  | some drive => rfl

end DriveTable

namespace Router

theorem driveId_eq_ok {file id : Text} :
    driveId file = .ok id ↔ file = id ++ ".iso".toList ∧ id ≠ [] := by
  unfold driveId
  constructor
  · intro h
    split at h
    · next id' hfilter =>
        cases h
        obtain ⟨hbefore, hid⟩ := Option.filter_eq_some_iff.1 hfilter
        exact ⟨Text.before?_eq_some hbefore, by simpa using hid⟩
    · cases h
  · rintro ⟨rfl, hid⟩
    rw [Text.before?_append, Option.filter_some, if_pos (by simpa using hid)]

theorem eq_missingDrive_of_driveId {file : Text} {e : BootError} (h : driveId file = .error e) :
    e = missingDrive := by
  unfold driveId at h
  split at h
  · cases h
  · cases h
    rfl

def renderDriveFile (p : DriveProvider) (file : Text) : Response :=
  match driveId file with
  | .error e => .ofError e
  | .ok id =>
      match p.version id with
      | .error e => driveResponse (.error e)
      | .ok none => driveResponse (.error (.notFound id))
      | .ok (some _) => driveResponse (p.render id)

theorem renderDriveFile_provider (t : DriveTable) (file : Text) :
    renderDriveFile t.provider file =
      match driveId file with
      | .error e => .ofError e
      | .ok id => driveResponse (t.provider.render id) := by
  unfold renderDriveFile
  cases driveId file with
  | error e => rfl
  | ok id =>
      dsimp only [DriveTable.provider]
      cases t.get? id <;> rfl

theorem renderDriveFile_provider_cases (t : DriveTable) (file : Text) :
    (∃ id version image, file = id ++ ".iso".toList ∧ id ≠ [] ∧ t.get? id = some (version, image) ∧
        renderDriveFile t.provider file = .ofBytes 200 [(Http.contentTypeName, isoType)] image) ∨
      (∀ id, file = id ++ ".iso".toList → id = [] ∨ t.get? id = none) ∧
        (renderDriveFile t.provider file).status = 404 := by
  rw [renderDriveFile_provider]
  cases hid : driveId file with
  | error e =>
      refine .inr ⟨fun id hfile => .inl ?_, ?_⟩
      · refine Decidable.byContradiction fun hne => ?_
        rw [driveId_eq_ok.2 ⟨hfile, hne⟩] at hid
        cases hid
      · rw [eq_missingDrive_of_driveId hid]
        rfl
  | ok id =>
      obtain ⟨hfile, hne⟩ := driveId_eq_ok.1 hid
      dsimp only [DriveTable.provider]
      cases hdrive : t.get? id with
      | none =>
          refine .inr ⟨fun id' hfile' => .inr ?_, rfl⟩
          rw [← List.append_cancel_right (hfile.symm.trans hfile')]
          exact hdrive
      | some drive => exact .inl ⟨id, drive.1, drive.2, hfile, hne, hdrive, rfl⟩

theorem serve_drive {segment file : Text} {r : BootRequest} (hmethod : r.method = getMethod)
    (hroute : Route.ofPath? r.target.path = some (.drive segment))
    (hfile : Route.decode? segment = some file) (service : LayerService) (p : DriveProvider)
    (now : Time) (st : ServerState) :
    serve service p now r st =
      .done { serveDriveFile p now file st with
        response := finished r (serveDriveFile p now file st).response } := by
  rw [serve, serveMethod, hroute]
  dsimp only
  rw [if_pos (.inl hmethod), serveRoute, hfile]
  rfl

end Router

inductive DriveEvent where
  | request (file : Text)
  | insert (id version : Text) (image : Bytes)
  | erase (id : Text)
  | wait (duration : Time)
  | sweep
  | delete (key : Text)

/-- In a history of events, a version of an id stands for one image. -/
def DriveEvent.Paired (events : List DriveEvent) : Prop :=
  ∀ id version image image', .insert id version image ∈ events →
    .insert id version image' ∈ events → image = image'

structure DriveSite where
  cache : DriveCache
  table : DriveTable := []
  now : Time := 0

namespace DriveSite

def perform (s : DriveSite) : DriveEvent → DriveSite
  | .request file =>
      { s with cache :=
          (Router.serveDriveFile s.table.provider s.now file ⟨[], s.cache⟩).state.drives }
  | .insert id version image => { s with table := s.table.insert id version image }
  | .erase id => { s with table := s.table.erase id }
  | .wait duration => { s with now := s.now + duration }
  | .sweep => { s with cache := (s.cache.sweep s.now).1 }
  | .delete key => { s with cache := s.cache.delete key }

def performAll (events : List DriveEvent) (s : DriveSite) : DriveSite := events.foldl perform s

structure Faithful (events : List DriveEvent) (s : DriveSite) : Prop where
  table : ∀ id version image, s.table.get? id = some (version, image) →
    .insert id version image ∈ events
  cache : ∀ id e, (id, e) ∈ s.cache.entries → .insert id e.version e.payload ∈ events

variable {events : List DriveEvent} {s : DriveSite}

theorem Faithful.answer_eq (hpaired : DriveEvent.Paired events) (h : Faithful events s) (id : Text) :
    (serveDrive s.table.provider s.now id s.cache).answer = s.table.provider.render id := by
  rw [DriveTable.serveDrive_provider]
  dsimp only [DriveTable.provider]
  cases hdrive : s.table.get? id with
  | none => rfl
  | some drive =>
      dsimp only
      cases hfound : s.cache.getIfCurrent id drive.1 s.now with
      | none => rfl
      | some payload =>
          obtain ⟨e, hmem, hversion, rfl⟩ := DriveCache.exists_of_getIfCurrent hfound
          have hentry : .insert id drive.1 e.payload ∈ events := hversion ▸ h.cache id e hmem
          have hsame := hpaired id drive.1 _ _ hentry (h.table id drive.1 drive.2 hdrive)
          exact congrArg Except.ok hsame

theorem Faithful.cache_eq_or (s : DriveSite) (id : Text) :
    (serveDrive s.table.provider s.now id s.cache).cache = s.cache ∨
      ∃ version image, s.table.get? id = some (version, image) ∧
        (serveDrive s.table.provider s.now id s.cache).cache =
          s.cache.set id image version s.now := by
  rw [DriveTable.serveDrive_provider]
  cases hdrive : s.table.get? id with
  | none => exact .inl rfl
  | some drive =>
      dsimp only
      cases s.cache.getIfCurrent id drive.1 s.now with
      | some payload => exact .inl rfl
      | none => exact .inr ⟨drive.1, drive.2, rfl, rfl⟩

theorem Faithful.set {id version : Text} {image : Bytes} (h : Faithful events s)
    (hdrive : s.table.get? id = some (version, image)) (now : Time) :
    Faithful events { s with cache := s.cache.set id image version now } where
  table := h.table
  cache key e hmem := by
    rcases DriveCache.mem_of_mem_set hmem with hmem | ⟨rfl, rfl, rfl⟩
    · exact h.cache key e hmem
    · exact h.table key e.version e.payload hdrive

theorem Faithful.mono (h : Faithful events s) {c : DriveCache}
    (hsub : ∀ p ∈ c.entries, p ∈ s.cache.entries) : Faithful events { s with cache := c } :=
  ⟨h.table, fun id e hmem => h.cache id e (hsub (id, e) hmem)⟩

theorem Faithful.request (h : Faithful events s) (file : Text) :
    Faithful events (s.perform (.request file)) := by
  dsimp only [perform, Router.serveDriveFile]
  cases Router.driveId file with
  | error e => exact h
  | ok id =>
      dsimp only
      rcases cache_eq_or s id with hcache | ⟨version, image, hdrive, hcache⟩
      · rw [hcache]
        exact h
      · rw [hcache]
        exact h.set hdrive s.now

theorem Faithful.perform (h : Faithful events s) {event : DriveEvent} (hevent : event ∈ events) :
    Faithful events (s.perform event) := by
  cases event with
  | request file => exact h.request file
  | insert id version image =>
      refine ⟨fun id' version' image' hdrive => ?_, h.cache⟩
      change (s.table.insert id version image).get? id' = _ at hdrive
      rw [DriveTable.get?_insert] at hdrive
      split at hdrive
      · next hid =>
          cases hdrive
          exact hid ▸ hevent
      · exact h.table id' version' image' hdrive
  | erase id =>
      refine ⟨fun id' version' image' hdrive => ?_, h.cache⟩
      change (s.table.erase id).get? id' = _ at hdrive
      rw [DriveTable.get?_erase] at hdrive
      split at hdrive
      · cases hdrive
      · exact h.table id' version' image' hdrive
  | wait duration => exact ⟨h.table, h.cache⟩
  | sweep => exact h.mono fun _ hp => DriveCache.mem_of_mem_sweep hp
  | delete key => exact h.mono fun _ hp => DriveCache.mem_of_mem_delete hp

theorem Faithful.performAll (h : Faithful events s) {steps : List DriveEvent}
    (hsub : ∀ event ∈ steps, event ∈ events) : Faithful events (s.performAll steps) := by
  induction steps generalizing s with
  | nil => exact h
  | cons event steps ih =>
      exact ih (h.perform (hsub event (.head _))) fun e he => hsub e (.tail _ he)

def start (ttl : Time) (maxSize : Nat) : DriveSite := { cache := .start ttl maxSize }

theorem faithful_start (ttl : Time) (maxSize : Nat) (events : List DriveEvent) :
    Faithful events (start ttl maxSize) := ⟨nofun, nofun⟩

theorem Faithful.response_eq (hpaired : DriveEvent.Paired events) (h : Faithful events s)
    (file : Text) (auth : AuthCache) :
    (Router.serveDriveFile s.table.provider s.now file ⟨auth, s.cache⟩).response =
      Router.renderDriveFile s.table.provider file := by
  rw [Router.renderDriveFile_provider, Router.serveDriveFile]
  cases Router.driveId file with
  | error e => rfl
  | ok id => exact congrArg Router.driveResponse (h.answer_eq hpaired id)

theorem cache_perform_request_of_status {s : DriveSite} {file : Text} {auth : AuthCache}
    (h : (Router.serveDriveFile s.table.provider s.now file ⟨auth, s.cache⟩).response.status ≠ 200) :
    (s.perform (.request file)).cache = s.cache := by
  dsimp only [perform, Router.serveDriveFile] at h ⊢
  cases hid : Router.driveId file with
  | error e => rfl
  | ok id =>
      rw [hid] at h
      dsimp only at h ⊢
      rw [DriveTable.serveDrive_provider] at h ⊢
      cases hdrive : s.table.get? id with
      | none => rfl
      | some drive =>
          -- A drive in memory is answered with `200`, from the cache or from memory.
          rw [hdrive] at h
          dsimp only at h ⊢
          cases hfound : s.cache.getIfCurrent id drive.1 s.now with
          | some payload => rfl
          | none =>
              rw [hfound] at h
              exact absurd rfl h

theorem drives_served_as_rendered (ttl : Time) (maxSize : Nat) (hpaired : DriveEvent.Paired events)
    (hs : s = (start ttl maxSize).performAll events) {r : BootRequest} {segment file : Text}
    (hmethod : r.method = Router.getMethod)
    (hroute : Route.ofPath? r.target.path = some (.drive segment))
    (hfile : Route.decode? segment = some file) (service : LayerService) (auth : AuthCache) :
    ∃ served, Router.serve service s.table.provider s.now r ⟨auth, s.cache⟩ = .done served ∧
      served.response = Router.finished r (Router.renderDriveFile s.table.provider file) ∧
      served.state = ⟨auth, (s.perform (.request file)).cache⟩ ∧
      (served.response.status ≠ 200 → served.state.drives = s.cache) ∧
      ((∃ id version image, file = id ++ ".iso".toList ∧ id ≠ [] ∧
          s.table.get? id = some (version, image) ∧ served.response =
            Router.finished r (.ofBytes 200 [(Http.contentTypeName, Router.isoType)] image)) ∨
        (∀ id, file = id ++ ".iso".toList → id = [] ∨ s.table.get? id = none) ∧
          served.response.status = 404) := by
  have hfaithful : Faithful events s :=
    hs ▸ (faithful_start ttl maxSize events).performAll fun _ => id
  have hresponse := hfaithful.response_eq hpaired file auth
  have hstate : (Router.serveDriveFile s.table.provider s.now file ⟨auth, s.cache⟩).state =
      ⟨auth, (s.perform (.request file)).cache⟩ := by
    dsimp only [perform, Router.serveDriveFile]
    cases Router.driveId file <;> rfl
  refine ⟨_, Router.serve_drive hmethod hroute hfile service _ _ _,
    congrArg (Router.finished r) hresponse, hstate, fun hfailed => ?_, ?_⟩
  · rw [hstate]
    dsimp only at hfailed ⊢
    rw [Router.status_finished] at hfailed
    exact cache_perform_request_of_status hfailed
  · dsimp only
    rw [Router.status_finished, hresponse]
    rcases Router.renderDriveFile_provider_cases s.table file with
      ⟨id, version, image, hname, hid, hdrive, hanswer⟩ | hmissing
    · exact .inl ⟨id, version, image, hname, hid, hdrive, congrArg (Router.finished r) hanswer⟩
    · exact .inr hmissing

def thereAndBack : List DriveEvent :=
  [.insert "m".toList ['1'] [1], .request "m.iso".toList, .insert "m".toList ['2'] [2], .wait 5,
    .insert "m".toList ['1'] [1]]

def requestFor (path : Text) : BootRequest := ⟨Router.getMethod, ⟨path, none⟩, []⟩

theorem drives_served_as_rendered_there_and_back :
    let s := (start 10 100).performAll thereAndBack
    let r := requestFor "/config-drive/m.iso".toList
    DriveEvent.Paired thereAndBack ∧ s.table.get? "m".toList = some (['1'], [1]) ∧
      ∃ served, Router.serve ⟨{}, .denyAll, []⟩ s.table.provider s.now r ⟨[], s.cache⟩ =
          .done served ∧
        served.response = Router.finished r
          (.ofBytes 200 [(Http.contentTypeName, Router.isoType)] [1]) := by
  intro s r
  have hpaired : DriveEvent.Paired thereAndBack := by
    intro id version image image' h h'
    simp only [thereAndBack, List.mem_cons, DriveEvent.insert.injEq, reduceCtorEq, List.not_mem_nil,
      or_false, false_or] at h h'
    grind
  have hroute : Route.ofPath? r.target.path = some (.drive "m.iso".toList) := by decide
  have hfile : Route.decode? "m.iso".toList = some "m.iso".toList := by decide
  obtain ⟨served, hserve, hresponse, -⟩ := drives_served_as_rendered 10 100 hpaired (s := s) rfl
    (r := r) rfl hroute hfile ⟨{}, .denyAll, []⟩ []
  exact ⟨hpaired, by decide, served, hserve, hresponse⟩

end DriveSite

end NetBoot
