import NetBoot.Proofs.Drive.Contents
import NetBoot.Server.Router

namespace NetBoot

/-- The data behind each id, by generations; no version of an id comes back. -/
structure DriveHistory where
  version : Text → Nat → Text
  image : Text → Nat → Bytes
  injective : ∀ id, Function.Injective (version id)

namespace DriveHistory

structure Presents (h : DriveHistory) (present : Text → Nat) (p : DriveProvider) : Prop where
  version : ∀ id version, p.version id = .ok (some version) → version = h.version id (present id)
  render : ∀ id image, p.render id = .ok image → image = h.image id (present id)

def provider (h : DriveHistory) (present : Text → Nat) : DriveProvider where
  version id := .ok (some (h.version id (present id)))
  render id := .ok (h.image id (present id))

def Since (h : DriveHistory) (present : Text → Nat) (id : Text) (g : Nat) (image : Bytes) : Prop :=
  ∃ g', g ≤ g' ∧ g' ≤ present id ∧ image = h.image id g'

/-- Entries may hold newer images than their version says, but no older ones. -/
def Labels (h : DriveHistory) (present : Text → Nat) (c : DriveCache) : Prop :=
  ∀ id e, (id, e) ∈ c.entries → ∃ g, e.version = h.version id g ∧ h.Since present id g e.payload

def HasRead (h : DriveHistory) (present : Text → Nat) (id : Text) (g : Nat) : DriveRequest → Prop
  | .opened _ => False
  | .versioned id' version | .missed id' version =>
      id' = id ∧ version = h.version id g ∧ g ≤ present id
  | .rendered id' version payload =>
      id' = id ∧ version = h.version id g ∧ h.Since present id g payload
  | .closed (.ok payload) => h.Since present id g payload
  | .closed (.error _) => True

variable {h : DriveHistory} {present present' : Text → Nat} {p : DriveProvider} {now : Time}
  {c : DriveCache} {r : DriveRequest} {id : Text} {g : Nat}

theorem presents_provider (h : DriveHistory) (present : Text → Nat) :
    h.Presents present (h.provider present) where
  version _ _ hversion := by cases hversion; rfl
  render _ _ hrender := by cases hrender; rfl

theorem Since.later {image : Bytes} (hle : ∀ id, present id ≤ present' id)
    (hsince : h.Since present id g image) : h.Since present' id g image := by
  obtain ⟨g', hg, hpresent, himage⟩ := hsince
  exact ⟨g', hg, Nat.le_trans hpresent (hle id), himage⟩

theorem Labels.later (hle : ∀ id, present id ≤ present' id) (hlabels : h.Labels present c) :
    h.Labels present' c := by
  intro id e hmem
  obtain ⟨g, hversion, hsince⟩ := hlabels id e hmem
  exact ⟨g, hversion, hsince.later hle⟩

theorem Labels.mono {c' : DriveCache} (hsub : ∀ p ∈ c'.entries, p ∈ c.entries)
    (hlabels : h.Labels present c) : h.Labels present c' :=
  fun id e hmem => hlabels id e (hsub (id, e) hmem)

theorem Labels.set {image : Bytes} (hlabels : h.Labels present c)
    (hsince : h.Since present id g image) (now : Time) :
    h.Labels present (c.set id image (h.version id g) now) := by
  intro key e hmem
  rcases DriveCache.mem_of_mem_set hmem with hmem | ⟨rfl, hversion, rfl⟩
  · exact hlabels key e hmem
  · exact ⟨g, hversion, hsince⟩

theorem Labels.since_of_getIfCurrent {image : Bytes} (hlabels : h.Labels present c)
    (hfound : c.getIfCurrent id (h.version id g) now = some image) :
    h.Since present id g image := by
  obtain ⟨e, hmem, hversion, rfl⟩ := DriveCache.exists_of_getIfCurrent hfound
  obtain ⟨g', hlabel, hsince⟩ := hlabels id e hmem
  have hsame : g' = g := h.injective id (hlabel.symm.trans hversion)
  exact hsame ▸ hsince

theorem HasRead.later (hle : ∀ id, present id ≤ present' id) (hread : h.HasRead present id g r) :
    h.HasRead present' id g r := by
  cases r with
  | opened id' => exact hread
  | versioned id' version =>
      obtain ⟨hid, hversion, hpresent⟩ := hread
      exact ⟨hid, hversion, Nat.le_trans hpresent (hle id)⟩
  | missed id' version =>
      obtain ⟨hid, hversion, hpresent⟩ := hread
      exact ⟨hid, hversion, Nat.le_trans hpresent (hle id)⟩
  | rendered id' version payload =>
      obtain ⟨hid, hversion, hsince⟩ := hread
      exact ⟨hid, hversion, hsince.later hle⟩
  | closed answer =>
      cases answer with
      | error e => trivial
      | ok payload => exact Since.later hle hread

theorem HasRead.step (hp : h.Presents present p) (hlabels : h.Labels present c)
    (hread : h.HasRead present id g r) :
    h.HasRead present id g (r.step p now c).1 ∧ h.Labels present (r.step p now c).2 := by
  cases r with
  | opened id' => exact hread.elim
  | versioned id' version =>
      obtain ⟨rfl, rfl, hpresent⟩ := hread
      refine ⟨?_, hlabels⟩
      dsimp only [DriveRequest.step]
      cases hfound : c.getIfCurrent id' (h.version id' g) now with
      | none => exact ⟨rfl, rfl, hpresent⟩
      | some payload => exact hlabels.since_of_getIfCurrent hfound
  | missed id' version =>
      obtain ⟨rfl, rfl, hpresent⟩ := hread
      refine ⟨?_, hlabels⟩
      dsimp only [DriveRequest.step]
      cases hrender : p.render id' with
      | error e => trivial
      | ok payload =>
          exact ⟨rfl, rfl, present id', hpresent, Nat.le_refl _, hp.render id' payload hrender⟩
  | rendered id' version payload =>
      obtain ⟨rfl, rfl, hsince⟩ := hread
      exact ⟨hsince, hlabels.set hsince now⟩
  | closed answer => exact ⟨hread, hlabels⟩

theorem hasRead_step_opened (hp : h.Presents present p) (id : Text) :
    h.HasRead present id (present id) ((DriveRequest.opened id).step p now c).1 := by
  dsimp only [DriveRequest.step]
  cases hversion : p.version id with
  | error e => trivial
  | ok found =>
      cases found with
      | none => trivial
      | some version => exact ⟨rfl, hp.version id version hversion, Nat.le_refl _⟩

end DriveHistory

structure DriveServer where
  present : Text → Nat
  now : Time
  cache : DriveCache
  requests : List DriveRequest

namespace DriveServer

def opened (id : Text) (s : DriveServer) : DriveServer :=
  { s with requests := s.requests ++ [.opened id] }

def changed (id : Text) (g : Nat) (s : DriveServer) : DriveServer :=
  { s with present := fun id' => if id' = id then g else s.present id' }

inductive Step (h : DriveHistory) : DriveServer → DriveServer → Prop
  | arrive (s : DriveServer) (id : Text) : Step h s (s.opened id)
  | request (s : DriveServer) (p : DriveProvider) (i : Nat) (r : DriveRequest) :
      h.Presents s.present p → s.requests[i]? = some r →
      Step h s { s with
        cache := (r.step p s.now s.cache).2
        requests := s.requests.set i (r.step p s.now s.cache).1 }
  | change (s : DriveServer) (id : Text) (g : Nat) : s.present id ≤ g → Step h s (s.changed id g)
  | wait (s : DriveServer) (now : Time) : s.now ≤ now → Step h s { s with now }
  | sweep (s : DriveServer) : Step h s { s with cache := (s.cache.sweep s.now).1 }
  | evict (s : DriveServer) (key : Text) : Step h s { s with cache := s.cache.delete key }

inductive Steps (h : DriveHistory) : DriveServer → DriveServer → Prop
  | refl (s : DriveServer) : Steps h s s
  | tail {s t u : DriveServer} : Steps h s t → Step h t u → Steps h s u

theorem Steps.trans {h : DriveHistory} {s t u : DriveServer} (hst : Steps h s t)
    (htu : Steps h t u) : Steps h s u := by
  induction htu with
  | refl => exact hst
  | tail _ hstep ih => exact ih.tail hstep

def start (ttl : Time) (maxSize : Nat) (present : Text → Nat) (now : Time) : DriveServer :=
  ⟨present, now, .start ttl maxSize, []⟩

structure Sound (h : DriveHistory) (s : DriveServer) : Prop where
  labels : h.Labels s.present s.cache
  requests : ∀ r ∈ s.requests,
    (∃ id, r = .opened id) ∨ ∃ id g, h.HasRead s.present id g r

variable {h : DriveHistory} {s t : DriveServer} {i : Nat} {id : Text} {g : Nat}

theorem sound_start (h : DriveHistory) (ttl : Time) (maxSize : Nat) (present : Text → Nat)
    (now : Time) : Sound h (start ttl maxSize present now) := ⟨nofun, nofun⟩

theorem Step.present_le (hst : Step h s t) (id : Text) : s.present id ≤ t.present id := by
  cases hst with
  | change id' g hle =>
      by_cases hid : id = id'
      · subst hid
        simpa [changed] using hle
      · simp [changed, hid]
  | _ => exact Nat.le_refl _

theorem Sound.with_present (hs : Sound h s) {present' : Text → Nat}
    (hle : ∀ id, s.present id ≤ present' id) : Sound h { s with present := present' } where
  labels := hs.labels.later hle
  requests r hr := (hs.requests r hr).imp_right fun ⟨id, g, hread⟩ => ⟨id, g, hread.later hle⟩

theorem Sound.request {p : DriveProvider} {r : DriveRequest} (hs : Sound h s)
    (hp : h.Presents s.present p) (hr : s.requests[i]? = some r) :
    Sound h { s with
      cache := (r.step p s.now s.cache).2
      requests := s.requests.set i (r.step p s.now s.cache).1 } := by
  have hstep : h.Labels s.present (r.step p s.now s.cache).2 ∧
      ∃ id g, h.HasRead s.present id g (r.step p s.now s.cache).1 := by
    rcases hs.requests r (List.mem_of_getElem? hr) with ⟨id, rfl⟩ | ⟨id, g, hread⟩
    · exact ⟨hs.labels, id, _, DriveHistory.hasRead_step_opened hp id⟩
    · exact ⟨(hread.step hp hs.labels).2, id, g, (hread.step hp hs.labels).1⟩
  refine ⟨hstep.1, fun r' hr' => ?_⟩
  rcases List.mem_or_eq_of_mem_set hr' with hr' | rfl
  · exact hs.requests r' hr'
  · exact .inr hstep.2

theorem Sound.step (hs : Sound h s) (hst : Step h s t) : Sound h t := by
  cases hst with
  | arrive id =>
      refine ⟨hs.labels, fun r hr => ?_⟩
      rcases List.mem_append.1 hr with hr | hr
      · exact hs.requests r hr
      · exact .inl ⟨id, List.mem_singleton.1 hr⟩
  | request p i r hp hr => exact hs.request hp hr
  | change id g hle => exact hs.with_present (Step.present_le (h := h) (.change s id g hle))
  | wait now hnow => exact ⟨hs.labels, hs.requests⟩
  | sweep => exact ⟨hs.labels.mono fun _ hp => DriveCache.mem_of_mem_sweep hp, hs.requests⟩
  | evict key =>
      exact ⟨hs.labels.mono fun _ hp => DriveCache.mem_of_mem_delete hp, hs.requests⟩

theorem Sound.steps (hs : Sound h s) (hst : Steps h s t) : Sound h t := by
  induction hst with
  | refl => exact hs
  | tail _ hstep ih => exact ih.step hstep

theorem Step.hasRead (hs : Sound h s) (hst : Step h s t) {r : DriveRequest}
    (hr : s.requests[i]? = some r) (hread : h.HasRead s.present id g r) :
    ∃ r', t.requests[i]? = some r' ∧ h.HasRead t.present id g r' := by
  cases hst with
  | arrive id' =>
      have hlength : i < s.requests.length := (List.getElem?_eq_some_iff.1 hr).1
      exact ⟨r, (List.getElem?_append_left hlength).trans hr, hread⟩
  | request p j r' hp hr' =>
      by_cases hij : j = i
      · subst hij
        have hsame : r' = r := Option.some.inj (hr'.symm.trans hr)
        subst hsame
        have hlength : j < s.requests.length := (List.getElem?_eq_some_iff.1 hr).1
        exact ⟨_, List.getElem?_set_self hlength, (hread.step hp hs.labels).1⟩
      · exact ⟨r, by rw [List.getElem?_set_ne hij, hr], hread⟩
  | change id' g' hle =>
      exact ⟨r, hr, hread.later (Step.present_le (h := h) (.change s id' g' hle))⟩
  | wait => exact ⟨r, hr, hread⟩
  | sweep => exact ⟨r, hr, hread⟩
  | evict => exact ⟨r, hr, hread⟩

theorem Steps.hasRead (hs : Sound h s) (hst : Steps h s t) {r : DriveRequest}
    (hr : s.requests[i]? = some r) (hread : h.HasRead s.present id g r) :
    ∃ r', t.requests[i]? = some r' ∧ h.HasRead t.present id g r' := by
  induction hst with
  | refl => exact ⟨r, hr, hread⟩
  | tail hsteps hstep ih =>
      obtain ⟨r', hr', hread'⟩ := ih
      exact hstep.hasRead (hs.steps hsteps) hr' hread'

theorem Sound.hasRead_of_versioned (hs : Sound h s)
    (hr : s.requests[i]? = some (.versioned id (h.version id g))) :
    h.HasRead s.present id g (.versioned id (h.version id g)) := by
  rcases hs.requests _ (List.mem_of_getElem? hr) with ⟨id', hopened⟩ | ⟨id', g', rfl, hversion, hle⟩
  · cases hopened
  · have hsame : g = g' := h.injective id hversion
    exact ⟨rfl, rfl, hsame ▸ hle⟩

theorem exists_of_status_driveResponse {answer : Except DriveError Bytes}
    (hstatus : (Router.driveResponse answer).status = 200) : ∃ image, answer = .ok image := by
  cases answer with
  | ok image => exact ⟨image, rfl⟩
  | error e => cases e <;> simp [Router.driveResponse, Response.ofError, BootError.notice,
      BootError.notFound, BootError.failure, Response.ofText, Response.ofBytes] at hstatus

theorem no_stale_drive (h : DriveHistory) (ttl : Time) (maxSize : Nat) (present : Text → Nat)
    (now : Time) {s t : DriveServer} (hs : Steps h (start ttl maxSize present now) s)
    (hst : Steps h s t) :
    (∀ (i : Nat) (id : Text) (g : Nat) (answer : Except DriveError Bytes),
      s.requests[i]? = some (.versioned id (h.version id g)) →
      t.requests[i]? = some (.closed answer) → (Router.driveResponse answer).status = 200 →
        ∃ g', g ≤ g' ∧ g' ≤ t.present id ∧ Router.driveResponse answer =
          .ofBytes 200 [(Http.contentTypeName, Router.isoType)] (h.image id g')) ∧
      ∀ (id : Text) (e : DriveCache.Entry) (g : Nat), (id, e) ∈ t.cache.entries →
        e.version = h.version id g →
          ∃ g', g ≤ g' ∧ g' ≤ t.present id ∧ e.payload = h.image id g' := by
  have hsound : Sound h s := (sound_start h ttl maxSize present now).steps hs
  refine ⟨fun i id g answer hr ht hstatus => ?_, fun id e g hmem hversion => ?_⟩
  · obtain ⟨image, rfl⟩ := exists_of_status_driveResponse hstatus
    obtain ⟨r, hr', hread⟩ := Steps.hasRead hsound hst hr (hsound.hasRead_of_versioned hr)
    have hclosed : r = .closed (.ok image) := Option.some.inj (hr'.symm.trans ht)
    subst hclosed
    obtain ⟨g', hg, hpresent, rfl⟩ := hread
    exact ⟨g', hg, hpresent, rfl⟩
  · obtain ⟨g', hlabel, hsince⟩ := (hsound.steps hst).labels id e hmem
    have hsame : g' = g := h.injective id (hlabel.symm.trans hversion)
    exact hsame ▸ hsince

def proceed (h : DriveHistory) (i : Nat) (s : DriveServer) : DriveServer :=
  match s.requests[i]? with
  | none => s
  | some r =>
      let next := r.step (h.provider s.present) s.now s.cache
      { s with cache := next.2, requests := s.requests.set i next.1 }

theorem steps_proceed (h : DriveHistory) (i : Nat) (s : DriveServer) :
    Steps h s (s.proceed h i) := by
  unfold proceed
  cases hr : s.requests[i]? with
  | none => exact .refl s
  | some r => exact (Steps.refl s).tail (.request s _ i r (h.presents_provider s.present) hr)

def strokes : DriveHistory where
  version _ g := List.replicate g '|'
  image _ g := List.replicate g 0
  injective _ _ _ heq := by simpa using congrArg List.length heq

/-- Two requests have read the version of the first generation. The slower one finds what the other
one has rendered of the second generation, and kept under the version of the first. -/
theorem no_stale_drive_of_two_requests :
    let id : Text := "m".toList
    let first := start 10 100 (fun _ => 1) 0
    let s := (((first.opened id).opened id).proceed strokes 0).proceed strokes 1
    let t := ((((s.proceed strokes 0).changed id 2).proceed strokes 0).proceed strokes 0).proceed
      strokes 1
    Steps strokes first s ∧ Steps strokes s t ∧
      s.requests[1]? = some (.versioned id (strokes.version id 1)) ∧
      t.requests[1]? = some (.closed (.ok (strokes.image id 2))) ∧
      (∃ g', 1 ≤ g' ∧ g' ≤ t.present id ∧ Router.driveResponse (.ok (strokes.image id 2)) =
        .ofBytes 200 [(Http.contentTypeName, Router.isoType)] (strokes.image id g')) ∧
      ∃ e : DriveCache.Entry, (id, e) ∈ t.cache.entries ∧ e.version = strokes.version id 1 ∧
        ∃ g', 1 ≤ g' ∧ g' ≤ t.present id ∧ e.payload = strokes.image id g' := by
  intro id first s t
  have hs : Steps strokes first s :=
    ((((Steps.refl first).tail (.arrive _ id)).tail (.arrive _ id)).trans
      (steps_proceed strokes 0 _)).trans (steps_proceed strokes 1 _)
  have hst : Steps strokes s t :=
    ((((steps_proceed strokes 0 s).tail (.change _ id 2 (by decide))).trans
      (steps_proceed strokes 0 _)).trans (steps_proceed strokes 0 _)).trans
      (steps_proceed strokes 1 _)
  have hread : s.requests[1]? = some (.versioned id (strokes.version id 1)) := rfl
  have hserved : t.requests[1]? = some (.closed (.ok (strokes.image id 2))) := rfl
  have hentry : (id, ⟨strokes.image id 2, strokes.version id 1, 0, 0⟩) ∈ t.cache.entries := by
    decide
  have h := no_stale_drive strokes 10 100 (fun _ => 1) 0 hs hst
  exact ⟨hs, hst, hread, hserved, h.1 1 id 1 _ hread hserved rfl, _, hentry, rfl,
    h.2 id _ 1 hentry rfl⟩

end DriveServer

end NetBoot
