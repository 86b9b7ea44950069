import NetBoot.Proofs.Dialogue.Runs
import NetBoot.Proofs.Registry.Pinned

namespace NetBoot.Resolver

open Http Registry
open Dialogue (steady result_ask result_bind_except)

structure Carries (reply : Reply) (contentType : Text) (data : Bytes) : Prop where
  status : reply.status = 200
  bytes : reply.bytes = .ok data
  contentType : reply.headers.readable? contentTypeName = some contentType

structure Serves (registry : Call → Except CallError Reply) (c : RegistryConfig)
    (reference : ImageReference) (auth : Option Text) (contentType : Text) (data : Bytes) :
    Prop where
  named : ∃ reply, Carries reply contentType data ∧ registry
    (manifestCall .get (manifestUrl c reference.image reference.manifestReference) auth) = .ok reply
  hashed : ∃ reply, Carries reply contentType data ∧ registry
    (manifestCall .get (manifestUrl c reference.image (Sha256.digestText data)) auth) = .ok reply

/-- What a registry may answer when it is asked for the head of a document: all that is to be known
of it, less than that, or a refusal. -/
inductive HeadOf (contentType : Text) (data : Bytes) : Reply → Prop
  | described (head : Reply) : head.status = 200 →
      head.headers.readable? contentTypeName = some contentType →
      head.headers.readable? digestName = some (Sha256.digestText data) →
      (head.headers.readable? contentLengthName).bind Text.word64? = some data.length →
        HeadOf contentType data head
  | incomplete (head : Reply) : head.status = 200 →
      (headerMediaType? head.headers = none ∨
        (head.headers.readable? digestName).bind Digest.parse? = none ∨
        (head.headers.readable? contentLengthName).bind Text.word64? = none) →
        HeadOf contentType data head
  | rejected (head : Reply) : head.isSuccess = false → head.status ≠ 404 →
      HeadOf contentType data head

def withHead (registry : Call → Except CallError Reply) (head : Reply) (q : Call) :
    Except CallError Reply :=
  match q.method with
  | .head => .ok head
  | .get => registry q

section

variable {hs hs' : Headers} {reply head : Reply} {contentType : Text} {data : Bytes}
  {d : Descriptor} {pinned : Option Digest} {registry : Call → Except CallError Reply}
  {c : RegistryConfig} {reference : ImageReference} {auth : Option Text}

theorem headerMediaType?_congr (h : hs.readable? contentTypeName = hs'.readable? contentTypeName) :
    headerMediaType? hs = headerMediaType? hs' := by
  simp only [headerMediaType?, h]

theorem headerDescriptor?_eq_some : headerDescriptor? hs = some d ↔
    ∃ mediaType digest size, headerMediaType? hs = some mediaType ∧
      hs.readable? digestName = some digest ∧
      (hs.readable? contentLengthName).bind Text.word64? = some size ∧
      (Digest.parse? digest).isSome ∧ d = .plain mediaType digest size := by
  simp only [headerDescriptor?, Option.bind_eq_bind, Option.bind_eq_some_iff, Option.pure_def,
    Option.some.injEq]
  constructor
  · rintro ⟨mediaType, hm, digest, hd, size, hs, parsed, hp, rfl⟩
    exact ⟨mediaType, digest, size, hm, hd, hs, by rw [hp]; rfl, rfl⟩
  · rintro ⟨mediaType, digest, size, hm, hd, hs, hp, rfl⟩
    obtain ⟨parsed, hp⟩ := Option.isSome_iff_exists.1 hp
    exact ⟨mediaType, hm, digest, hd, size, hs, parsed, hp, rfl⟩

theorem headerDescriptor?_eq_none_of_incomplete
    (h : headerMediaType? hs = none ∨ (hs.readable? digestName).bind Digest.parse? = none ∨
      (hs.readable? contentLengthName).bind Text.word64? = none) :
    headerDescriptor? hs = none := by
  cases hd : headerDescriptor? hs with
  | none => rfl
  | some d =>
      obtain ⟨mediaType, digest, size, hm, hdigest, hsize, hp, -⟩ := headerDescriptor?_eq_some.1 hd
      rcases h with h | h | h
      · exact nomatch h.symm.trans hm
      · rw [hdigest, Option.bind_some] at h
        exact nomatch h ▸ hp
      · exact nomatch h.symm.trans hsize

theorem Carries.brings (h : Carries reply contentType data) : Brings reply data :=
  ⟨by simp [Reply.isSuccess, h.status], h.bytes⟩

theorem getOutcome_of_brings (h : Brings reply data) (image : ImageName) (target : Text)
    (pinned : Option Digest) :
    getOutcome image target pinned reply =
      (verify (derivedDescriptor pinned reply.headers data) data).map
        fun _ => (derivedDescriptor pinned reply.headers data, data) := by
  have hstatus : checkStatus reply image target = .ok () := checkStatus_eq_ok.2 h.success
  have hbody : bodyOf reply = .ok data := by rw [bodyOf, h.bytes]; rfl
  simp only [getOutcome, hstatus, hbody, bind, Except.bind]
  cases verify (derivedDescriptor pinned reply.headers data) data <;> rfl

theorem contentOutcome_of_carries (h : Carries reply contentType data)
    (hd : Authentic d data) (image : ImageName) : contentOutcome image d reply = .ok data :=
  contentOutcome_eq_ok.2 ⟨h.brings, hd⟩

theorem verify_of_mismatch {expected : Text} {mediaType : MediaType}
    (hstarts : Text.startsWith expected "sha256:".toList)
    (hne : Sha256.digestText data ≠ expected) :
    verify (.plain mediaType expected data.length) data =
      .error (.digestMismatch expected (Sha256.digestText data)) := by
  simp only [verify, Descriptor.plain, ne_eq, not_true, if_false]
  exact if_pos ⟨hstarts, hne⟩

theorem headerDescriptor?_of_described
    (htype : head.headers.readable? contentTypeName = some contentType)
    (hdigest : head.headers.readable? digestName = some (Sha256.digestText data))
    (hsize : (head.headers.readable? contentLengthName).bind Text.word64? = some data.length)
    (hcarries : Carries reply contentType data) (hd : headerDescriptor? head.headers = some d) :
    d = derivedDescriptor none reply.headers data := by
  obtain ⟨mediaType, digest, size, hm, hdigest', hsize', -, rfl⟩ := headerDescriptor?_eq_some.1 hd
  rw [hdigest] at hdigest'
  rw [hsize] at hsize'
  cases hdigest'
  cases hsize'
  have hsame : headerMediaType? reply.headers = some mediaType := by
    rw [← hm]
    exact headerMediaType?_congr (hcarries.contentType.trans htype.symm)
  simp [derivedDescriptor, mediaTypeOf, hsame]

theorem authentic_derivedDescriptor (hs : Headers) (data : Bytes) :
    Authentic (derivedDescriptor none hs data) data :=
  ⟨rfl, fun _ => rfl⟩

theorem derivedDescriptor_eq_none
    (h : ∀ p, pinned = some p → (derivedDescriptor none hs data).digest = p.toText) :
    derivedDescriptor pinned hs data = derivedDescriptor none hs data := by
  cases pinned with
  | none => rfl
  | some p =>
      have hp : Sha256.digestText data = p.toText := h p rfl
      simp [derivedDescriptor, hp]

theorem getOutcome_of_mismatch {p : Digest} (hsha : p.algorithm = Digest.sha256)
    (hne : Sha256.digestText data ≠ p.toText) (hcarries : Carries reply contentType data)
    (image : ImageName) (target : Text) :
    getOutcome image target (some p) reply =
      .error (.digestMismatch p.toText (Sha256.digestText data)) := by
  rw [getOutcome_of_brings hcarries.brings]
  exact congrArg (Except.map _) (verify_of_mismatch (startsWith_sha256 hsha) hne)

theorem headOutcome_of_mismatch {image : ImageName} {target : Text} {p : Digest}
    (hsuccess : head.isSuccess) (hd : headerDescriptor? head.headers = some d)
    (hne : d.digest ≠ p.toText) :
    headOutcome image target (some p) head = .error (.digestMismatch p.toText d.digest) := by
  simp only [headOutcome, status_ne_of_isSuccess hsuccess, hsuccess, hd, hne, if_true, if_false]

def rootOutcome (registry : Call → Except CallError Reply) (c : RegistryConfig)
    (reference : ImageReference) (auth : Option Text) :
    Option Descriptor → Except RegistryError (Descriptor × Bytes)
  | some d =>
      (received (contentOutcome reference.image d)
        (registry (manifestCall .get (manifestUrl c reference.image d.digest) auth))).map
          fun data => (d, data)
  | none =>
      received (getOutcome reference.image reference.manifestReference reference.digest)
        (registry (manifestCall .get
          (manifestUrl c reference.image reference.manifestReference) auth))

theorem result_fetchRoot (registry : Call → Except CallError Reply) (head : Reply)
    (c : RegistryConfig) (reference : ImageReference) (auth : Option Text) :
    (fetchRoot c reference.image reference.manifestReference reference.digest auth).run.result
        (steady (withHead registry head)) () =
      headOutcome reference.image reference.manifestReference reference.digest head >>=
        rootOutcome registry c reference auth := by
  rw [run_fetchRoot, result_ask]
  dsimp only [withHead, manifestCall]
  rw [received_ok]
  cases headOutcome reference.image reference.manifestReference reference.digest head with
  | error e => rfl
  | ok known => cases known <;> rfl

theorem headOutcome_bind_rootOutcome (hserves : Serves registry c reference auth contentType data)
    (hpinned : ∀ p, reference.digest = some p → p.algorithm = Digest.sha256)
    (hhead : HeadOf contentType data head) :
    headOutcome reference.image reference.manifestReference reference.digest head >>=
        rootOutcome registry c reference auth =
      rootOutcome registry c reference auth none := by
  cases hhead with
  | rejected hfailure h404 =>
      rw [headOutcome_eq_none.2 ⟨h404, fun hs => by rw [hfailure] at hs; cases hs⟩]
      rfl
  | incomplete hstatus hmissing =>
      have h404 : head.status ≠ 404 := by rw [hstatus]; decide
      rw [headOutcome_eq_none.2
        ⟨h404, fun _ => headerDescriptor?_eq_none_of_incomplete hmissing⟩]
      rfl
  | described hstatus htype hdigest hsize =>
      have hsuccess : head.isSuccess := by simp [Reply.isSuccess, hstatus]
      cases hd : headerDescriptor? head.headers with
      | none =>
          rw [headOutcome_eq_none.2 ⟨status_ne_of_isSuccess hsuccess, fun _ => hd⟩]
          rfl
      | some d =>
          obtain ⟨reply, hcarries, hreply⟩ := hserves.named
          obtain ⟨reply', hcarries', hreply'⟩ := hserves.hashed
          obtain rfl : d = derivedDescriptor none reply.headers data :=
            headerDescriptor?_of_described htype hdigest hsize hcarries hd
          have hauthentic := authentic_derivedDescriptor reply.headers data
          have hslow : rootOutcome registry c reference auth none =
              getOutcome reference.image reference.manifestReference reference.digest reply := by
            rw [rootOutcome, hreply, received_ok]
          rw [hslow]
          by_cases hagree : ∀ p, reference.digest = some p →
              (derivedDescriptor none reply.headers data).digest = p.toText
          · have hfast : rootOutcome registry c reference auth
                (some (derivedDescriptor none reply.headers data)) =
                .ok (derivedDescriptor none reply.headers data, data) := by
              have hcall : registry (manifestCall .get (manifestUrl c reference.image
                  (derivedDescriptor none reply.headers data).digest) auth) = .ok reply' := hreply'
              rw [rootOutcome, hcall, received_ok,
                contentOutcome_of_carries hcarries' hauthentic]
              rfl
            rw [headOutcome_eq_some.2 ⟨hsuccess, hd, hagree⟩]
            refine hfast.trans (getOutcome_eq_ok.2 ⟨hcarries.brings, ?_, hauthentic⟩).symm
            exact (derivedDescriptor_eq_none hagree).symm
          · push Not at hagree
            obtain ⟨p, hp, hne⟩ := hagree
            have hslow := getOutcome_of_mismatch (hpinned p hp) hne hcarries reference.image
              reference.manifestReference
            rw [hp, headOutcome_of_mismatch hsuccess hd hne, hslow]
            rfl

theorem result_fetchManifest_congr {answer answer' : Call → Except CallError Reply}
    (h : ∀ q, q.method = .get → answer q = answer' q) (r : Resolver) (image : ImageName)
    (architecture : Text) (auth : Option Text) (root : Descriptor × Bytes) :
    (fetchManifest r image architecture auth root).run.result (steady answer) () =
      (fetchManifest r image architecture auth root).run.result (steady answer') () := by
  rw [run_fetchManifest]
  cases parseDocument root.1.mediaType root.2 with
  | error e => rfl
  | ok document =>
      cases document with
      | manifest m => rfl
      | index i =>
          dsimp only
          cases selectEntry r architecture i with
          | error e => rfl
          | ok entry =>
              dsimp only
              rw [result_ask, result_ask, h _ rfl]
              rfl

end

theorem resolveWith_of_any_head (r : Resolver) {reference : ImageReference} (architecture : Text)
    (kinds : List Artifact) (auth : Option Text) {registry : Call → Except CallError Reply}
    {contentType : Text} {data : Bytes} {head head' : Reply}
    (hserves : Serves registry r.config reference auth contentType data)
    (hpinned : ∀ p, reference.digest = some p → p.algorithm = Digest.sha256)
    (hhead : HeadOf contentType data head) (hhead' : HeadOf contentType data head') :
    (resolveWith r reference architecture kinds auth).run.result
        (steady (withHead registry head)) () =
      (resolveWith r reference architecture kinds auth).run.result
        (steady (withHead registry head')) () := by
  have hget : ∀ q : Call, q.method = .get → withHead registry head q = withHead registry head' q :=
    fun q hq => by simp only [withHead, hq]
  simp only [resolveWith, result_bind_except, result_fetchRoot,
    headOutcome_bind_rootOutcome hserves hpinned hhead,
    headOutcome_bind_rootOutcome hserves hpinned hhead', result_fetchManifest_congr hget]
  rfl

def kernelReply : Reply where
  url := default
  status := 200
  headers := [(contentTypeName, MediaType.ociManifest)]
  body := ⟨nestedManifest, .whole, none⟩

def describingHead : Reply where
  url := default
  status := 200
  headers := [(contentTypeName, MediaType.ociManifest), (digestName, nestedEntry.digest),
    (contentLengthName, "159".toList)]
  body := ⟨[], .whole, none⟩

def refusingHead : Reply := ⟨default, 405, [], ⟨[], .whole, none⟩⟩

def kernelWithHead (head : Reply) : Except RegistryError Selection.Assignment :=
  (resolveWith sampleResolver
    (pinnedTo "6f55fa6a598355c9f936c4e9d6d434de9844c27887a1ceaac557fa606adbd378".toList)
    "amd64".toList [.kernel] none).run.result (steady (withHead (fun _ => .ok kernelReply) head)) ()

theorem kernel_of_describing_or_refusing_head :
    kernelWithHead describingHead = kernelWithHead refusingHead ∧
      (kernelWithHead refusingHead).toOption =
        some [(.kernel, .plain MediaType.kernel "a".toList 1)] := by
  have hcarries : Carries kernelReply MediaType.ociManifest nestedManifest :=
    ⟨rfl, rfl, by decide⟩
  have hdescribed : HeadOf MediaType.ociManifest nestedManifest describingHead :=
    .described _ rfl (by decide) (by decide +kernel) (by decide +kernel)
  refine ⟨resolveWith_of_any_head sampleResolver "amd64".toList [.kernel] none
    ⟨⟨kernelReply, hcarries, rfl⟩, ⟨kernelReply, hcarries, rfl⟩⟩ ?_ hdescribed
    (.rejected _ rfl (by decide)), by decide +kernel⟩
  intro p hp
  cases hp
  rfl

end NetBoot.Resolver
