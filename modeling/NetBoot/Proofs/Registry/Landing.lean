import NetBoot.Image.Selection
import NetBoot.Proofs.Http.WireHeaders
import NetBoot.Proofs.Image.TaggedName
import NetBoot.Proofs.Url.HostName
import NetBoot.Registry.Client

namespace NetBoot

namespace Url

/-- A segment of a path that nothing on the way to a URL takes apart, cuts off or resolves. -/
def IsSettled (segment : Text) : Prop :=
  (segment.all fun c => c ∉ "\\?#\t\n\r".toList) ∧ isDot segment = false

instance (segment : Text) : Decidable (IsSettled segment) := inferInstanceAs (Decidable (_ ∧ _))

def AllSettled (path : Text) : Prop := ∀ s ∈ Text.splitAll '/' path, IsSettled s

instance (path : Text) : Decidable (AllSettled path) :=
  inferInstanceAs (Decidable (∀ s ∈ Text.splitAll '/' path, IsSettled s))

theorem allSettled_iff {path : Text} :
    AllSettled path ↔ (∀ c ∈ path, c ∉ "\\?#\t\n\r".toList) ∧
      ∀ s ∈ Text.splitAll '/' path, isDot s = false := by
  simp only [AllSettled, IsSettled, List.all_eq_true, decide_eq_true_eq]
  constructor
  · intro h
    refine ⟨fun c hc hsign => ?_, fun s hs => (h s hs).2⟩
    have hslash : c ≠ '/' := by
      rintro rfl
      exact absurd hsign (by decide)
    obtain ⟨s, hs, hcs⟩ := Text.exists_mem_splitAll_iff.2 ⟨hc, hslash⟩
    exact (h s hs).1 c hcs hsign
  · rintro ⟨hsigns, hdots⟩ s hs
    exact ⟨fun c hc => hsigns c (Text.exists_mem_splitAll_iff.1 ⟨s, hs, hc⟩).1, hdots s hs⟩

theorem allSettled_append_slash {front rest : Text} :
    AllSettled (front ++ '/' :: rest) ↔ AllSettled front ∧ AllSettled rest := by
  simp only [AllSettled, Text.splitAll_append_cons, List.mem_append, or_imp, forall_and]

theorem getLast?_append_slash (front t : Text) :
    (∀ c ∈ (front ++ '/' :: t).getLast?, isFramingChar c = false) ↔
      ∀ c ∈ t.getLast?, isFramingChar c = false := by
  rw [List.getLast?_append, List.getLast?_cons, Option.some_or]
  cases t.getLast? with
  | none => simp [isFramingChar]
  | some c => simp

theorem not_mem_signs_iff {c : Char} :
    c ∉ "\\?#\t\n\r".toList ↔ c ≠ '\\' ∧ c ≠ '?' ∧ c ≠ '#' ∧ isTabOrLine c = false := by
  simp [isTabOrLine, and_assoc]

theorem path_eq_iff {t : Text} :
    (splitTail true (kept t)).2.query = none ∧
        addPath true [] (splitTail true (kept t)).1 =
          (Text.splitAll '/' t).map (Percent.encode Percent.inPath) ↔
      AllSettled t ∧ ∀ c ∈ t.getLast?, isFramingChar c = false := by
  rw [addPath_eq_iff (splitTail_kept_sublist t), allSettled_iff]
  simp only [not_mem_signs_iff]
  constructor
  · rintro ⟨-, hwhole, hback, hdots⟩
    obtain ⟨hchars, hlast⟩ := splitTail_kept_eq_iff.1 hwhole
    exact ⟨⟨fun c hc => ⟨fun h => hback (h ▸ hc), hchars c hc⟩, hdots⟩, hlast⟩
  · rintro ⟨⟨hchars, hdots⟩, hlast⟩
    rw [splitTail_kept_of_not_mem (fun c hc => (hchars c hc).2) hlast]
    exact ⟨rfl, rfl, fun h => (hchars '\\' h).1 rfl, hdots⟩

theorem target?_place {scheme : Text} (h : IsWeb scheme) (p : Place) (t : Text) :
    Http.target? (scheme ++ "://".toList ++ p.toText ++ '/' :: t) =
      match p.host? with
      | none => .error .unusableUrl
      | some host =>
          .ok ⟨scheme, [], [], some host, p.portUnder scheme,
            .segments (addPath true [] (splitTail true (kept t)).1),
            (splitTail true (kept t)).2.query, (splitTail true (kept t)).2.fragment⟩ := by
  have hweb : Http.isWebScheme scheme := by rcases h with rfl | rfl <;> decide
  rw [Http.target?, parse?_place h]
  cases p.host? with
  | none => rfl
  | some host =>
      simp only [Option.map_some, if_pos hweb]
      rw [requested_eq_self (credentials?_eq_none rfl rfl)]

theorem isFramingChar_eq_false_of {p : Char → Bool} {c : Char} (hc : p c)
    (h : ∀ n < 0x21, p (Char.ofNat n) = false) : isFramingChar c = false := by
  refine Bool.eq_false_iff.2 fun hframing => ?_
  have hlow : c.toNat < 0x21 := Nat.lt_succ_of_le (by simpa [isFramingChar] using hframing)
  have hnot := h c.toNat hlow
  rw [Char.ofNat_toNat, hc] at hnot
  cases hnot

structure IsAt (u : Url) (scheme : Text) (p : Place) (host : Host) : Prop where
  scheme_eq : u.scheme = scheme
  username_eq : u.username = []
  password_eq : u.password = []
  host_eq : u.host = some host
  port_eq : u.port = p.portUnder scheme

end Url

namespace Digest

def isTextChar (c : Char) : Bool := isAlgorithmChar c || c = ':' || isEncodedChar c

theorem isTextChar_of_mem {d : Digest} (h : parse? d.toText = some d) {c : Char}
    (hc : c ∈ d.toText) : isTextChar c := by
  obtain ⟨-, ha, he⟩ := parse?_eq_some h
  rcases List.mem_append.1 hc with hc | hc
  · simp [isTextChar, List.all_eq_true.1 ha.2 c hc]
  · rcases List.mem_cons.1 hc with rfl | hc
    · decide
    · simp [isTextChar, List.all_eq_true.1 he.2 c hc]

theorem settled_toText {d : Digest} (h : parse? d.toText = some d) :
    Url.AllSettled d.toText ∧ ∀ c ∈ d.toText.getLast?, Url.isFramingChar c = false := by
  have hsigns : "\\?#\t\n\r".toList.all fun c => !isTextChar c := by decide
  refine ⟨Url.allSettled_iff.2 ⟨fun c hc hsign => ?_, fun s hs => ?_⟩, fun c hc => ?_⟩
  · have hnot := List.all_eq_true.1 hsigns c hsign
    rw [isTextChar_of_mem h hc] at hnot
    cases hnot
  · rw [Text.splitAll_of_not_mem (slash_not_mem_of_parse? h), List.mem_singleton] at hs
    have hcolon : ':' ∈ s := by simp [hs, toText]
    refine Bool.eq_false_iff.2 fun hdot => ?_
    exact absurd (Url.mem_of_isDot hdot hcolon) (by decide)
  · have hchar := isTextChar_of_mem h (List.mem_of_getLast? hc)
    exact Url.isFramingChar_eq_false_of hchar (by decide)

end Digest

theorem RegistryConfig.isWeb_schemeFor (c : RegistryConfig) (domain : Text) :
    Url.IsWeb (c.schemeFor domain) := by
  unfold RegistryConfig.schemeFor
  split
  · exact .inl rfl
  · exact .inr rfl

namespace Registry

open Http Url

def resourcePath (image : ImageName) (kind resource : Text) : Url.Path :=
  .segments (("v2".toList :: Text.splitAll '/' image.repository ++
    kind :: Text.splitAll '/' resource).map (Percent.encode Percent.inPath))

def resourceText (image : ImageName) (kind resource : Text) : Text :=
  "v2".toList ++ '/' :: image.repository ++ '/' :: kind ++ '/' :: resource

theorem blobUrl_eq (c : RegistryConfig) (image : ImageName) (d : Digest) :
    blobUrl c image d = c.schemeFor image.registry ++ "://".toList ++ image.registry ++
      '/' :: resourceText image "blobs".toList d.toText := by
  simp [blobUrl, RegistryConfig.baseUrl, resourceText]

theorem manifestUrl_eq (c : RegistryConfig) (image : ImageName) (reference : Text) :
    manifestUrl c image reference = c.schemeFor image.registry ++ "://".toList ++ image.registry ++
      '/' :: resourceText image "manifests".toList reference := by
  simp [manifestUrl, RegistryConfig.baseUrl, resourceText]

theorem exists_mem_registry {name : Text} {image : ImageName}
    (hname : ImageName.parse name = .ok image) :
    ∃ x ∈ image.registry, isSlash true x = false ∧ isTabOrLine x = false := by
  rcases ImageName.looksLikeHost_iff.1 (ImageName.looksLikeHost_registry hname) with hdot | hcolon
  · exact ⟨'.', hdot, by decide⟩
  · exact ⟨':', hcolon, by decide⟩

theorem userHeader?_eq_none {c : RegistryConfig} {name tail : Text} {image : ImageName} {q : Call}
    (hname : ImageName.parse name = .ok image) (hat : '@' ∉ image.registry)
    (hurl : q.url = c.schemeFor image.registry ++ "://".toList ++ image.registry ++ '/' :: tail) :
    q.userHeader? = none :=
  Call.userHeader?_eq_none (c.isWeb_schemeFor _) (exists_mem_registry hname) hat hurl

theorem getLast?_resourceText (image : ImageName) (kind resource : Text) :
    (∀ c ∈ (resourceText image kind resource).getLast?, isFramingChar c = false) ↔
      ∀ c ∈ resource.getLast?, isFramingChar c = false :=
  getLast?_append_slash _ resource

theorem splitAll_resourceText (image : ImageName) {kind : Text} (hkind : '/' ∉ kind)
    (resource : Text) : Text.splitAll '/' (resourceText image kind resource) =
      "v2".toList :: Text.splitAll '/' image.repository ++ kind :: Text.splitAll '/' resource := by
  have hversion : Text.splitAll '/' "v2".toList = ["v2".toList] := by decide
  rw [resourceText, Text.splitAll_append_cons, Text.splitAll_append_cons, Text.splitAll_append_cons,
    Text.splitAll_of_not_mem hkind, hversion]
  simp

theorem allSettled_resourceText (image : ImageName) {kind : Text} (hkind : AllSettled kind)
    (resource : Text) : AllSettled (resourceText image kind resource) ↔
      AllSettled image.repository ∧ AllSettled resource := by
  have hversion : AllSettled "v2".toList := by decide
  rw [resourceText, allSettled_append_slash, allSettled_append_slash, allSettled_append_slash]
  constructor
  · rintro ⟨⟨⟨-, hrepository⟩, -⟩, hresource⟩
    exact ⟨hrepository, hresource⟩
  · rintro ⟨hrepository, hresource⟩
    exact ⟨⟨⟨hversion, hrepository⟩, hkind⟩, hresource⟩

theorem target?_resource {scheme : Text} (hscheme : IsWeb scheme) (image : ImageName) (p : Place)
    {host : Host} (hhost : p.host? = some host) (kind : Text) (hslash : '/' ∉ kind)
    (hkind : AllSettled kind) (resource : Text) :
    ∃ u, target? (scheme ++ "://".toList ++ p.toText ++
          '/' :: resourceText image kind resource) = .ok u ∧ u.IsAt scheme p host ∧
      (u.query = none ∧ u.path = resourcePath image kind resource ↔
        AllSettled image.repository ∧ AllSettled resource ∧
          ∀ c ∈ resource.getLast?, isFramingChar c = false) := by
  refine ⟨_, (target?_place hscheme p _).trans (by rw [hhost]), ⟨rfl, rfl, rfl, rfl, rfl⟩, ?_⟩
  rw [resourcePath, ← splitAll_resourceText image hslash, Path.segments.injEq, path_eq_iff,
    allSettled_resourceText image hkind, getLast?_resourceText, and_assoc]

theorem requests_stay_iff (c : RegistryConfig) {image : ImageName} {p : Place}
    (hplace : image.registry = p.toText) :
    (p.host? = none →
      (∀ d, target? (blobUrl c image d) = .error .unusableUrl) ∧
        ∀ reference, target? (manifestUrl c image reference) = .error .unusableUrl) ∧
    ∀ host, p.host? = some host →
      (p.host.all Host.isNameChar →
        host = .domain (Text.lower p.host) ∨ Host.ipv4? (Text.lower p.host) = some host) ∧
      (∀ d : Digest, Digest.parse? d.toText = some d →
        ∃ u, target? (blobUrl c image d) = .ok u ∧ u.IsAt (c.schemeFor image.registry) p host ∧
          (u.query = none ∧ u.path = resourcePath image "blobs".toList d.toText ↔
            AllSettled image.repository)) ∧
      ∀ reference : Text,
        ∃ u, target? (manifestUrl c image reference) = .ok u ∧
          u.IsAt (c.schemeFor image.registry) p host ∧
          (u.query = none ∧ u.path = resourcePath image "manifests".toList reference ↔
            AllSettled image.repository ∧ AllSettled reference ∧
              ∀ c ∈ reference.getLast?, isFramingChar c = false) := by
  have hscheme := c.isWeb_schemeFor image.registry
  refine ⟨fun hnone => ⟨fun d => ?_, fun reference => ?_⟩, fun host hhost => ⟨fun hname => ?_,
    fun d hd => ?_, fun reference => ?_⟩⟩
  · rw [blobUrl_eq, hplace, target?_place (hplace ▸ hscheme), hnone]
  · rw [manifestUrl_eq, hplace, target?_place (hplace ▸ hscheme), hnone]
  · refine Host.parseSpecial?_of_name hname ?_
    unfold Place.host? at hhost
    split at hhost
    · cases hhost
    · exact hhost
  · obtain ⟨hsettled, hlast⟩ := Digest.settled_toText hd
    obtain ⟨u, htarget, hat, hpath⟩ :=
      target?_resource hscheme image p hhost "blobs".toList (by decide) (by decide) d.toText
    rw [blobUrl_eq, hplace]
    rw [hplace] at htarget hat
    exact ⟨u, htarget, hat, hpath.trans (and_iff_left ⟨hsettled, hlast⟩)⟩
  · rw [manifestUrl_eq, hplace]
    rw [hplace] at hscheme
    exact target?_resource hscheme image p hhost "manifests".toList (by decide) (by decide) reference

def localPlace : Place where
  host := "localhost".toList
  port := some "5000".toList
  host_ne_nil := by decide
  host_inert := by decide
  host_closed := by decide
  port_digits := by simp

theorem requests_stay_at_local_place :
    let image : ImageName := ⟨"localhost:5000".toList, "org/os".toList⟩
    image.registry = localPlace.toText ∧
      ∃ u, target? (manifestUrl {} image "1.0".toList) = .ok u ∧
        u.IsAt "https".toList localPlace (.domain "localhost".toList) ∧
        u.query = none ∧ u.path = resourcePath image "manifests".toList "1.0".toList := by
  intro image
  have hplace : image.registry = localPlace.toText := by decide
  have hhost : localPlace.host? = some (.domain "localhost".toList) := by decide
  obtain ⟨u, htarget, hat, hpath⟩ :=
    ((requests_stay_iff {} hplace).2 _ hhost).2.2 "1.0".toList
  exact ⟨hplace, u, htarget, hat, hpath.2 ⟨by decide, by decide, by simp [isFramingChar]⟩⟩

theorem requests_stray :
    let evil : ImageName := ⟨"ghcr.io".toList, "evil".toList⟩
    let digest : Digest := ⟨"sha256".toList, "00".toList⟩
    (∃ image u, ImageName.parse "ghcr.io/org/os/%2e%2e/%2E./evil".toList = .ok image ∧
      target? (blobUrl {} image digest) = .ok u ∧
        u.path = resourcePath evil "blobs".toList digest.toText ∧
        u.path ≠ resourcePath image "blobs".toList digest.toText) ∧
    (∃ r u, ImageReference.parse "ghcr.io/org/os:1?x".toList = .ok r ∧
      target? (manifestUrl {} r.image r.manifestReference) = .ok u ∧ u.query = some ['x']) ∧
    ∃ (entry : Descriptor) (u : Url),
      Selection.entry? [] "amd64".toList [entry] = some entry ∧
        target? (manifestUrl {} ⟨"ghcr.io".toList, "org/os".toList⟩ entry.digest) = .ok u ∧
        u.path = resourcePath evil "manifests".toList ['1'] := by
  refine ⟨⟨_, _, rfl, rfl, by decide, by decide⟩, ⟨_, _, rfl, rfl, by decide⟩, ?_⟩
  exact ⟨(Descriptor.plain MediaType.ociManifest "../../../evil/manifests/1".toList 1).withArchitecture
    "amd64".toList, _, by decide, rfl, by decide⟩

end Registry

end NetBoot
