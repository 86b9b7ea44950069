import NetBoot.Image.Document.Writer
import NetBoot.Proofs.Dialogue.Runs
import NetBoot.Proofs.Registry.Calls
import NetBoot.Proofs.Registry.Landing
import NetBoot.Proofs.Success
import NetBoot.Proofs.Text.Utf8
import NetBoot.Server.LayerRequest
import NetBoot.Server.Route

namespace NetBoot

theorem Text.dropEndWhile_append_replicate {p : Char → Bool} {c : Char} (hc : p c) (t : Text)
    (n : Nat) : dropEndWhile p (t ++ List.replicate n c) = dropEndWhile p t := by
  induction n with
  | zero => simp
  | succ n ih =>
      rw [List.replicate_succ', ← List.append_assoc, ← ih]
      simp [dropEndWhile, hc]

namespace ImageName

variable {name : Text} {image : ImageName}

theorem mem_splitAll_of_host? {host : Text} (h : host? name = some host) :
    host ∈ Text.splitAll '/' name := by
  unfold host? at h
  split at h
  · next first rest hsplit =>
      split at h
      · cases h
        obtain ⟨rfl, hfirst⟩ := Text.splitOnce_eq_some hsplit
        rw [Text.splitAll_append_cons, Text.splitAll_of_not_mem hfirst]
        exact .head _
      · cases h
  · cases h

theorem registry_cases (h : parse name = .ok image) :
    image.registry = defaultRegistry ∨ image.registry ∈ Text.splitAll '/' name := by
  rw [(parse_eq_ok h).1, registry_locate]
  cases hhost : host? name with
  | none => exact .inl rfl
  | some host => exact .inr (mem_splitAll_of_host? hhost)

theorem segments_of_parse (h : parse name = .ok image) :
    ∀ s ∈ Text.splitAll '/' name, s = image.registry ∨ isPlainSegment s := by
  intro s hs
  have hplain := isPlainSegment_of_parse h
  rw [(parse_eq_ok h).1] at hplain ⊢
  unfold locate at hplain ⊢
  cases hsplit : Text.splitOnce '/' name with
  | none =>
      rw [hsplit] at hplain
      have hlibrary : "library/".toList ++ name = "library".toList ++ '/' :: name := rfl
      refine .inr (hplain s ?_)
      rw [hlibrary, Text.splitAll_append_cons]
      exact List.mem_append_right _ hs
  | some p =>
      obtain ⟨hname, hfirst⟩ := Text.splitOnce_eq_some hsplit
      rw [hsplit] at hplain
      cases hlooks : looksLikeHost p.1 with
      | true =>
          simp only [hlooks, if_true] at hplain ⊢
          rw [hname, Text.splitAll_append_cons, Text.splitAll_of_not_mem hfirst] at hs
          rcases List.mem_append.1 hs with hs | hs
          · exact .inl (List.mem_singleton.1 hs)
          · exact .inr (hplain s hs)
      | false =>
          simp only [hlooks] at hplain ⊢
          exact .inr (hplain s hs)

theorem exists_head_of_parse (h : parse name = .ok image) :
    ∃ c rest, name = c :: rest ∧ c ≠ '/' := by
  cases name with
  | nil => exact absurd rfl (parse_eq_ok h).2
  | cons c rest =>
      refine ⟨c, rest, rfl, ?_⟩
      rintro rfl
      have hempty : [] ∈ Text.splitAll '/' ('/' :: rest) := by
        rw [Text.splitAll_cons_self]
        exact .head _
      rcases segments_of_parse h [] hempty with hnil | hnil
      · exact registry_ne_nil h hnil.symm
      · cases hnil

def isNameChar (c : Char) : Bool := c.isAlphanum || c ∈ "._-:/".toList || 0x80 ≤ c.toNat

theorem not_mem_signs_of_isNameChar {c : Char} (h : isNameChar c) : c ∉ "%\\?#\t\n\r".toList := by
  have hsigns : "%\\?#\t\n\r".toList.all fun c => !isNameChar c := by decide
  intro hc
  have hnot := List.all_eq_true.1 hsigns c hc
  rw [h] at hnot
  cases hnot

theorem percent_not_mem (hchars : name.all isNameChar) : '%' ∉ name := by
  intro hc
  exact not_mem_signs_of_isNameChar (List.all_eq_true.1 hchars '%' hc) (.head _)

def dotRegistries : List Text := [['.'], ['.', '.']]

theorem allSettled_iff (h : parse name = .ok image) (hchars : name.all isNameChar) :
    Url.AllSettled name ↔ image.registry ∉ dotRegistries := by
  have hdot : ∀ s ∈ Text.splitAll '/' name, (Url.isDot s ↔ s ∈ dotRegistries) := by
    intro s hs
    rw [Url.isDot_iff_of_not_mem fun hc => percent_not_mem hchars
      (Text.exists_mem_splitAll_iff.1 ⟨s, hs, hc⟩).1]
    simp [dotRegistries]
  have hsigns : ∀ c ∈ name, c ∉ "\\?#\t\n\r".toList := fun c hc hsign =>
    not_mem_signs_of_isNameChar (List.all_eq_true.1 hchars c hc) (.tail _ hsign)
  rw [Url.allSettled_iff, and_iff_right hsigns]
  constructor
  · intro hnone hregistry
    rcases registry_cases h with hdefault | hmem
    · rw [hdefault] at hregistry
      exact absurd hregistry (by decide)
    · have hsegment := (hdot _ hmem).2 hregistry
      rw [hnone _ hmem] at hsegment
      cases hsegment
  · intro hregistry s hs
    refine Bool.eq_false_iff.2 fun hsegment => ?_
    have hmem := (hdot s hs).1 hsegment
    rcases segments_of_parse h s hs with rfl | hplain
    · exact hregistry hmem
    · have hnot : ∀ d ∈ dotRegistries, isPlainSegment d = false := by decide
      rw [hnot s hmem] at hplain
      cases hplain

end ImageName

namespace Digest

variable {d : Digest}

def asSha256 (d : Digest) : Digest := { d with algorithm := sha256 }

theorem asSha256_eq_iff : d.asSha256 = d ↔ d.algorithm = sha256 := by
  cases d
  simp [asSha256, eq_comm]

theorem after?_toSegment (d : Digest) :
    Text.after? "sha256-".toList d.toSegment = some d.encoded := Text.after?_append _ _

theorem ofSegment_toSegment (h : IsEncoded d.encoded) : ofSegment d.toSegment = .ok d.asSha256 := by
  have halgorithm : IsAlgorithm sha256 := by decide
  have htext : "sha256:".toList ++ d.encoded = d.asSha256.toText := rfl
  have hparse : parse? d.asSha256.toText = some d.asSha256 := parse?_toText halgorithm h
  simp only [ofSegment, after?_toSegment, htext, hparse]

def isFileChar (c : Char) : Bool := isEncodedChar c || c = '.'

theorem isFileChar_of_mem {c : Char} (h : IsEncoded d.encoded)
    (hc : c ∈ d.toSegment ++ LayerRequest.extension) : isFileChar c := by
  have hlead : "sha256-".toList.all isFileChar := by decide
  have hextension : LayerRequest.extension.all isFileChar := by decide
  rcases List.mem_append.1 hc with hc | hc
  · rcases List.mem_append.1 hc with hc | hc
    · exact List.all_eq_true.1 hlead c hc
    · simp [isFileChar, List.all_eq_true.1 h.2 c hc]
  · exact List.all_eq_true.1 hextension c hc

end Digest

namespace LayerRequest

variable {name : Text} {image : ImageName} {d : Digest}

def bootPath (name : Text) (d : Digest) : Text := name ++ '/' :: (d.toSegment ++ extension)

theorem ofBootPath_of_dropWhile {path : Text} (hd : Digest.IsEncoded d.encoded)
    (hpath : path.dropWhile (· = '/') = bootPath name d) :
    ofBootPath path = .ok ⟨name, .digest d.asSha256⟩ := by
  have hslash : '/' ∉ d.toSegment ++ extension := fun hc =>
    absurd (Digest.isFileChar_of_mem hd hc) (by decide)
  have hstart : Text.startsWith d.toSegment "sha256-".toList := by
    simp only [Text.startsWith, Digest.after?_toSegment, Option.isSome_some]
  rw [ofBootPath, hpath, bootPath, Text.splitLast_append hslash]
  simp only [Text.before?_append, hstart, if_true, Digest.ofSegment_toSegment hd]

theorem dropWhile_bootPath {c : Char} (rest : Text) (hc : c ≠ '/') (d : Digest) :
    (bootPath (c :: rest) d).dropWhile (· = '/') = bootPath (c :: rest) d :=
  List.dropWhile_cons_of_neg (by simpa using hc)

theorem ofBootPath_bootPath (hname : ImageName.parse name = .ok image)
    (hd : Digest.IsEncoded d.encoded) :
    ofBootPath (bootPath name d) = .ok ⟨name, .digest d.asSha256⟩ := by
  obtain ⟨c, rest, rfl, hc⟩ := ImageName.exists_head_of_parse hname
  exact ofBootPath_of_dropWhile hd (dropWhile_bootPath rest hc d)

theorem percent_not_mem_bootPath (hchars : name.all ImageName.isNameChar)
    (hd : Digest.IsEncoded d.encoded) : '%' ∉ bootPath name d := by
  intro hc
  rcases List.mem_append.1 hc with hc | hc
  · exact ImageName.percent_not_mem hchars hc
  · rcases List.mem_cons.1 hc with hc | hc
    · cases hc
    · exact absurd (Digest.isFileChar_of_mem hd hc) (by decide)

theorem not_mem_signs_of_mem_file (hd : Digest.IsEncoded d.encoded) {c : Char}
    (hc : c ∈ d.toSegment ++ extension) : c ∉ "/\\?#\t\n\r".toList := by
  have hsigns : "/\\?#\t\n\r".toList.all fun c => !Digest.isFileChar c := by decide
  intro hsign
  have hnot := List.all_eq_true.1 hsigns c hsign
  rw [Digest.isFileChar_of_mem hd hc] at hnot
  cases hnot

theorem allSettled_file (hd : Digest.IsEncoded d.encoded) :
    Url.AllSettled (d.toSegment ++ extension) := by
  refine Url.allSettled_iff.2 ⟨fun c hc hsign => ?_, fun s hs => ?_⟩
  · exact not_mem_signs_of_mem_file hd hc (.tail _ hsign)
  · have hslash : '/' ∉ d.toSegment ++ extension := fun hc =>
      not_mem_signs_of_mem_file hd hc (.head _)
    rw [Text.splitAll_of_not_mem hslash, List.mem_singleton] at hs
    have hfirst : 's' ∈ s := by
      rw [hs]
      exact .head _
    refine Bool.eq_false_iff.2 fun hdot => ?_
    exact absurd (Url.mem_of_isDot hdot hfirst) (by decide)

theorem allSettled_bootPath (hname : ImageName.parse name = .ok image)
    (hchars : name.all ImageName.isNameChar) (hd : Digest.IsEncoded d.encoded) :
    Url.AllSettled (bootPath name d) ↔ image.registry ∉ ImageName.dotRegistries := by
  rw [bootPath, Url.allSettled_append_slash, and_iff_left (allSettled_file hd)]
  exact ImageName.allSettled_iff hname hchars

theorem getLast?_bootPath (name : Text) (d : Digest) :
    ∀ c ∈ (bootPath name d).getLast?, Url.isFramingChar c = false := by
  have hlast : extension.getLast? = some 'i' := by decide
  refine (Url.getLast?_append_slash name _).2 fun c hc => ?_
  rw [List.getLast?_append, hlast, Option.some_or, Option.mem_some_iff] at hc
  rw [← hc]
  rfl

end LayerRequest

namespace Route

variable {path : Text}

def bootLead : Text := "/httpboot/".toList

theorem ofPath?_bootLead (h : path ≠ []) : ofPath? (bootLead ++ path) = some (.httpBoot path) := by
  have hafter : Text.after? bootLead (bootLead ++ path) = some path := Text.after?_append _ _
  have hother {t : Text} (ht : Text.after? bootLead t = none) : bootLead ++ path ≠ t := by
    intro heq
    rw [heq, ht] at hafter
    cases hafter
  have hlead : Text.after? "/httpboot/".toList (bootLead ++ path) = some path := hafter
  rw [ofPath?, if_neg (hother (by decide)), if_neg (hother (by decide)), hlead]
  cases path with
  | nil => exact absurd rfl h
  | cons c rest => rfl

theorem decode?_of_not_mem (h : '%' ∉ path) : decode? path = some path := by
  rw [decode?, Percent.decode_of_not_mem (Percent.percent_not_mem_encode h), Utf8.decode?_encode]

theorem decode?_encode (escape : Char → Bool) (h : '%' ∉ path) :
    decode? (Percent.encode escape path) = some path := by
  rw [decode?, Percent.decode_encode escape h, Utf8.decode?_encode]

def urlPath (path : Text) : Url.Path :=
  .segments ((Text.splitAll '/' ("httpboot/".toList ++ path)).map
    (Percent.encode Percent.inPath))

theorem urlPath_eq (path : Text) :
    urlPath path = .segments ((Text.splitAll '/' ("httpboot".toList ++ '/' :: path)).map
      (Percent.encode Percent.inPath)) := rfl

theorem toText_urlPath (path : Text) :
    (urlPath path).toText = bootLead ++ Percent.encode Percent.inPath path := by
  have hlead : ∀ c ∈ "httpboot/".toList, Percent.leaves Percent.inPath c := by
    simp only [← List.all_eq_true]
    decide
  rw [urlPath, Url.toText_segments_splitAll, Percent.encode_append, Percent.encode_of_leaves hlead]
  rfl

end Route

namespace Resolver

open Http

def urlFor (serverUrl name : Text) (uki : Descriptor) : Except RegistryError Text :=
  match Digest.parse? uki.digest with
  | none => .error (.invalidDigest uki.digest)
  | some d =>
      if (Url.parse? serverUrl).isSome then .ok (bootUrl serverUrl name d)
      else .error (.invalidUrl serverUrl)

theorem urlFor_eq_ok {serverUrl name url : Text} {uki : Descriptor}
    (h : urlFor serverUrl name uki = .ok url) :
    ∃ d, Digest.parse? uki.digest = some d ∧ (Url.parse? serverUrl).isSome ∧
      url = bootUrl serverUrl name d := by
  unfold urlFor at h
  split at h
  · cases h
  · next d hd =>
      split at h
      · next hparse =>
          cases h
          exact ⟨d, hd, hparse, rfl⟩
      · cases h

theorem run_httpBootUrl (r : Resolver) (image serverUrl architecture : Text)
    {reference : ImageReference} (h : ImageReference.parse image = .ok reference)
    (cache : AuthCache) :
    (httpBootUrl r image serverUrl architecture).run.run cache =
      ((resolveSingle r reference architecture .uki).run.run cache).bind fun p =>
        .done (p.1.bind (urlFor serverUrl reference.name), p.2) := by
  unfold httpBootUrl
  rw [h, Session.ofExcept_ok_bind, ExceptT.run_bind, StateT.run_bind]
  refine congrArg (Dialogue.bind _) (funext fun p => ?_)
  obtain ⟨e | uki, cache'⟩ := p
  · rfl
  · change StateT.run (ExceptT.run (match Digest.parse? uki.digest with | none => _ | some _ => _))
      cache' = Dialogue.done (urlFor serverUrl reference.name uki, cache')
    unfold urlFor
    cases Digest.parse? uki.digest with
    | none => rfl
    | some d =>
        dsimp only
        split <;> rfl

variable {scheme : Text} {p : Url.Place}

def serverUrlAt (scheme : Text) (p : Url.Place) (slashes : Nat) : Text :=
  scheme ++ "://".toList ++ p.toText ++ "/httpboot".toList ++ List.replicate slashes '/'

theorem bootUrl_serverUrlAt (scheme : Text) (p : Url.Place) (slashes : Nat) (name : Text)
    (d : Digest) : bootUrl (serverUrlAt scheme p slashes) name d =
      scheme ++ "://".toList ++ p.toText ++ Route.bootLead ++ LayerRequest.bootPath name d := by
  have hlast : "/httpboot".toList.getLast? = some 't' := by decide
  have hend (front : Text) :
      Text.dropEndWhile (· = '/') (front ++ "/httpboot".toList) = front ++ "/httpboot".toList := by
    rw [Url.dropEndWhile_eq_self_iff, List.getLast?_append, hlast]
    simp
  have hlead : Route.bootLead = "/httpboot".toList ++ ['/'] := rfl
  rw [bootUrl, serverUrlAt, Text.dropEndWhile_append_replicate (by decide), hend, hlead]
  simp only [LayerRequest.bootPath, LayerRequest.extension, List.append_assoc, List.cons_append,
    List.nil_append]

structure LeadsBack (scheme : Text) (p : Url.Place) (reference : ImageReference) (d : Digest)
    (url : Text) : Prop where
  url_eq : url = scheme ++ "://".toList ++ p.toText ++ Route.bootLead ++
    LayerRequest.bootPath reference.name d
  parsed : ∃ u host, Url.parse? url = some u ∧ u.IsAt scheme p host ∧
    (u.query = none ∧ u.path = Route.urlPath (LayerRequest.bootPath reference.name d) ↔
      reference.image.registry ∉ ImageName.dotRegistries)
  received : ∀ target ∈ [Route.bootLead ++ LayerRequest.bootPath reference.name d,
      (Route.urlPath (LayerRequest.bootPath reference.name d)).toText],
    ∃ sent, Route.ofPath? target = some (.httpBoot sent) ∧
      Route.decode? sent = some (LayerRequest.bootPath reference.name d)
  image : ImageName.parse reference.name = .ok reference.image
  read : ∃ d', LayerRequest.ofBootPath (LayerRequest.bootPath reference.name d) =
      .ok ⟨reference.name, .digest d'⟩ ∧ (d' = d ↔ d.algorithm = Digest.sha256)

theorem host?_of_serverUrlAt {slashes : Nat} (hscheme : Url.IsWeb scheme)
    (h : (Url.parse? (serverUrlAt scheme p slashes)).isSome) : ∃ host, p.host? = some host := by
  have htext : serverUrlAt scheme p slashes = scheme ++ "://".toList ++ p.toText ++
      '/' :: ("httpboot".toList ++ List.replicate slashes '/') := List.append_assoc _ _ _
  rw [htext, Url.parse?_place hscheme, Option.isSome_map] at h
  exact Option.isSome_iff_exists.1 h

theorem leadsBack_bootUrl {reference : ImageReference} {d : Digest} {host : Url.Host}
    (himage : ImageName.parse reference.name = .ok reference.image)
    (hchars : reference.name.all ImageName.isNameChar) (hd : Digest.IsEncoded d.encoded)
    (hscheme : Url.IsWeb scheme) (hhost : p.host? = some host) (slashes : Nat) :
    LeadsBack scheme p reference d
      (bootUrl (serverUrlAt scheme p slashes) reference.name d) := by
  have hpercent := LayerRequest.percent_not_mem_bootPath hchars hd
  have hne : LayerRequest.bootPath reference.name d ≠ [] := by simp [LayerRequest.bootPath]
  refine ⟨bootUrl_serverUrlAt scheme p slashes reference.name d, ?_, ?_, himage, ?_⟩
  · have htext : bootUrl (serverUrlAt scheme p slashes) reference.name d =
        scheme ++ "://".toList ++ p.toText ++
          '/' :: ("httpboot".toList ++ '/' :: LayerRequest.bootPath reference.name d) := by
      rw [bootUrl_serverUrlAt, List.append_assoc]
      rfl
    rw [htext, Url.parse?_place hscheme, hhost]
    refine ⟨_, host, rfl, ⟨rfl, rfl, rfl, rfl, rfl⟩, ?_⟩
    have hsettled : Url.AllSettled "httpboot".toList := by decide
    have hlast := (Url.getLast?_append_slash "httpboot".toList _).2
      (LayerRequest.getLast?_bootPath reference.name d)
    dsimp only
    rw [Route.urlPath_eq, Url.Path.segments.injEq, Url.path_eq_iff, Url.allSettled_append_slash,
      and_iff_right hsettled, and_iff_left hlast]
    exact LayerRequest.allSettled_bootPath himage hchars hd
  · intro target htarget
    simp only [List.mem_cons, List.not_mem_nil, or_false] at htarget
    rcases htarget with rfl | rfl
    · exact ⟨_, Route.ofPath?_bootLead hne, Route.decode?_of_not_mem hpercent⟩
    · rw [Route.toText_urlPath]
      have hne' : Percent.encode Percent.inPath (LayerRequest.bootPath reference.name d) ≠ [] :=
        mt Percent.encode_eq_nil_iff.1 hne
      exact ⟨_, Route.ofPath?_bootLead hne', Route.decode?_encode _ hpercent⟩
  · exact ⟨_, LayerRequest.ofBootPath_bootPath himage hd, Digest.asSha256_eq_iff⟩

theorem bootUrl_leads_back (r : Resolver) {image architecture : Text} {reference : ImageReference}
    (hreference : ImageReference.parse image = .ok reference)
    (hchars : reference.name.all ImageName.isNameChar) (hscheme : Url.IsWeb scheme)
    (slashes : Nat) {σ : Type} (network : Dialogue.Answerer Call (Except CallError Reply) σ)
    (start : σ) (cache : AuthCache) {url : Text}
    (hurl : (((httpBootUrl r image (serverUrlAt scheme p slashes) architecture).run.run
      cache).result network start).1 = .ok url) :
    ∃ uki d, (((resolveSingle r reference architecture .uki).run.run cache).result network
        start).1 = .ok uki ∧
      Digest.parse? uki.digest = some d ∧ LeadsBack scheme p reference d url := by
  rw [run_httpBootUrl r image _ architecture hreference, Dialogue.result, Dialogue.run_bind] at hurl
  obtain ⟨uki, huki, hfor⟩ := Except.bind_eq_ok.1 hurl
  obtain ⟨d, hd, hparse, rfl⟩ := urlFor_eq_ok hfor
  obtain ⟨host, hhost⟩ := host?_of_serverUrlAt hscheme hparse
  obtain ⟨-, -, hencoded⟩ := Digest.parse?_eq_some hd
  have himage := (ImageReference.parse_eq_ok hreference).1
  exact ⟨uki, d, huki, hd, leadsBack_bootUrl himage hchars hencoded hscheme hhost slashes⟩

def offering (digest : Text) : Dialogue.Answerer Call (Except CallError Reply) Unit :=
  Dialogue.steady fun _ =>
    .ok ⟨default, 200, [], ⟨Utf8.encode (Document.writeManifest
      (.ofLayers [.plain MediaType.uki digest 1])).render, .whole, none⟩⟩

def pinnedOs : ImageReference where
  name := "ghcr.io/org/os".toList
  image := ⟨"ghcr.io".toList, "org/os".toList⟩
  tag := none
  digest := some ⟨"sha512".toList, "00".toList⟩

def offeredUki (digest : Text) : Except RegistryError Descriptor :=
  (((resolveSingle { config := {} } pinnedOs "amd64".toList .uki).run.run []).result
    (offering digest) ()).1

def offeredUrl (digest : Text) : Except RegistryError Text :=
  (((httpBootUrl { config := {} } pinnedOs.toText
    (serverUrlAt "http".toList Registry.localPlace 1) "amd64".toList).run.run []).result
      (offering digest) ()).1

theorem bootUrl_of_sha256_leads_back :
    ∃ url uki d, offeredUrl "sha256:abc".toList = .ok url ∧
      offeredUki "sha256:abc".toList = .ok uki ∧ Digest.parse? uki.digest = some d ∧
      LeadsBack "http".toList Registry.localPlace pinnedOs d url := by
  have hreference : ImageReference.parse pinnedOs.toText = .ok pinnedOs := rfl
  have hsome : (offeredUrl "sha256:abc".toList).toOption.isSome := by decide +kernel
  obtain ⟨url, hurl⟩ := Except.exists_of_isSome_toOption hsome
  obtain ⟨uki, d, huki, hd, hback⟩ := bootUrl_leads_back { config := {} } hreference
    (by decide) (.inl rfl) 1 (offering "sha256:abc".toList) () [] hurl
  exact ⟨url, uki, d, hurl, huki, hd, hback⟩

theorem bootUrl_of_sha512_leads_astray :
    let path := "ghcr.io/org/os/sha256-abc.efi".toList
    (offeredUrl "sha512:abc".toList).toOption =
        some ("http://localhost:5000".toList ++ Route.bootLead ++ path) ∧
      (offeredUki "sha512:abc".toList).toOption.bind (fun uki => Digest.parse? uki.digest) =
        some ⟨"sha512".toList, "abc".toList⟩ ∧
      Route.ofPath? (Route.bootLead ++ path) = some (.httpBoot path) ∧
      Route.decode? path = some path ∧
      (LayerRequest.ofBootPath path).toOption =
        some ⟨pinnedOs.name, .digest ⟨Digest.sha256, "abc".toList⟩⟩ := by
  decide +kernel

end Resolver

end NetBoot
