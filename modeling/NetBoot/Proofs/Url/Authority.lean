import NetBoot.Text.Blank
import NetBoot.Url.Parser

namespace NetBoot.Url

def isInert (c : Char) : Bool := c ∉ "/\\?#@\t\n\r".toList

/-- A host as it is written, with a port if any. A colon after the host is the first one outside
brackets. -/
structure Place where
  host : Text
  port : Option Text
  host_ne_nil : host ≠ []
  host_inert : host.all isInert
  host_closed : splitHostPort false (host ++ [':']) = (host, [':'])
  port_digits : ∀ digits ∈ port, digits.all Char.isDigit

namespace Place

def portText (p : Place) : Text :=
  match p.port with
  | none => []
  | some digits => ':' :: digits

def toText (p : Place) : Text := p.host ++ p.portText

def portNumber (p : Place) : Nat := (p.port.bind Text.natural?).getD 0

def host? (p : Place) : Option Host :=
  if 65535 < p.portNumber then none else Host.parseSpecial? p.host

def portUnder (scheme : Text) (p : Place) : Option Nat :=
  match p.port with
  | none => none
  | some digits =>
      if digits = [] ∨ defaultPort? scheme = some p.portNumber then none else some p.portNumber

end Place

theorem splitHostPort_append {inside : Bool} {host rest : Text}
    (h : splitHostPort inside (host ++ [':']) = (host, [':']))
    (hrest : rest = [] ∨ ∃ digits, rest = ':' :: digits) :
    splitHostPort inside (host ++ rest) = (host, rest) := by
  induction host generalizing inside with
  | nil =>
      cases inside with
      | true => simp [splitHostPort] at h
      | false =>
          rcases hrest with rfl | ⟨digits, rfl⟩
          · rfl
          · simp [splitHostPort]
  | cons c host ih =>
      simp only [List.cons_append, splitHostPort] at h ⊢
      split at h
      · cases h
      · next hc =>
          rw [if_neg hc]
          simp only [Prod.mk.injEq, List.cons.injEq, true_and] at h
          rw [ih (Prod.ext h.1 h.2)]

theorem isInert_of_isDigit {c : Char} (h : c.isDigit) : isInert c := by
  have hsigns : "/\\?#@\t\n\r".toList.all fun c => !c.isDigit := by decide
  simp only [isInert, decide_eq_true_eq]
  intro hmem
  have hnot := List.all_eq_true.1 hsigns c hmem
  rw [h] at hnot
  cases hnot

theorem isInert_iff {c : Char} :
    isInert c ↔ isSlash true c = false ∧ c ≠ '?' ∧ c ≠ '#' ∧ c ≠ '@' ∧ isTabOrLine c = false := by
  simp [isInert, isSlash, isTabOrLine]
  grind

theorem takeWhile_eq_self {p : Char → Bool} {t : Text} (h : ∀ c ∈ t, p c) : t.takeWhile p = t := by
  rw [← List.append_nil t, List.takeWhile_append_of_pos h, List.takeWhile_nil]

theorem parsePort?_of_digits {scheme digits : Text} (h : digits.all Char.isDigit) :
    parsePort? true scheme digits =
      let n := (Text.natural? digits).getD 0
      if 65535 < n then none
      else some (if digits = [] ∨ defaultPort? scheme = some n then none else some n, []) := by
  have hdigits : ∀ c ∈ digits, c.isDigit := List.all_eq_true.1 h
  have hdrop : digits.dropWhile Char.isDigit = [] := by
    rw [← List.append_nil digits, List.dropWhile_append_of_pos hdigits, List.dropWhile_nil]
  rw [parsePort?, takeWhile_eq_self hdigits, hdrop]
  simp

namespace Place

variable {p : Place}

theorem portText_eq (p : Place) : p.portText = [] ∨ ∃ digits, p.portText = ':' :: digits := by
  unfold portText
  split
  · exact .inl rfl
  · exact .inr ⟨_, rfl⟩

theorem inert_of_mem_toText {c : Char} (h : c ∈ p.toText) : isInert c := by
  rcases List.mem_append.1 h with hhost | hport
  · exact List.all_eq_true.1 p.host_inert c hhost
  · unfold portText at hport
    split at hport
    · cases hport
    · next digits heq =>
        rcases List.mem_cons.1 hport with rfl | hc
        · decide
        · have hdigit := List.all_eq_true.1 (p.port_digits digits heq) c hc
          exact isInert_of_isDigit hdigit

theorem toText_ne_nil (p : Place) : p.toText ≠ [] := by
  simp [toText, p.host_ne_nil]

theorem parseAuthority?_toText (scheme : Text) (p : Place) :
    parseAuthority? true scheme p.toText =
      p.host?.map fun h => ⟨[], [], h, p.portUnder scheme, []⟩ := by
  have huser : Text.splitLast '@' p.toText = none :=
    Text.splitLast_eq_none.2 fun h => absurd (inert_of_mem_toText h) (by decide)
  have hplace : splitHostPort false p.toText = (p.host, p.portText) :=
    splitHostPort_append p.host_closed p.portText_eq
  rw [parseAuthority?, huser]
  dsimp only
  rw [hplace]
  dsimp only
  rw [if_neg (fun h => p.host_ne_nil h.1), if_pos rfl]
  cases hport : p.port with
  | none =>
      have htext : p.portText = [] := by rw [portText, hport]
      have hnumber : p.portNumber = 0 := by rw [portNumber, hport]; rfl
      have hunder : p.portUnder scheme = none := by rw [portUnder, hport]
      rw [htext, hunder, host?, hnumber, if_neg (by decide)]
      cases Host.parseSpecial? p.host <;> rfl
  | some digits =>
      have htext : p.portText = ':' :: digits := by rw [portText, hport]
      have hnumber : p.portNumber = (Text.natural? digits).getD 0 := by rw [portNumber, hport]; rfl
      have hunder : p.portUnder scheme =
          if digits = [] ∨ defaultPort? scheme = some p.portNumber then none
          else some p.portNumber := by rw [portUnder, hport]
      rw [htext]
      simp only
      rw [parsePort?_of_digits (p.port_digits digits hport), hunder, host?, ← hnumber]
      dsimp only
      cases Host.parseSpecial? p.host with
      | none => simp
      | some h =>
          by_cases hlarge : 65535 < p.portNumber
          · rw [if_pos hlarge, if_pos hlarge]
            rfl
          · rw [if_neg hlarge, if_neg hlarge]
            rfl

end Place

def kept (t : Text) : Text :=
  (Text.dropEndWhile isFramingChar t).filter fun c => !isTabOrLine c

theorem tidy_append_slash {front : Text} (hhead : ∀ c ∈ front.head?, isFramingChar c = false)
    (t : Text) :
    tidy (front ++ '/' :: t) = front.filter (fun c => !isTabOrLine c) ++ '/' :: kept t := by
  have hstart : (front ++ '/' :: t).dropWhile isFramingChar = front ++ '/' :: t :=
    Text.dropWhile_eq_self fun c hc => by
      cases front with
      | nil => cases hc; decide
      | cons x front => exact hhead c hc
  rw [tidy, Text.trimWith, hstart, Text.dropEndWhile_append_cons (by decide), List.filter_append]
  rfl

theorem splitTail_slash (special : Bool) (t : Text) :
    splitTail special ('/' :: t) = ('/' :: (splitTail special t).1, (splitTail special t).2) := by
  simp only [splitTail]
  rw [List.takeWhile_cons_of_pos (by decide), List.length_cons, List.drop_succ_cons]
  grind

theorem fst_splitTail (special : Bool) (t : Text) :
    (splitTail special t).1 = t.takeWhile fun c => c ≠ '?' && c ≠ '#' := by
  simp only [splitTail]
  grind

theorem splitTail_of_not_mem {special : Bool} {t : Text} (h : ∀ c ∈ t, c ≠ '?' ∧ c ≠ '#') :
    splitTail special t = (t, ⟨none, none⟩) := by
  have hfront : t.takeWhile (fun c => c ≠ '?' && c ≠ '#') = t :=
    takeWhile_eq_self fun c hc => by simp [h c hc]
  simp only [splitTail]
  rw [hfront, List.drop_length]

theorem dropEndWhile_sublist (p : Char → Bool) (t : Text) : (Text.dropEndWhile p t).Sublist t := by
  simpa [Text.dropEndWhile] using (List.dropWhile_sublist p (l := t.reverse)).reverse

theorem dropEndWhile_eq_self_iff {p : Char → Bool} {t : Text} :
    Text.dropEndWhile p t = t ↔ ∀ c ∈ t.getLast?, p c = false := by
  cases hlast : t.getLast? with
  | none => simp [List.getLast?_eq_none_iff.1 hlast, Text.dropEndWhile]
  | some c =>
      obtain ⟨front, rfl⟩ := List.getLast?_eq_some_iff.1 hlast
      cases hc : p c with
      | false => simp [Text.dropEndWhile, hc]
      | true =>
          have hdrop : Text.dropEndWhile p (front ++ [c]) = Text.dropEndWhile p front := by
            simp [Text.dropEndWhile, hc]
          have hshorter := (dropEndWhile_sublist p front).length_le
          have hne : Text.dropEndWhile p (front ++ [c]) ≠ front ++ [c] := by
            intro heq
            rw [hdrop] at heq
            rw [heq, List.length_append] at hshorter
            exact Nat.not_succ_le_self _ hshorter
          simp [hne, hc]

theorem kept_sublist_dropEndWhile (t : Text) :
    (kept t).Sublist (Text.dropEndWhile isFramingChar t) := List.filter_sublist

theorem splitTail_kept_sublist_kept (t : Text) : (splitTail true (kept t)).1.Sublist (kept t) := by
  rw [fst_splitTail]
  exact List.takeWhile_sublist _

theorem splitTail_kept_sublist (t : Text) : (splitTail true (kept t)).1.Sublist t :=
  (splitTail_kept_sublist_kept t).trans
    ((kept_sublist_dropEndWhile t).trans (dropEndWhile_sublist isFramingChar t))

theorem splitTail_kept_of_not_mem {t : Text}
    (hchars : ∀ c ∈ t, c ≠ '?' ∧ c ≠ '#' ∧ isTabOrLine c = false)
    (hlast : ∀ c ∈ t.getLast?, isFramingChar c = false) :
    splitTail true (kept t) = (t, ⟨none, none⟩) := by
  have hkept : kept t = t := by
    rw [kept, dropEndWhile_eq_self_iff.2 hlast]
    exact List.filter_eq_self.2 fun c hc => by simp [(hchars c hc).2.2]
  rw [hkept, splitTail_of_not_mem fun c hc => ⟨(hchars c hc).1, (hchars c hc).2.1⟩]

theorem splitTail_kept_eq_iff {t : Text} :
    (splitTail true (kept t)).1 = t ↔
      (∀ c ∈ t, c ≠ '?' ∧ c ≠ '#' ∧ isTabOrLine c = false) ∧
        ∀ c ∈ t.getLast?, isFramingChar c = false := by
  constructor
  · intro h
    have hkept := splitTail_kept_sublist_kept t
    rw [h] at hkept
    have hend : Text.dropEndWhile isFramingChar t = t :=
      (dropEndWhile_sublist isFramingChar t).eq_of_length_le
        (hkept.trans (kept_sublist_dropEndWhile t)).length_le
    refine ⟨fun c hc => ?_, dropEndWhile_eq_self_iff.1 hend⟩
    have hfilter : isTabOrLine c = false := by
      simpa using (List.mem_filter.1 (hkept.subset hc)).2
    rw [← h, fst_splitTail] at hc
    have hsigns := List.all_eq_true.1 List.all_takeWhile c hc
    simp only [ne_eq, Bool.and_eq_true, decide_eq_true_eq] at hsigns
    exact ⟨hsigns.1, hsigns.2, hfilter⟩
  · rintro ⟨hchars, hlast⟩
    rw [splitTail_kept_of_not_mem hchars hlast]

def IsWeb (scheme : Text) : Prop := scheme = "http".toList ∨ scheme = "https".toList

theorem splitScheme_of_isWeb {scheme : Text} (h : IsWeb scheme) (t : Text) :
    splitScheme (scheme ++ ':' :: t) = some (scheme, t) := by
  have hsplit : Text.splitOnce ':' (scheme ++ ':' :: t) = some (scheme, t) :=
    Text.splitOnce_append (by rcases h with rfl | rfl <;> decide)
  have hchars : scheme.all fun c => c.isAlphanum || c = '+' || c = '-' || c = '.' := by
    rcases h with rfl | rfl <;> decide
  have hlower : Text.lower scheme = scheme := by rcases h with rfl | rfl <;> decide
  obtain ⟨c, cs, rfl, halpha⟩ : ∃ c cs, scheme = c :: cs ∧ c.isAlpha := by
    rcases h with rfl | rfl
    · exact ⟨'h', _, rfl, by decide⟩
    · exact ⟨'h', _, rfl, by decide⟩
  rw [List.cons_append] at hsplit ⊢
  rw [splitScheme, if_pos halpha, hsplit]
  dsimp only
  rw [if_pos hchars, hlower]

theorem tidy_of_isWeb {scheme : Text} (h : IsWeb scheme) (authority t : Text) :
    tidy (scheme ++ "://".toList ++ authority ++ '/' :: t) =
      scheme ++ ':' :: '/' :: '/' ::
        (authority.filter (fun c => !isTabOrLine c) ++ '/' :: kept t) := by
  have hscheme : (scheme ++ "://".toList).filter (fun c => !isTabOrLine c) =
      scheme ++ "://".toList := by
    rcases h with rfl | rfl <;> decide
  rw [tidy_append_slash, List.filter_append, hscheme]
  · simp
  · rcases h with rfl | rfl <;> simp [isFramingChar]

theorem withAuthority?_place {scheme : Text} (h : IsWeb scheme) (p : Place) (t : Text) :
    withAuthority? scheme (p.toText ++ '/' :: t) =
      p.host?.map fun h =>
        ⟨scheme, [], [], some h, p.portUnder scheme,
          .segments (addPath true [] (splitTail true t).1), (splitTail true t).2.query,
          (splitTail true t).2.fragment⟩ := by
  have hspecial : isSpecialScheme scheme = true := by rcases h with rfl | rfl <;> decide
  have hplace : (p.toText ++ '/' :: t).takeWhile
      (fun c => !(isSlash true c || c = '?' || c = '#')) = p.toText := by
    rw [List.takeWhile_append_of_pos fun c hc => ?_]
    · simp [isSlash]
    · have hc := isInert_iff.1 (Place.inert_of_mem_toText hc)
      simp [hc.1, hc.2.1, hc.2.2.1]
  rw [withAuthority?]
  simp only [hspecial, hplace, Place.parseAuthority?_toText, List.drop_left]
  cases p.host? with
  | none => rfl
  | some h => simp [splitTail_slash, rootedPath, isSlash]

theorem parse?_place {scheme : Text} (h : IsWeb scheme) (p : Place) (t : Text) :
    parse? (scheme ++ "://".toList ++ p.toText ++ '/' :: t) =
      p.host?.map fun h =>
        ⟨scheme, [], [], some h, p.portUnder scheme,
          .segments (addPath true [] (splitTail true (kept t)).1), (splitTail true (kept t)).2.query,
          (splitTail true (kept t)).2.fragment⟩ := by
  have hinert : p.toText.filter (fun c => !isTabOrLine c) = p.toText :=
    List.filter_eq_self.2 fun c hc => by
      simp [(isInert_iff.1 (Place.inert_of_mem_toText hc)).2.2.2.2]
  have hslashes : countSlashes ('/' :: '/' :: (p.toText ++ '/' :: kept t)) = 2 := by
    have hhost : (p.toText ++ '/' :: kept t).takeWhile (isSlash true) = [] := by
      cases htext : p.toText with
      | nil => exact absurd htext p.toText_ne_nil
      | cons c cs =>
          have hc : isInert c := Place.inert_of_mem_toText (p := p) (by simp [htext])
          simp [(isInert_iff.1 hc).1]
    simp [countSlashes, isSlash, hhost]
  rw [parse?, tidy_of_isWeb h, hinert, splitScheme_of_isWeb h]
  dsimp only
  rw [absolute?, if_neg (by rcases h with rfl | rfl <;> decide),
    if_pos (by rcases h with rfl | rfl <;> decide), hslashes]
  exact withAuthority?_place h p (kept t)

theorem drop_countSlashes (t : Text) : t.drop (countSlashes t) = t.dropWhile (isSlash true) := by
  induction t with
  | nil => rfl
  | cons c t ih =>
      unfold countSlashes at ih ⊢
      cases hc : isSlash true c <;> simp [hc, ih]

theorem takeWhile_append_slash (p : Char → Bool) (hp : p '/' = false) (t rest : Text) :
    (t ++ '/' :: rest).takeWhile p = t.takeWhile p := by
  induction t with
  | nil => simp [hp]
  | cons c t ih => cases hc : p c <;> simp [hc, ih]

theorem dropWhile_append_of_mem (p : Char → Bool) {t : Text} (h : ∃ c ∈ t, p c = false)
    (rest : Text) : (t ++ rest).dropWhile p = t.dropWhile p ++ rest := by
  obtain ⟨c, hc, hp⟩ := h
  induction t with
  | nil => cases hc
  | cons x t ih =>
      cases hx : p x with
      | false => simp [hx]
      | true =>
          rcases List.mem_cons.1 hc with rfl | hc
          · exact nomatch hp.symm.trans hx
          · simpa [hx] using ih hc

def site (u : Url) : Text × Option Host × Option Nat := (u.scheme, u.host, u.port)

def Authority.site (scheme : Text) (a : Authority) : Text × Option Host × Option Nat :=
  (scheme, some a.host, a.port)

theorem map_site_withAuthority? (scheme t : Text) :
    (withAuthority? scheme t).map site =
      (parseAuthority? (isSpecialScheme scheme) scheme
        (t.takeWhile fun c => !(isSlash (isSpecialScheme scheme) c || c = '?' || c = '#'))).map
          (Authority.site scheme) := by
  rw [withAuthority?]
  dsimp only
  cases parseAuthority? (isSpecialScheme scheme) scheme
    (t.takeWhile fun c => !(isSlash (isSpecialScheme scheme) c || c = '?' || c = '#')) <;> rfl

theorem port_of_parsePort? {special : Bool} {scheme t rest : Text} {port : Option Nat}
    (h : parsePort? special scheme t = some (port, rest)) :
    ∀ n ∈ port, defaultPort? scheme ≠ some n := by
  intro n hn
  simp only [parsePort?] at h
  split at h
  · cases h
  · split at h
    · simp only [Option.some.injEq, Prod.mk.injEq] at h
      obtain ⟨rfl, -⟩ := h
      split at hn
      · cases hn
      · next hdefault =>
          cases hn
          exact fun heq => hdefault (.inr heq)
    · cases h

theorem user_of_parseAuthority? {special : Bool} {scheme t : Text} {a : Authority}
    (hat : '@' ∉ t) (h : parseAuthority? special scheme t = some a) :
    a.username = [] ∧ a.password = [] := by
  unfold parseAuthority? at h
  rw [Text.splitLast_eq_none.2 hat] at h
  dsimp only at h
  split at h
  · cases h
  · split at h
    all_goals
      obtain ⟨host, -, h⟩ := Option.bind_eq_some_iff.1 h
      split at h
      · obtain ⟨p, -, h⟩ := Option.bind_eq_some_iff.1 h
        cases h
        exact ⟨rfl, rfl⟩
      · cases h
        exact ⟨rfl, rfl⟩

theorem port_of_parseAuthority? {special : Bool} {scheme t : Text} {a : Authority}
    (h : parseAuthority? special scheme t = some a) :
    ∀ n ∈ a.port, defaultPort? scheme ≠ some n := by
  unfold parseAuthority? at h
  dsimp only at h
  split at h
  all_goals
    split at h
    · cases h
    · split at h
      all_goals
        obtain ⟨host, -, h⟩ := Option.bind_eq_some_iff.1 h
        split at h
        · obtain ⟨p, hport, h⟩ := Option.bind_eq_some_iff.1 h
          cases h
          exact port_of_parsePort? hport
        · cases h
          simp

theorem port_of_withAuthority? {scheme t : Text} {u : Url} (h : withAuthority? scheme t = some u) :
    ∀ n ∈ u.port, defaultPort? u.scheme ≠ some n := by
  have hsite := map_site_withAuthority? scheme t
  rw [h] at hsite
  obtain ⟨a, ha, hu⟩ := Option.map_eq_some_iff.1 hsite.symm
  simp only [Authority.site, site, Prod.mk.injEq] at hu
  exact hu.1 ▸ hu.2.2 ▸ port_of_parseAuthority? ha

theorem parse?_cases {t : Text} {u : Url} (h : parse? t = some u) :
    (∃ scheme rest, withAuthority? scheme rest = some u) ∨
      u.port = none ∧ ∃ special rest, u.query = (splitTail special rest).2.query := by
  unfold parse? at h
  split at h
  · unfold absolute? at h
    split at h
    · refine .inr ?_
      unfold fileUrl? at h
      dsimp only at h
      split at h
      · cases h
        exact ⟨rfl, _, _, rfl⟩
      · split at h
        · cases h
          exact ⟨rfl, _, _, rfl⟩
        · obtain ⟨host, -, h⟩ := Option.bind_eq_some_iff.1 h
          cases h
          exact ⟨rfl, _, _, rfl⟩
    · split at h
      · exact .inl ⟨_, _, h⟩
      · unfold plainUrl? at h
        split at h
        · exact .inl ⟨_, _, h⟩
        · cases h
          exact .inr ⟨rfl, _, _, rfl⟩
        · cases h
          exact .inr ⟨rfl, _, _, rfl⟩
  · cases h

theorem port_of_parse? {t : Text} {u : Url} (h : parse? t = some u) :
    ∀ n ∈ u.port, defaultPort? u.scheme ≠ some n := by
  rcases parse?_cases h with ⟨scheme, rest, hauthority⟩ | ⟨hport, -⟩
  · exact port_of_withAuthority? hauthority
  · exact fun n hn => nomatch hport.symm.trans hn

def authorityPart (t : Text) : Text :=
  ((t.filter fun c => !isTabOrLine c).dropWhile (isSlash true)).takeWhile
    fun c => !(isSlash true c || c = '?' || c = '#')

section Web

variable {scheme authority : Text} (h : IsWeb scheme)
  (hauthority : ∃ c ∈ authority, isSlash true c = false ∧ isTabOrLine c = false) (t : Text)
include h hauthority

theorem parse?_eq_withAuthority? :
    parse? (scheme ++ "://".toList ++ authority ++ '/' :: t) =
      withAuthority? scheme
        ((authority.filter fun c => !isTabOrLine c).dropWhile (isSlash true) ++ '/' :: kept t) := by
  have hkept : ∃ c ∈ authority.filter (fun c => !isTabOrLine c), isSlash true c = false := by
    obtain ⟨c, hc, hslash, hline⟩ := hauthority
    exact ⟨c, List.mem_filter.2 ⟨hc, by simp [hline]⟩, hslash⟩
  rw [parse?, tidy_of_isWeb h, splitScheme_of_isWeb h]
  dsimp only
  rw [absolute?, if_neg (by rcases h with rfl | rfl <;> decide),
    if_pos (by rcases h with rfl | rfl <;> decide), drop_countSlashes,
    List.dropWhile_cons_of_pos (by decide), List.dropWhile_cons_of_pos (by decide),
    dropWhile_append_of_mem _ hkept]

theorem map_site_parse? :
    (parse? (scheme ++ "://".toList ++ authority ++ '/' :: t)).map site =
      (parseAuthority? true scheme (authorityPart authority)).map (Authority.site scheme) := by
  have hspecial : isSpecialScheme scheme = true := by rcases h with rfl | rfl <;> decide
  rw [parse?_eq_withAuthority? h hauthority, map_site_withAuthority?, hspecial,
    takeWhile_append_slash _ (by decide)]
  rfl

theorem user_of_parse? {u : Url} (hat : '@' ∉ authority)
    (hparse : parse? (scheme ++ "://".toList ++ authority ++ '/' :: t) = some u) :
    u.username = [] ∧ u.password = [] := by
  have hspecial : isSpecialScheme scheme = true := by rcases h with rfl | rfl <;> decide
  have hnone : '@' ∉ authorityPart authority := fun hmem =>
    hat (List.mem_filter.1 ((List.dropWhile_sublist _).subset
      ((List.takeWhile_sublist _).subset hmem))).1
  rw [parse?_eq_withAuthority? h hauthority, withAuthority?, hspecial] at hparse
  dsimp only at hparse
  rw [takeWhile_append_slash _ (by decide)] at hparse
  obtain ⟨a, ha, hu⟩ := Option.bind_eq_some_iff.1 hparse
  obtain ⟨husername, hpassword⟩ := user_of_parseAuthority? hnone ha
  cases hu
  exact ⟨husername, hpassword⟩

end Web

end NetBoot.Url
