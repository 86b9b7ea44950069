import NetBoot.Proofs.Image.WrittenForms
import NetBoot.Proofs.Registry.ChallengeScan

namespace NetBoot

namespace Text

variable {t : Text} {c : Char}

theorem isBlank_of_mem_lower (h : ∀ c ∈ lower t, isBlank c = false) (hc : c ∈ t) :
    isBlank c = false := by
  by_contra hblank
  rw [Bool.not_eq_false] at hblank
  -- A blank is no letter, and so it is its own lower case.
  have hself : c.toLower = c := by
    refine dif_neg fun hupper => ?_
    have hlow : 65 ≤ c.toNat := UInt32.le_iff_toNat_le.1 hupper.1
    have hhigh : c.toNat ≤ 90 := UInt32.le_iff_toNat_le.1 hupper.2
    grind [isBlank]
  have hlower := h c.toLower (List.mem_map_of_mem hc)
  rw [hself, hblank] at hlower
  cases hlower

end Text

namespace Challenge

variable {quoted : Bool} {a t u before after : Text} {c : Char}

theorem pieces_append_inner (h : ∀ c ∈ a, isInner quoted c) (t : Text) :
    pieces quoted (a ++ t) = (pieces quoted t).map (prepend a) := by
  induction a with
  | nil => rw [List.nil_append, prepend_nil, Option.map_id, id]
  | cons c a ih =>
      rw [List.cons_append, pieces_cons_inner (h c (.head _)), ih fun c hc => h c (.tail _ hc),
        Option.map_map, prepend_comp]
      rfl

def isBetween (c : Char) : Bool := isSeparator c && c.toNat < 0x80

theorem pieces_between (h : a.all isBetween) (t : Text) :
    pieces false (a ++ t) = (pieces false t).map (List.replicate a.length [] ++ ·) := by
  induction a with
  | nil => exact Option.map_id'.symm
  | cons c a ih =>
      simp only [List.all_cons, isBetween, Bool.and_eq_true, decide_eq_true_eq] at h
      obtain ⟨⟨hseparator, hascii⟩, ha⟩ := h
      rw [List.cons_append, pieces_cons_separator hseparator, if_pos hascii, ih ha,
        Option.map_map]
      rfl

def isKeyChar (c : Char) : Bool := c.isAlphanum || c = '-' || c = '_'

theorem isEncodedChar_of_isKeyChar (h : isKeyChar c) : Digest.isEncodedChar c := by
  simp only [isKeyChar, Digest.isEncodedChar, Bool.or_eq_true] at h ⊢
  rcases h with (h | h) | h
  · exact .inl (.inl (.inl h))
  · exact .inr h
  · exact .inl (.inr h)

structure Parameter where
  key : Text
  value : Text
  quoted : Bool
  key_ne_nil : key ≠ []
  key_chars : key.all isKeyChar
  quote_not_mem : '"' ∉ value
  bare : quoted = false → value.all fun c => !isSeparator c

namespace Parameter

def valueText (p : Parameter) : Text := if p.quoted then '"' :: (p.value ++ ['"']) else p.value

def toText (p : Parameter) : Text := p.key ++ '=' :: p.valueText

def content (p : Parameter) : Text × Text := (Text.lower p.key, p.value)

theorem isKeyChar_of_mem_key {p : Parameter} (hc : c ∈ p.key) : isKeyChar c :=
  List.all_eq_true.1 p.key_chars c hc

theorem isBlank_of_mem_key {p : Parameter} (hc : c ∈ p.key) : Text.isBlank c = false :=
  Digest.isBlank_of_isEncodedChar (isEncodedChar_of_isKeyChar (isKeyChar_of_mem_key hc))

theorem not_mem_key (p : Parameter) (h : isKeyChar c = false) : c ∉ p.key := fun hc => by
  rw [isKeyChar_of_mem_key hc] at h
  cases h

theorem isSeparator_of_mem_value {p : Parameter} (h : p.quoted = false) (hc : c ∈ p.value) :
    isSeparator c = false := by
  simpa using List.all_eq_true.1 (p.bare h) c hc

theorem isBlank_of_mem_value {p : Parameter} (h : p.quoted = false) (hc : c ∈ p.value) :
    Text.isBlank c = false := (Bool.or_eq_false_iff.1 (isSeparator_of_mem_value h hc)).2

theorem isInner_of_mem_key {p : Parameter} (hc : c ∈ p.key ++ ['=']) : isInner false c := by
  rcases List.mem_append.1 hc with hc | hc
  · refine isInner_of (fun hquote => p.not_mem_key (c := '"') (by decide) (hquote ▸ hc)) ?_
    have hcomma : c ≠ ',' := fun hcomma => p.not_mem_key (c := ',') (by decide) (hcomma ▸ hc)
    simp [isSeparator, hcomma, isBlank_of_mem_key hc]
  · rw [List.mem_singleton.1 hc]
    decide

theorem isInner_of_mem_value {p : Parameter} (hc : c ∈ p.value) : isInner p.quoted c := by
  refine isInner_of (fun hquote => p.quote_not_mem (hquote ▸ hc)) ?_
  cases hq : p.quoted with
  | false => simpa using isSeparator_of_mem_value hq hc
  | true => rfl

theorem pieces_toText (p : Parameter) (t : Text) :
    pieces false (p.toText ++ t) = (pieces false t).map (prepend p.toText) := by
  have hvalue (c : Char) (hc : c ∈ p.value) := p.isInner_of_mem_value hc
  have htext (v : Text) : p.key ++ '=' :: v = (p.key ++ ['=']) ++ v := by simp
  cases hq : p.quoted with
  | false =>
      rw [hq] at hvalue
      rw [toText, valueText, hq, htext, if_neg Bool.false_ne_true, List.append_assoc,
        pieces_append_inner fun c hc => isInner_of_mem_key hc, pieces_append_inner hvalue,
        Option.map_map, prepend_comp]
  | true =>
      rw [hq] at hvalue
      have hquotes (t : Text) : '"' :: (p.value ++ ['"']) ++ t = '"' :: (p.value ++ '"' :: t) := by
        simp
      rw [toText, valueText, hq, htext, if_pos rfl, List.append_assoc,
        pieces_append_inner fun c hc => isInner_of_mem_key hc, hquotes, pieces_cons_quote,
        Bool.not_false, pieces_append_inner hvalue, pieces_cons_quote, Bool.not_true]
      simp only [Option.map_map, prepend_comp]
      simp

theorem unquote_valueText (p : Parameter) : unquote (Text.trim p.valueText) = p.value := by
  have hself : unquote p.value = p.value :=
    Text.trimWith_eq_self fun c hc => decide_eq_false fun (h : c = '"') => p.quote_not_mem (h ▸ hc)
  cases hq : p.quoted with
  | false =>
      rw [valueText, hq, if_neg Bool.false_ne_true, Text.trim,
        Text.trimWith_eq_self fun c hc => isBlank_of_mem_value hq hc, hself]
  | true =>
      have hlast : ('"' :: (p.value ++ ['"'])).getLast? = some '"' :=
        List.getLast?_concat (l := '"' :: p.value)
      have htrimmed : Text.IsTrimmed ('"' :: (p.value ++ ['"'])) := by
        refine ⟨fun c hc => ?_, fun c hc => ?_⟩
        · cases hc
          rfl
        · cases hlast.symm.trans hc
          rfl
      have hquotes : unquote (['"'] ++ p.value ++ ['"']) = unquote p.value :=
        Text.trimWith_surrounded (by simp) (by simp) p.value
      rw [valueText, hq, if_pos rfl, Text.trim_eq_self htrimmed]
      exact hquotes.trans hself

theorem parameter?_toText (p : Parameter) : parameter? p.toText = some p.content := by
  have hkey : Text.trim p.key = p.key := Text.trimWith_eq_self fun c hc => isBlank_of_mem_key hc
  rw [parameter?, toText, Text.splitOnce_append (p.not_mem_key (by decide))]
  dsimp only
  rw [hkey, unquote_valueText]
  rfl

theorem getLast?_toText {p : Parameter} (hc : c ∈ p.toText.getLast?) : Text.isBlank c = false := by
  rw [toText, List.getLast?_append, List.getLast?_cons, Option.some_or, Option.mem_some_iff] at hc
  cases hlast : p.valueText.getLast? with
  | none =>
      rw [hlast] at hc
      cases hc
      decide
  | some last =>
      rw [hlast] at hc
      obtain rfl : last = c := hc
      cases hq : p.quoted with
      | false =>
          rw [valueText, hq, if_neg Bool.false_ne_true] at hlast
          exact isBlank_of_mem_value hq (List.mem_of_getLast? hlast)
      | true =>
          rw [valueText, hq, if_pos rfl, ← List.cons_append, List.getLast?_concat] at hlast
          cases hlast
          decide

end Parameter

inductive WrittenAs : List Parameter → Text → Prop
  | nil : WrittenAs [] []
  | single (p : Parameter) : WrittenAs [p] p.toText
  | cons (p q : Parameter) (ps : List Parameter) (between t : Text) : between ≠ [] →
      between.all isBetween → WrittenAs (q :: ps) t →
      WrittenAs (p :: q :: ps) (p.toText ++ (between ++ t))

variable {ps qs : List Parameter}

theorem WrittenAs.ne_nil {p : Parameter} (h : WrittenAs (p :: ps) t) : t ≠ [] := by
  cases h with
  | single => simp [Parameter.toText]
  | cons => simp [Parameter.toText]

theorem WrittenAs.getLast? (h : WrittenAs ps t) : ∀ c ∈ t.getLast?, Text.isBlank c = false := by
  induction h with
  | nil => exact nofun
  | single p => exact fun c hc => p.getLast?_toText hc
  | cons p q ps between t _ _ h ih =>
      have hne : between ++ t ≠ [] := by simp [h.ne_nil]
      rwa [List.getLast?_append_of_ne_nil _ hne, List.getLast?_append_of_ne_nil _ h.ne_nil]

theorem WrittenAs.parameters_eq (h : WrittenAs ps t) :
    parameters t = some (ps.map Parameter.content) := by
  induction h with
  | nil => rfl
  | single p =>
      have hpieces := p.pieces_toText []
      rw [List.append_nil] at hpieces
      rw [parameters, hpieces]
      simp [pieces, prepend, p.parameter?_toText]
  | cons p q ps between t hne hbetween _ ih =>
      obtain ⟨n, hn⟩ := Nat.exists_eq_add_one.2 (List.length_pos_iff.2 hne)
      rw [parameters, p.pieces_toText, pieces_between hbetween, hn]
      rw [parameters] at ih
      obtain ⟨rest, hrest, hps⟩ := Option.map_eq_some_iff.1 ih
      -- The empty pieces between two separators hold no parameter.
      have hempty : (List.replicate n ([] : Text)).filterMap parameter? = [] :=
        List.filterMap_eq_nil_iff.2 fun piece hpiece => by
          rw [List.eq_of_mem_replicate hpiece]
          rfl
      simp [hrest, prepend, List.replicate_succ, p.parameter?_toText, hempty, hps]

def valuesOf (key : Text) (ps : List Parameter) : List Text :=
  (ps.filter fun p => Text.lower p.key = key).map Parameter.value

theorem lookup_eq_head? (key : Text) (l : List (Text × Text)) :
    List.lookup key l = ((l.filter fun x => x.1 = key).map Prod.snd).head? := by
  induction l with
  | nil => rfl
  | cons x l ih =>
      obtain ⟨k, value⟩ := x
      by_cases hk : k = key
      · simp [hk]
      · have hne : (key == k) = false := by simpa using Ne.symm hk
        rw [List.lookup_cons, hne, ih, List.filter_cons_of_neg (by simpa using hk)]

theorem valueOf?_content (key : Text) (ps : List Parameter) :
    valueOf? key (ps.map Parameter.content) = (valuesOf key ps).getLast? := by
  rw [valueOf?, lookup_eq_head?, List.filter_reverse, List.map_reverse, List.head?_reverse,
    List.filter_map, List.map_map]
  rfl

theorem splitScheme_trim {scheme : Text} (hne : scheme ≠ [])
    (hscheme : ∀ c ∈ scheme, Text.isBlank c = false) (h : WrittenAs ps t)
    (hbefore : ∀ c ∈ before, Text.isBlank c) (hafter : ∀ c ∈ after, Text.isBlank c) :
    splitScheme (Text.trim (before ++ (scheme ++ ' ' :: t) ++ after)) = (scheme, t) := by
  have hspace : ' ' ∉ scheme := fun hc => absurd (hscheme ' ' hc) (by decide)
  rw [Text.trim_surrounded hbefore hafter]
  cases ps with
  | nil =>
      cases h
      -- Without parameters, the space after the scheme is at the end and trimmed away.
      have hend : Text.trim ([] ++ scheme ++ [' ']) = Text.trim scheme :=
        Text.trim_surrounded (by simp) (by simp [Text.isBlank]) scheme
      have htrim : Text.trim (scheme ++ [' ']) = scheme :=
        hend.trans (Text.trimWith_eq_self hscheme)
      rw [htrim, splitScheme, Text.splitOnce_eq_none.2 hspace]
  | cons p ps =>
      have htrimmed : Text.IsTrimmed (scheme ++ ' ' :: t) := by
        refine ⟨?_, ?_⟩
        · rw [List.head?_append_of_ne_nil _ hne]
          exact fun c hc => hscheme c (List.mem_of_mem_head? hc)
        · rw [← List.singleton_append, ← List.append_assoc,
            List.getLast?_append_of_ne_nil _ h.ne_nil]
          exact h.getLast?
      rw [Text.trim_eq_self htrimmed, splitScheme, Text.splitOnce_append hspace]

theorem parse_written {scheme : Text} (hne : scheme ≠ [])
    (hscheme : ∀ c ∈ scheme, Text.isBlank c = false) (h : WrittenAs ps t)
    (hbefore : ∀ c ∈ before, Text.isBlank c) (hafter : ∀ c ∈ after, Text.isBlank c) :
    parse (before ++ (scheme ++ ' ' :: t) ++ after) =
      conclude (Text.trim (scheme ++ ' ' :: t)) scheme (valuesOf realmKey ps).getLast?
        (valuesOf serviceKey ps).getLast? := by
  have hsplit := splitScheme_trim hne hscheme h hbefore hafter
  rw [parse_eq, afterScheme, ← snd_splitScheme, hsplit, h.parameters_eq]
  dsimp only
  rw [valueOf?_content, valueOf?_content, Text.trim_surrounded hbefore hafter]

theorem written_challenge_read (h : WrittenAs ps t) (hbefore : ∀ c ∈ before, Text.isBlank c)
    (hafter : ∀ c ∈ after, Text.isBlank c) (scheme : Text) :
    (Text.lower scheme = bearerScheme →
        parse (before ++ (scheme ++ ' ' :: t) ++ after) =
          match (valuesOf realmKey ps).getLast? with
          | some realm => .ok (.bearer realm (valuesOf serviceKey ps).getLast?)
          | none => .error (.unsupported (Text.trim (scheme ++ ' ' :: t)))) ∧
      (Text.lower scheme = basicScheme →
        parse (before ++ (scheme ++ ' ' :: t) ++ after) =
          .ok (.basic (valuesOf realmKey ps).getLast?)) ∧
      ∀ qs u, WrittenAs qs u → Text.lower scheme ∈ [bearerScheme, basicScheme] →
        (∀ key ∈ [realmKey, serviceKey], valuesOf key qs = valuesOf key ps) →
        (parse (before ++ (scheme ++ ' ' :: u) ++ after)).toOption =
          (parse (before ++ (scheme ++ ' ' :: t) ++ after)).toOption := by
  have hchars (hknown : Text.lower scheme ∈ [bearerScheme, basicScheme]) :
      scheme ≠ [] ∧ ∀ c ∈ scheme, Text.isBlank c = false := by
    refine ⟨?_, fun c hc => Text.isBlank_of_mem_lower (fun c hc => ?_) hc⟩
    · rintro rfl
      exact absurd hknown (by decide)
    · have hletters : [bearerScheme, basicScheme].all (·.all fun c => !Text.isBlank c) := rfl
      have hletter := List.all_eq_true.1 (List.all_eq_true.1 hletters _ hknown) c hc
      simpa using hletter
  refine ⟨fun hbearer => ?_, fun hbasic => ?_, fun qs u hu hknown hvalues => ?_⟩
  · obtain ⟨hne, hscheme⟩ := hchars (by simp [hbearer])
    rw [parse_written hne hscheme h hbefore hafter]
    exact if_pos hbearer
  · obtain ⟨hne, hscheme⟩ := hchars (by simp [hbasic])
    have hbearer : Text.lower scheme ≠ bearerScheme := by
      rw [hbasic]
      decide
    rw [parse_written hne hscheme h hbefore hafter]
    exact (if_neg hbearer).trans (if_pos hbasic)
  · obtain ⟨hne, hscheme⟩ := hchars hknown
    rw [parse_written hne hscheme h hbefore hafter, parse_written hne hscheme hu hbefore hafter,
      hvalues realmKey (by simp), hvalues serviceKey (by simp)]
    -- The two differ in nothing but the text of an error.
    unfold conclude
    split
    · split <;> rfl
    · split <;> rfl

theorem mixed_challenge_read :
    parse ("\u3000BEARER realm=\"/\", ,\tscope=a=b,Realm=\"https://r.example/, =\u00a0\"\n".toList ++
        "SERVICE= ".toList) =
      .ok (.bearer "https://r.example/, =\u00a0".toList (some [])) := by
  let first : Parameter :=
    ⟨"realm".toList, "/".toList, true, by decide, by decide, by decide, nofun⟩
  let scope : Parameter :=
    ⟨"scope".toList, "a=b".toList, false, by decide, by decide, by decide, by decide⟩
  let realm : Parameter :=
    ⟨"Realm".toList, "https://r.example/, =\u00a0".toList, true, by decide, by decide, by decide,
      nofun⟩
  let service : Parameter :=
    ⟨"SERVICE".toList, [], false, by decide, by decide, by decide, by decide⟩
  have hlist : WrittenAs [first, scope, realm, service]
      (first.toText ++ (", ,\t".toList ++ (scope.toText ++ (",".toList ++
        (realm.toText ++ ("\n".toList ++ service.toText)))))) :=
    .cons _ _ _ _ _ (by decide) (by decide) <|
      .cons _ _ _ _ _ (by decide) (by decide) <|
        .cons _ _ _ _ _ (by decide) (by decide) (.single service)
  have hbefore : ∀ c ∈ "\u3000".toList, Text.isBlank c := by simp [Text.isBlank]
  have hafter : ∀ c ∈ " ".toList, Text.isBlank c := by simp [Text.isBlank]
  have hscheme : Text.lower "BEARER".toList = bearerScheme := rfl
  have hread := (written_challenge_read hlist hbefore hafter "BEARER".toList).1 hscheme
  have hrealm : (valuesOf realmKey [first, scope, realm, service]).getLast? = some realm.value := rfl
  have hservice : (valuesOf serviceKey [first, scope, realm, service]).getLast? = some [] := rfl
  rw [hrealm, hservice] at hread
  exact (congrArg parse (by decide)).trans hread

end Challenge

end NetBoot
