import Mathlib.Algebra.Group.Nat.Even
import Mathlib.Data.List.DropRight
import NetBoot.Proofs.Dialogue.Runs
import NetBoot.Proofs.Registry.Calls
import NetBoot.Proofs.Text.ByteOffset

namespace NetBoot

namespace Challenge

variable {quoted : Bool} {c : Char} {t : Text}

/-- The pieces of a text, cut out of its bytes in one walk over its characters: `start` is where the
piece begins that is being read, `offset` where the rest of the text does. Every separator is taken
for one byte. -/
def cut (whole : Text) : (start offset : Nat) → (quoted : Bool) → Text → Option (List Text)
  | start, _, _, [] => (Text.dropBytes? start whole).map ([·])
  | start, offset, quoted, c :: rest =>
      if c = '"' then cut whole start (offset + Utf8.width c) (!quoted) rest
      else if !quoted && isSeparator c then
        match Text.slice? start offset whole with
        | some piece =>
            (cut whole (offset + 1) (offset + Utf8.width c) quoted rest).map (piece :: ·)
        | none => none
      else cut whole start (offset + Utf8.width c) quoted rest

def cutPieces (params : Text) : Option (List Text) := cut params 0 0 false params

def prepend (a : Text) (ps : List Text) : List Text := ps.modifyHead (a ++ ·)

theorem prepend_nil : prepend [] = id := by
  funext ps
  cases ps <;> rfl

theorem prepend_comp (a b : Text) : prepend a ∘ prepend b = prepend (a ++ b) := by
  funext ps
  cases ps with
  | nil => rfl
  | cons p ps => simp [prepend]

theorem pieces_ne_nil {ps : List Text} (h : pieces quoted t = some ps) : ps ≠ [] := by
  have hextend (c : Char) (ps : List Text) : pieces.extend c ps ≠ [] := by
    cases ps <;> exact List.cons_ne_nil _ _
  unfold pieces at h
  split at h
  · cases h
    exact List.cons_ne_nil _ _
  · split at h
    · obtain ⟨ps, -, rfl⟩ := Option.map_eq_some_iff.1 h
      exact hextend _ ps
    · split at h
      · split at h
        · obtain ⟨ps, -, rfl⟩ := Option.map_eq_some_iff.1 h
          exact List.cons_ne_nil _ _
        · cases h
      · obtain ⟨ps, -, rfl⟩ := Option.map_eq_some_iff.1 h
        exact hextend _ ps

theorem map_extend (quoted : Bool) (c : Char) (t : Text) :
    (pieces quoted t).map (pieces.extend c) = (pieces quoted t).map (prepend [c]) := by
  cases hps : pieces quoted t with
  | none => rfl
  | some ps =>
      cases ps with
      | nil => exact absurd rfl (pieces_ne_nil hps)
      | cons p ps => rfl

theorem pieces_cons_quote (quoted : Bool) (t : Text) :
    pieces quoted ('"' :: t) = (pieces (!quoted) t).map (prepend ['"']) := by
  rw [pieces, if_pos rfl, map_extend]

theorem pieces_cons_separator (h : isSeparator c) (t : Text) :
    pieces false (c :: t) = if c.toNat < 0x80 then (pieces false t).map ([] :: ·) else none := by
  have hquote : c ≠ '"' := by
    rintro rfl
    exact absurd h (by decide)
  rw [pieces, if_neg hquote, if_pos (by simpa using h)]

def isInner (quoted : Bool) (c : Char) : Bool := c ≠ '"' && (quoted || !isSeparator c)

theorem pieces_cons_inner (h : isInner quoted c) (t : Text) :
    pieces quoted (c :: t) = (pieces quoted t).map (prepend [c]) := by
  simp only [isInner, Bool.and_eq_true, decide_eq_true_eq] at h
  rw [pieces, if_neg h.1, if_neg (by grind), map_extend]

theorem isInner_of (hquote : c ≠ '"') (h : (!quoted && isSeparator c) = false) :
    isInner quoted c := by
  simp only [isInner, Bool.and_eq_true, decide_eq_true_eq]
  exact ⟨hquote, by grind⟩

theorem cut_of_inside {whole : Text} {start : Nat} (h : Text.dropBytes? start whole = none)
    (offset : Nat) (quoted : Bool) (rest : Text) : cut whole start offset quoted rest = none := by
  induction rest generalizing offset quoted with
  | nil => rw [cut, h]; rfl
  | cons c rest ih =>
      rw [cut, Text.slice?_of_dropBytes? h]
      split
      · exact ih _ _
      · split
        · rfl
        · exact ih _ _

theorem cut_eq (before piece rest : Text) (quoted : Bool) :
    cut (before ++ piece ++ rest) (Text.byteLength before) (Text.byteLength (before ++ piece)) quoted
        rest = (pieces quoted rest).map (prepend piece) := by
  induction rest generalizing before piece quoted with
  | nil =>
      rw [cut, List.append_nil, Text.dropBytes?_byteLength]
      simp [pieces, prepend]
  | cons c rest ih =>
      have hread (quoted : Bool) :
          cut (before ++ piece ++ c :: rest) (Text.byteLength before)
              (Text.byteLength (before ++ piece) + Utf8.width c) quoted rest =
            ((pieces quoted rest).map (prepend [c])).map (prepend piece) := by
        have h := ih before (piece ++ [c]) quoted
        rw [← List.append_assoc before, Text.byteLength_append (before ++ piece),
          Text.byteLength_singleton, List.append_assoc _ [c], List.singleton_append] at h
        rw [h, Option.map_map, prepend_comp]
      by_cases hquote : c = '"'
      · subst hquote
        rw [cut, if_pos rfl, hread, pieces_cons_quote]
      · cases hseparator : !quoted && isSeparator c with
        | false =>
            rw [cut, if_neg hquote, if_neg (by simp [hseparator]), hread,
              pieces_cons_inner (isInner_of hquote hseparator)]
        | true =>
            simp only [Bool.and_eq_true, Bool.not_eq_true'] at hseparator
            obtain ⟨rfl, hseparator⟩ := hseparator
            rw [cut, if_neg hquote, if_pos (by simpa using hseparator), Text.slice?_append,
              pieces_cons_separator hseparator]
            dsimp only
            split
            · next hascii =>
                have h := ih (before ++ piece ++ [c]) [] false
                rw [List.append_nil, Text.byteLength_append (before ++ piece),
                  Text.byteLength_singleton, List.append_assoc _ [c], List.singleton_append] at h
                rw [Utf8.width_of_ascii hascii] at h ⊢
                rw [h, prepend_nil, Option.map_id, Option.map_map]
                exact congrArg (Option.map · _) (funext fun ps => by simp [prepend])
            · next hwide =>
                rw [cut_of_inside]
                · rfl
                · exact Text.dropBytes?_inside _ _ Nat.one_pos (Utf8.one_lt_width (by omega))

theorem cutPieces_eq (params : Text) : cutPieces params = pieces false params := by
  have h := cut_eq [] [] params false
  rw [prepend_nil, Option.map_id] at h
  exact h

def HasWideBlank (quoted : Bool) (t : Text) : Prop :=
  ∃ before c after, t = before ++ c :: after ∧ Text.isBlank c ∧ 0x80 ≤ c.toNat ∧
    Even (before.count '"' + quoted.toNat)

theorem hasWideBlank_cons (quoted : Bool) (c : Char) (t : Text) :
    HasWideBlank quoted (c :: t) ↔
      (Text.isBlank c ∧ 0x80 ≤ c.toNat ∧ quoted = false) ∨
        HasWideBlank (if c = '"' then !quoted else quoted) t := by
  have hparity (before : Text) : Even ((c :: before).count '"' + quoted.toNat) ↔
      Even (before.count '"' + (if c = '"' then !quoted else quoted).toNat) := by
    by_cases hquote : c = '"'
    · subst hquote
      rw [List.count_cons_self, if_pos rfl]
      cases quoted
      · rfl
      · simp [Nat.add_assoc, parity_simps]
    · rw [List.count_cons_of_ne hquote, if_neg hquote]
  constructor
  · rintro ⟨_ | ⟨x, before⟩, d, after, heq, hblank, hwide, heven⟩
    · obtain ⟨rfl, rfl⟩ := List.cons.inj heq
      refine .inl ⟨hblank, hwide, ?_⟩
      cases quoted
      · rfl
      · exact absurd heven (by decide)
    · obtain ⟨rfl, rfl⟩ := List.cons.inj heq
      exact .inr ⟨before, d, after, rfl, hblank, hwide, (hparity before).1 heven⟩
  · rintro (⟨hblank, hwide, rfl⟩ | ⟨before, d, after, rfl, hblank, hwide, heven⟩)
    · exact ⟨[], c, t, rfl, hblank, hwide, by decide⟩
    · exact ⟨c :: before, d, after, rfl, hblank, hwide, (hparity before).2 heven⟩

theorem pieces_eq_none_iff : pieces quoted t = none ↔ HasWideBlank quoted t := by
  induction t generalizing quoted with
  | nil => simp [pieces, HasWideBlank]
  | cons c t ih =>
      rw [hasWideBlank_cons]
      by_cases hquote : c = '"'
      · subst hquote
        have hblank : Text.isBlank '"' = false := by decide
        rw [pieces_cons_quote, Option.map_eq_none_iff, ih, if_pos rfl]
        simp [hblank]
      · rw [if_neg hquote]
        cases hseparator : !quoted && isSeparator c with
        | false =>
            rw [pieces_cons_inner (isInner_of hquote hseparator), Option.map_eq_none_iff, ih]
            refine ⟨.inr, fun h => h.resolve_left ?_⟩
            rintro ⟨hblank, -, rfl⟩
            simp [isSeparator, hblank] at hseparator
        | true =>
            simp only [Bool.and_eq_true, Bool.not_eq_true'] at hseparator
            obtain ⟨rfl, hseparator⟩ := hseparator
            rw [pieces_cons_separator hseparator]
            split
            · next hascii =>
                rw [Option.map_eq_none_iff, ih]
                exact ⟨.inr, fun h => h.resolve_left fun ⟨_, hwide, _⟩ => by omega⟩
            · next hwide =>
                refine iff_of_true rfl (.inl ⟨?_, by omega, rfl⟩)
                -- The comma, the only other separator, is ASCII.
                rcases Bool.or_eq_true_iff.1 hseparator with hcomma | hblank
                · rw [of_decide_eq_true hcomma] at hwide
                  exact absurd (by decide) hwide
                · exact hblank

def afterScheme (header : Text) : Text := ((Text.trim header).dropWhile (· ≠ ' ')).tail

theorem snd_splitScheme (t : Text) : (splitScheme t).2 = (t.dropWhile (· ≠ ' ')).tail := by
  have hskip {front : Text} (h : ' ' ∉ front) (rest : Text) :
      (front ++ rest).dropWhile (· ≠ ' ') = rest.dropWhile (· ≠ ' ') :=
    List.dropWhile_append_of_pos fun c hc => decide_eq_true fun (heq : c = ' ') => h (heq ▸ hc)
  unfold splitScheme
  cases hs : Text.splitOnce ' ' t with
  | none =>
      rw [← List.append_nil t, hskip (Text.splitOnce_eq_none.1 hs)]
      rfl
  | some p =>
      obtain ⟨rfl, hspace⟩ := Text.splitOnce_eq_some hs
      rw [hskip hspace]
      rfl

def conclude (header scheme : Text) (realm service : Option Text) : Except Fault Challenge :=
  if Text.lower scheme = bearerScheme then
    match realm with
    | some realm => .ok (.bearer realm service)
    | none => .error (.unsupported header)
  else if Text.lower scheme = basicScheme then .ok (.basic realm)
  else .error (.unsupported header)

theorem parse_eq (header : Text) :
    parse header =
      match parameters (afterScheme header) with
      | none => .error .splitCharacter
      | some ps =>
          conclude (Text.trim header) (splitScheme (Text.trim header)).1 (valueOf? realmKey ps)
            (valueOf? serviceKey ps) := by
  rw [afterScheme, ← snd_splitScheme]
  rfl

theorem conclude_outcomes (header scheme : Text) (realm service : Option Text) :
    (∃ challenge, conclude header scheme realm service = .ok challenge) ∨
      conclude header scheme realm service = .error (.unsupported header) := by
  unfold conclude
  split
  · cases realm with
    | none => exact .inr rfl
    | some realm => exact .inl ⟨_, rfl⟩
  · split
    · exact .inl ⟨_, rfl⟩
    · exact .inr rfl

theorem parse_outcomes (header : Text) :
    (parse header = .error .splitCharacter ∧ parameters (afterScheme header) = none) ∨
      (∃ challenge, parse header = .ok challenge) ∨
        parse header = .error (.unsupported (Text.trim header)) := by
  rw [parse_eq]
  cases parameters (afterScheme header) with
  | none => exact .inl ⟨rfl, rfl⟩
  | some ps => exact .inr (conclude_outcomes _ _ _ _)

theorem parse_eq_splitCharacter_iff (header : Text) :
    parse header = .error .splitCharacter ↔ HasWideBlank false (afterScheme header) := by
  rw [← pieces_eq_none_iff]
  constructor
  · intro h
    rcases parse_outcomes header with ⟨-, hnone⟩ | ⟨challenge, hok⟩ | hunsupported
    · exact Option.map_eq_none_iff.1 hnone
    · cases h.symm.trans hok
    · cases h.symm.trans hunsupported
  · intro h
    rw [parse_eq, parameters, h]
    rfl

theorem mem_of_mem_afterScheme {header : Text} (h : c ∈ afterScheme header) : c ∈ header := by
  have htrim : c ∈ (header.dropWhile Text.isBlank).rdropWhile Text.isBlank :=
    (List.dropWhile_suffix _).mem (List.mem_of_mem_tail h)
  exact (List.dropWhile_suffix _).mem ((List.rdropWhile_prefix _ _).mem htrim)

theorem parse_ne_splitCharacter_of_readable {header : Text}
    (h : Http.Headers.isReadable header) : parse header ≠ .error .splitCharacter := by
  rw [Ne, parse_eq_splitCharacter_iff]
  rintro ⟨before, c, after, heq, -, hwide, -⟩
  have hmem : c ∈ header := mem_of_mem_afterScheme (by rw [heq]; simp)
  have hreadable := List.all_eq_true.1 h c hmem
  simp only [Bool.or_eq_true, Bool.and_eq_true, decide_eq_true_eq] at hreadable
  rcases hreadable with hplain | rfl
  · omega
  · exact absurd hwide (by decide)

end Challenge

namespace Registry

open Http

theorem probed_ne_brokenChallenge (c : RegistryConfig) (domain repository : Text)
    (a : Except CallError Reply) : probed c domain repository a ≠ .error .brokenChallenge := by
  cases a with
  | error e => exact nofun
  | ok r =>
      simp only [probed, infoOfProbe]
      split
      · exact nofun
      · split
        · split
          · exact nofun
          · next header hheader =>
              have hreadable : Headers.isReadable header := by
                have h := (Option.filter_eq_some_iff.1 hheader).1
                exact (Option.filter_eq_some_iff.1 h).2
              have hscan := Challenge.parse_ne_splitCharacter_of_readable hreadable
              split
              · exact nofun
              · exact nofun
              · next hbroken => exact absurd hbroken hscan
        · exact nofun

end Registry

namespace Challenge

theorem scan_stops_inside_character_iff {σ : Type} (header : Text) (config : RegistryConfig)
    (domain repository : Text)
    (network : Dialogue.Answerer Http.Call (Except Http.CallError Http.Reply) σ) (s : σ) :
    (parse header = .error .splitCharacter ↔
        ∃ before c after, afterScheme header = before ++ c :: after ∧ Text.isBlank c ∧
          0x80 ≤ c.toNat ∧ Even (before.count '"')) ∧
      parameters (afterScheme header) =
        (cutPieces (afterScheme header)).map (·.filterMap parameter?) ∧
      (parse header = .error .splitCharacter ∨ (∃ challenge, parse header = .ok challenge) ∨
        parse header = .error (.unsupported (Text.trim header))) ∧
      (Registry.detect config domain repository).run.result network s ≠
        .error .brokenChallenge := by
  refine ⟨parse_eq_splitCharacter_iff header, ?_, ?_, ?_⟩
  · rw [cutPieces_eq]
    rfl
  · exact (parse_outcomes header).imp_left And.left
  · rw [Registry.run_detect]
    exact Registry.probed_ne_brokenChallenge config domain repository _

end Challenge

end NetBoot
