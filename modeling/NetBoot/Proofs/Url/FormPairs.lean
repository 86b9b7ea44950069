import Mathlib.Data.List.Basic
import Mathlib.Data.List.TakeWhile
import Mathlib.Data.Prod.Basic
import NetBoot.Proofs.Url.FormText

namespace NetBoot

namespace Percent

variable {escape : Char → Bool} {c : Char} {t : Text}

theorem mem_encode (hc : c ∈ encode escape t) :
    (c ∈ t ∧ leaves escape c) ∨ c = '%' ∨ ∃ n < 16, c = Hex.upperDigit n := by
  obtain ⟨x, hx, hmem⟩ := List.mem_flatMap.1 hc
  split at hmem
  · obtain ⟨b, -, hmem⟩ := List.mem_flatMap.1 hmem
    have hb : b.toNat < 256 := b.toNat_lt
    simp only [encodeByte, List.mem_cons, List.not_mem_nil, or_false] at hmem
    rcases hmem with h | h | h
    · exact .inr (.inl h)
    · exact .inr (.inr ⟨_, by omega, h⟩)
    · exact .inr (.inr ⟨_, by omega, h⟩)
  · rw [List.mem_singleton.1 hmem]
    exact .inl ⟨hx, by simp only [leaves]; grind⟩

theorem mem_of_mem_encode (hpercent : c ≠ '%') (hdigit : Hex.value? c = none)
    (hc : c ∈ encode escape t) : c ∈ t := by
  rcases mem_encode hc with h | h | ⟨n, hn, h⟩
  · exact h.1
  · exact absurd h hpercent
  · rw [h, Hex.value?_upperDigit hn] at hdigit
    cases hdigit

end Percent

namespace Text

variable {c : Char} {s : Text}

theorem splitAll_append_of_not_mem (hc : c ∉ s) (t : Text) :
    splitAll c (s ++ t) = (splitAll c t).modifyHead (s ++ ·) := by
  induction s with
  | nil =>
      rw [List.nil_append]
      cases Text.splitAll c t <;> rfl
  | cons x s ih =>
      simp only [List.mem_cons, not_or] at hc
      rw [List.cons_append, Text.splitAll_cons_of_ne (Ne.symm hc.1), ih hc.2]
      cases Text.splitAll c t <;> rfl

end Text

namespace Form

open Percent

variable {escape : Char → Bool} {c : Char} {t : Text}

theorem splitAll_encode (hleaves : leaves escape c) (hpercent : c ≠ '%')
    (hdigit : Hex.value? c = none) (t : Text) :
    Text.splitAll c (encode escape t) = (Text.splitAll c t).map (encode escape) := by
  induction t with
  | nil => rfl
  | cons x t ih =>
      by_cases hx : x = c
      · subst hx
        rw [encode_cons_of_leaves hleaves, Text.splitAll_cons_self, Text.splitAll_cons_self, ih]
        rfl
      · have hnot : c ∉ encode escape [x] := fun hc =>
          hx (List.mem_singleton.1 (mem_of_mem_encode hpercent hdigit hc)).symm
        rw [encode_cons, Text.splitAll_append_of_not_mem hnot, ih, Text.splitAll_cons_of_ne hx]
        cases Text.splitAll c t with
        | nil => rfl
        | cons piece rest => simp [encode_cons escape x piece]

theorem pair_encode (hkeeps : Keeps escape) (t : Text) : pair (encode escape t) = pair t := by
  cases hsplit : Text.splitOnce '=' t with
  | none =>
      have hnot : '=' ∉ encode escape t := fun hc =>
        Text.splitOnce_eq_none.1 hsplit (mem_of_mem_encode (by decide) rfl hc)
      rw [pair, pair, hsplit, Text.splitOnce_eq_none.2 hnot, decodeComponent_encode hkeeps]
  | some parts =>
      obtain ⟨name, value⟩ := parts
      obtain ⟨rfl, hname⟩ := Text.splitOnce_eq_some hsplit
      have hnot : '=' ∉ encode escape name := fun hc =>
        hname (mem_of_mem_encode (by decide) rfl hc)
      rw [pair, pair, hsplit, encode_append, encode_cons_of_leaves hkeeps.equals,
        Text.splitOnce_append hnot]
      simp only [decodeComponent_encode hkeeps]

theorem pairs_encode (hkeeps : Keeps escape) (t : Text) : pairs (encode escape t) = pairs t := by
  have hpair : pair ∘ encode escape = pair := funext fun t => pair_encode hkeeps t
  rw [pairs, pairs, splitAll_encode hkeeps.ampersand (by decide) rfl, List.filter_map,
    List.map_map, hpair]
  simp only [Function.comp_def, ne_eq, encode_eq_nil_iff]

theorem pairs_append_ampersand (s t : Text) : pairs (s ++ '&' :: t) = pairs s ++ pairs t := by
  rw [pairs, Text.splitAll_append_cons, List.filter_append, List.map_append]
  rfl

theorem pairs_of_not_mem (hmem : '&' ∉ t) (hne : t ≠ []) : pairs t = [pair t] := by
  rw [pairs, Text.splitAll_of_not_mem hmem]
  simp [hne]

theorem pairs_joinWith (ts : List Text) : pairs (Text.joinWith ['&'] ts) = ts.flatMap pairs := by
  induction ts with
  | nil => rfl
  | cons t ts ih =>
      cases ts with
      | nil => simp [Text.joinWith]
      | cons u ts =>
          have hjoin : Text.joinWith ['&'] (t :: u :: ts) =
              t ++ '&' :: Text.joinWith ['&'] (u :: ts) := List.append_assoc _ _ _
          rw [hjoin, pairs_append_ampersand, ih]
          rfl

theorem pairs_parameter {name : Text} (hname : '&' ∉ name ∧ '=' ∉ name) {value : Text}
    (hvalue : '&' ∉ value) :
    pairs (name ++ '=' :: value) = [(decodeComponent name, decodeComponent value)] := by
  have hmem : '&' ∉ name ++ '=' :: value := by simp [hname.1, hvalue]
  rw [pairs_of_not_mem hmem (by simp), pair, Text.splitOnce_append hname.2]

theorem head?_pairs_parameter {name : Text} (hname : '&' ∉ name ∧ '=' ∉ name) (value : Text) :
    (pairs (name ++ '=' :: value)).head? =
      some (decodeComponent name, decodeComponent (value.takeWhile (· ≠ '&'))) := by
  cases hsplit : Text.splitOnce '&' value with
  | none =>
      have hvalue := Text.splitOnce_eq_none.1 hsplit
      have hself : value.takeWhile (· ≠ '&') = value :=
        List.takeWhile_eq_self_iff.2 fun c hc => by simpa using ne_of_mem_of_not_mem hc hvalue
      rw [pairs_parameter hname hvalue, hself]
      rfl
  | some parts =>
      obtain ⟨first, rest⟩ := parts
      obtain ⟨rfl, hfirst⟩ := Text.splitOnce_eq_some hsplit
      have hself : (first ++ '&' :: rest).takeWhile (· ≠ '&') = first := by
        rw [List.takeWhile_append_of_pos fun c hc => by simpa using ne_of_mem_of_not_mem hc hfirst,
          List.takeWhile_cons_of_neg (by simp), List.append_nil]
      rw [← List.cons_append, ← List.append_assoc, pairs_append_ampersand,
        pairs_parameter hname hfirst, hself]
      rfl

theorem startsEscape_append_of_not_digit (hdigit : Hex.value? c = none) (x : Char) (t u : Text) :
    startsEscape (x :: (t ++ c :: u)) = startsEscape (x :: t) := by
  by_cases hx : x = '%'
  · subst hx
    match t with
    | [] => cases u <;> simp [startsEscape, hdigit]
    | [a] => simp [startsEscape, hdigit]
    | a :: b :: t => rfl
  · rw [startsEscape_eq_false_of_ne hx, startsEscape_eq_false_of_ne hx]

theorem holdsEscape_append (hpercent : c ≠ '%') (hdigit : Hex.value? c = none) (t u : Text) :
    holdsEscape (t ++ c :: u) = (holdsEscape t || holdsEscape u) := by
  induction t with
  | nil => simp [holdsEscape, startsEscape_eq_false_of_ne hpercent]
  | cons x t ih =>
      rw [List.cons_append, holdsEscape, holdsEscape, ih, startsEscape_append_of_not_digit hdigit,
        Bool.or_assoc]

def oneLine (t : Text) : Text := t.filter fun c => !Url.isTabOrLine c

theorem oneLine_eq_self_iff : oneLine t = t ↔ ∀ c ∈ t, Url.isTabOrLine c = false := by
  simp [oneLine, List.filter_eq_self]

theorem oneLine_append (s t : Text) : oneLine (s ++ t) = oneLine s ++ oneLine t :=
  List.filter_append ..

theorem oneLine_joinWith (ts : List Text) :
    oneLine (Text.joinWith ['&'] ts) = Text.joinWith ['&'] (ts.map oneLine) := by
  induction ts with
  | nil => rfl
  | cons t ts ih =>
      cases ts with
      | nil => rfl
      | cons u ts =>
          rw [Text.joinWith, oneLine_append, oneLine_append, ih]
          · rfl
          · exact List.cons_ne_nil u ts

theorem oneLine_encode (escape : Char → Bool) (t : Text) :
    oneLine (encode escape t) = encode escape t := by
  rw [oneLine_eq_self_iff]
  intro c hc
  rw [Bool.eq_false_iff]
  intro hline
  rcases mem_encode hc with ⟨-, hleaves⟩ | rfl | ⟨n, hn, rfl⟩
  · simp only [leaves, Bool.and_eq_true, decide_eq_true_eq] at hleaves
    simp only [Url.isTabOrLine, Bool.or_eq_true, decide_eq_true_eq] at hline
    rcases hline with (rfl | rfl) | rfl <;> exact absurd hleaves.1.1 (by decide)
  · cases hline
  · have hdigits : ∀ n < 16, Url.isTabOrLine (Hex.upperDigit n) = false := by decide
    rw [hdigits n hn] at hline
    cases hline

def carried (t : Text) : Text := (oneLine t).takeWhile (· ≠ '&')

theorem carried_sublist (t : Text) : (carried t).Sublist t :=
  (List.takeWhile_sublist _).trans List.filter_sublist

theorem carried_eq_self_iff : carried t = t ↔ oneLine t = t ∧ '&' ∉ t := by
  have htake {s : Text} : s.takeWhile (· ≠ '&') = s ↔ '&' ∉ s := by
    rw [List.takeWhile_eq_self_iff]
    grind
  constructor
  · intro h
    have hline : oneLine t = t := by
      refine List.filter_sublist.eq_of_length_le ?_
      have hlength := (List.takeWhile_sublist (l := oneLine t) (· ≠ '&')).length_le
      rwa [← carried, h] at hlength
    rw [carried, hline] at h
    exact ⟨hline, htake.1 h⟩
  · rintro ⟨hline, hmem⟩
    rw [carried, hline]
    exact htake.2 hmem

def isLiteral (t : Text) : Bool := (t.all fun c => c ∉ "&+\t\n\r".toList) && !holdsEscape t

theorem isLiteral_iff :
    isLiteral t ↔ oneLine t = t ∧ '&' ∉ t ∧ holdsEscape t = false ∧ '+' ∉ t := by
  rw [oneLine_eq_self_iff]
  simp [isLiteral, Url.isTabOrLine]
  grind

theorem isLiteral_append (hc : c ∉ "&+\t\n\r".toList) (hpercent : c ≠ '%')
    (hdigit : Hex.value? c = none) (t u : Text) :
    isLiteral (t ++ c :: u) = (isLiteral t && isLiteral u) := by
  simp only [isLiteral, List.all_append, List.all_cons, holdsEscape_append hpercent hdigit, hc]
  grind

theorem decodeComponent_carried_eq_iff : decodeComponent (carried t) = t ↔ isLiteral t := by
  constructor
  · intro h
    have hlength := (length_decodeComponent (carried t)).1
    rw [h] at hlength
    have hself := (carried_sublist t).eq_of_length_le hlength
    rw [hself] at h
    obtain ⟨hline, hmem⟩ := carried_eq_self_iff.1 hself
    exact isLiteral_iff.2 ⟨hline, hmem, decodeComponent_eq_self_iff.1 h⟩
  · intro h
    obtain ⟨hline, hmem, hself⟩ := isLiteral_iff.1 h
    rw [carried_eq_self_iff.2 ⟨hline, hmem⟩]
    exact decodeComponent_eq_self_iff.2 hself

section Parameters

variable {name value : Text}

structure IsName (name : Text) : Prop where
  literal : isLiteral name
  equals_not_mem : '=' ∉ name

theorem oneLine_parameter (hname : IsName name) (value : Text) :
    oneLine (name ++ '=' :: value) = name ++ '=' :: oneLine value := by
  rw [oneLine_append, (isLiteral_iff.1 hname.literal).1]
  rfl

theorem head?_pairs_oneLine_iff (hname : IsName name) :
    (pairs (oneLine (name ++ '=' :: value))).head? = some (name, value) ↔ isLiteral value := by
  obtain ⟨-, hmem, hself⟩ := isLiteral_iff.1 hname.literal
  rw [oneLine_parameter hname, head?_pairs_parameter ⟨hmem, hname.equals_not_mem⟩,
    decodeComponent_eq_self_iff.2 hself, Option.some_inj, Prod.mk_right_inj]
  exact decodeComponent_carried_eq_iff

theorem pairs_oneLine_ne_nil (hname : IsName name) (value : Text) :
    pairs (oneLine (name ++ '=' :: value)) ≠ [] := fun h => by
  have hhead := head?_pairs_parameter ⟨(isLiteral_iff.1 hname.literal).2.1, hname.equals_not_mem⟩
    (oneLine value)
  rw [← oneLine_parameter hname, h] at hhead
  cases hhead

theorem pairs_oneLine_of_isLiteral (hname : IsName name) (hvalue : isLiteral value) :
    pairs (oneLine (name ++ '=' :: value)) = [(name, value)] := by
  obtain ⟨-, hmem, hself⟩ := isLiteral_iff.1 hname.literal
  obtain ⟨hline, hmem', hself'⟩ := isLiteral_iff.1 hvalue
  rw [oneLine_parameter hname, hline, pairs_parameter ⟨hmem, hname.equals_not_mem⟩ hmem',
    decodeComponent_eq_self_iff.2 hself, decodeComponent_eq_self_iff.2 hself']

theorem flatMap_pairs_oneLine_iff {ps : List (Text × Text)} (hnames : ∀ p ∈ ps, IsName p.1) :
    ps.flatMap (fun p => pairs (oneLine (p.1 ++ '=' :: p.2))) = ps ↔ ∀ p ∈ ps, isLiteral p.2 := by
  induction ps with
  | nil => simp
  | cons p ps ih =>
      have hname := hnames p (.head _)
      have hrest := ih fun p hp => hnames p (.tail _ hp)
      rw [List.flatMap_cons, List.forall_mem_cons]
      constructor
      · intro h
        have hhead := congrArg List.head? h
        rw [List.head?_append_of_ne_nil _ (pairs_oneLine_ne_nil hname _), List.head?_cons] at hhead
        have hvalue := (head?_pairs_oneLine_iff hname).1 hhead
        rw [pairs_oneLine_of_isLiteral hname hvalue] at h
        exact ⟨hvalue, hrest.1 (List.cons.inj h).2⟩
      · rintro ⟨hvalue, hvalues⟩
        rw [pairs_oneLine_of_isLiteral hname hvalue, hrest.2 hvalues]
        rfl

end Parameters

end Form

end NetBoot
