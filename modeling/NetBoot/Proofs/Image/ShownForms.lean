import Mathlib.Data.List.DropRight
import NetBoot.Proofs.Image.WrittenForms

namespace NetBoot

namespace Text

variable {t u : Text}

theorem isTrimmed_trim (t : Text) : IsTrimmed (trim t) := by
  constructor
  · intro c hc
    -- The first character is that of the text without the blanks in front of it.
    obtain ⟨rest, hrest⟩ := List.rdropWhile_prefix isBlank (t.dropWhile isBlank)
    have hfirst : (trim t ++ rest).head? = some c := by
      rw [List.head?_append, Option.mem_def.1 hc]
      rfl
    have hhead : (t.dropWhile isBlank).head? = some c := hrest ▸ hfirst
    have h := List.head?_dropWhile_not isBlank t
    rwa [hhead] at h
  · intro c hc
    have hlast : ((t.dropWhile isBlank).reverse.dropWhile isBlank).head? = some c := by
      rw [← List.getLast?_reverse]
      exact hc
    have h := List.head?_dropWhile_not isBlank (t.dropWhile isBlank).reverse
    rwa [hlast] at h

theorem IsTrimmed.of_ends (h : IsTrimmed t) (hhead : u.head? = t.head?)
    (hlast : u.getLast? = t.getLast?) : IsTrimmed u := by
  rw [IsTrimmed, hhead, hlast]
  exact h

end Text

namespace ImageReference

variable {t name : Text} {tag : Option Text} {digest : Option Digest} {r : ImageReference}
  {d : Digest}

theorem parse_trim (t : Text) : parse (Text.trim t) = parse t := by
  rw [parse, parse, Text.trim_eq_self (Text.isTrimmed_trim t)]

theorem splitTag_eq_none_iff :
    splitTag t = none ↔ ∀ rest, ':' :: rest <:+ t → '/' ∈ rest := by
  constructor
  · rintro hnone rest ⟨front, rfl⟩
    by_contra hslash
    obtain ⟨⟨name, tag⟩, hlast⟩ :
        ∃ p, Text.splitLast ':' (front ++ ':' :: rest) = some p := by
      refine Option.ne_none_iff_exists'.1 fun hcolon => ?_
      exact Text.splitLast_eq_none.1 hcolon (by simp)
    obtain ⟨heq, hcolon⟩ := Text.splitLast_eq_some hlast
    -- The last colon is this one or one after it.
    have hsuffix : tag <:+ rest := by
      rcases List.append_eq_append_iff.1 heq with ⟨_ | ⟨c, more⟩, -, hrest⟩ | ⟨_ | ⟨c, more⟩, -, htag⟩
      · exact ⟨[], (List.cons.inj hrest).2.symm⟩
      · exact ⟨more ++ [':'], by simp [(List.cons.inj hrest).2]⟩
      · exact ⟨[], (List.cons.inj htag).2⟩
      · have hmem : ':' ∈ tag := by simp [(List.cons.inj htag).2]
        exact absurd hmem hcolon
    have hcut : splitTag (name ++ ':' :: tag) = some (name, tag) :=
      splitTag_append hcolon fun hmem => hslash (hsuffix.mem hmem)
    rw [← heq, hnone] at hcut
    cases hcut
  · intro h
    refine Option.eq_none_iff_forall_ne_some.2 fun ⟨host, rest⟩ hcut => ?_
    obtain ⟨hname, -, hslash⟩ := splitTag_eq_some_iff.1 hcut
    exact hslash (h rest ⟨host, hname.symm⟩)

/-- The texts that have the parts of a reference in them. Beside a digest, an empty tag is none. -/
inductive HasParts (name : Text) : Option Text → Option Digest → Text → Prop
  | tagged (tag : Text) : HasParts name (some tag) none (name ++ ':' :: tag)
  | pinned (d : Digest) : splitTag name = none →
      HasParts name none (some d) (name ++ '@' :: d.toText)
  | both (tag : Text) (d : Digest) :
      HasParts name (some tag) (some d) (name ++ ':' :: tag ++ '@' :: d.toText)
  | emptied (d : Digest) : '@' ∉ name → Digest.parse? d.toText = some d →
      HasParts name none (some d) (name ++ ':' :: '@' :: d.toText)

theorem hasParts_of_split (h : split t = .ok (name, tag, digest)) : HasParts name tag digest t := by
  cases hat : Text.splitOnce '@' t with
  | none =>
      obtain ⟨w, -, hcut, rfl, rfl⟩ :=
        (split_of_at_not_mem (Text.splitOnce_eq_none.1 hat)).1 h
      obtain ⟨rfl, -⟩ := splitTag_eq_some_iff.1 hcut
      exact .tagged w
  | some p =>
      obtain ⟨base, last⟩ := p
      obtain ⟨rfl, hbase⟩ := Text.splitOnce_eq_some hat
      rw [split, hat] at h
      dsimp only at h
      split at h
      · cases h
      · split at h
        · cases h
        · next d hd =>
            obtain rfl := (Digest.parse?_eq_some hd).1
            split at h
            · next n w hcut =>
                obtain ⟨rfl, -⟩ := splitTag_eq_some_iff.1 hcut
                cases h
                cases w with
                | nil =>
                    rw [List.append_assoc]
                    exact .emptied d (by simpa using hbase) hd
                | cons c w => exact .both (c :: w) d
            · next hcut =>
                cases h
                exact .pinned d hcut

theorem parse_toText_iff (h : parse t = .ok r) :
    parse r.toText = .ok r ↔ (r.tag = none → ∀ rest, ':' :: rest <:+ r.name → '/' ∈ rest) := by
  obtain ⟨hsplit, himage⟩ := parse_eq_ok_iff.1 h
  have hparts := hasParts_of_split hsplit
  have htrimmed := Text.isTrimmed_trim t
  have hself (hshown : r.toText = Text.trim t) : parse r.toText = .ok r := by
    rw [hshown, parse_trim, h]
  obtain ⟨name, image, tag, digest⟩ := r
  dsimp only at himage hparts ⊢
  generalize Text.trim t = written at hparts htrimmed hself
  cases hparts with
  | tagged tag => exact iff_of_true (hself (by simp [toText])) (absurd · (Option.some_ne_none tag))
  | pinned d hcut =>
      exact iff_of_true (hself (by simp [toText])) fun _ => splitTag_eq_none_iff.1 hcut
  | both tag d => exact iff_of_true (hself (by simp [toText])) (absurd · (Option.some_ne_none tag))
  | emptied d hat hd =>
      have hne : name ≠ [] := (ImageName.parse_eq_ok himage).2
      have hshown : Text.IsTrimmed (name ++ '@' :: d.toText) :=
        htrimmed.of_ends (by simp [List.head?_append_of_ne_nil _ hne])
          (by simp [List.getLast?_append, List.getLast?_cons])
      have htext : toText ⟨name, image, none, some d⟩ = name ++ '@' :: d.toText := by simp [toText]
      rw [htext, parse_eq_ok_iff, Text.trim_eq_self hshown, split_append_digest hne hat hd]
      cases hcut : splitTag name with
      | none => exact iff_of_true ⟨rfl, himage⟩ fun _ => splitTag_eq_none_iff.1 hcut
      | some p =>
          refine iff_of_false (fun hread => ?_) fun hcolons => ?_
          · -- The name would be what stands in front of a colon in itself.
            have hname := (splitTag_eq_some_iff.1 hcut).1
            have heq := hread.1
            simp only [Except.ok.injEq, Prod.mk.injEq] at heq
            rw [heq.1] at hname
            exact absurd (congrArg List.length hname) (by simp)
          · rw [splitTag_eq_none_iff.2 (hcolons rfl)] at hcut
            cases hcut

theorem emptied_tag_of_port_parses_back :
    ∃ r, parse "localhost:5000/os:@sha256:0".toList = .ok r ∧
      (r.tag = none → ∀ rest, ':' :: rest <:+ r.name → '/' ∈ rest) ∧ parse r.toText = .ok r := by
  have h : parse "localhost:5000/os:@sha256:0".toList =
      .ok ⟨"localhost:5000/os".toList, ⟨"localhost:5000".toList, "os".toList⟩, none,
        some ⟨Digest.sha256, "0".toList⟩⟩ := by rfl
  have hport : ∀ rest, ':' :: rest <:+ "localhost:5000/os".toList → '/' ∈ rest := by
    simp [List.suffix_cons_iff]
  exact ⟨_, h, fun _ => hport, (parse_toText_iff h).2 fun _ => hport⟩

theorem emptied_tag_exposes_colon :
    (∃ r other, parse "os:1:@sha256:0".toList = .ok r ∧ r.name = "os:1".toList ∧ r.tag = none ∧
        parse r.toText = .ok other ∧ other.name = "os".toList ∧ other.tag = some "1".toList) ∧
      ∃ r e, parse ":1:@sha256:0".toList = .ok r ∧ parse r.toText = .error e :=
  ⟨⟨_, _, rfl, rfl, rfl, rfl, rfl, rfl⟩, _, _, rfl, rfl⟩

end ImageReference

end NetBoot
