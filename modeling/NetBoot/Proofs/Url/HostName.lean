import NetBoot.Proofs.Url.Path

namespace NetBoot

namespace Url.Host

def isNameChar (c : Char) : Bool := c.isAlphanum || c = '-' || c = '.' || c = '_'

theorem toNat_lt_of_isNameChar {c : Char} (h : isNameChar c) : c.toNat < 0x80 := by
  simp only [isNameChar, Bool.or_eq_true, decide_eq_true_eq] at h
  rcases h with ((halnum | rfl) | rfl) | rfl
  · have hcode := Utf8.isAlphanum_iff.1 halnum
    omega
  · decide
  · decide
  · decide

theorem toNat_toLower_lt {c : Char} (h : c.toNat < 0x80) : c.toLower.toNat < 0x80 := by
  have hall : ∀ n < 0x80, (Char.ofNat n).toLower.toNat < 0x80 := by decide
  rw [← Char.ofNat_toNat c]
  exact hall c.toNat h

theorem labelToAscii_of_ascii {label ascii : Text} (h : ∀ c ∈ label, c.toNat < 0x80)
    (hlabel : labelToAscii label = some ascii) : ascii = label := by
  have hall : label.all fun c => c.toNat < 0x80 := by simpa using h
  rw [labelToAscii, if_pos hall] at hlabel
  grind

theorem mapM_labelToAscii_of_ascii {labels ascii : List Text}
    (h : ∀ label ∈ labels, ∀ c ∈ label, c.toNat < 0x80)
    (hlabels : labels.mapM labelToAscii = some ascii) : ascii = labels := by
  induction labels generalizing ascii with
  | nil => simpa using hlabels.symm
  | cons label labels ih =>
      simp only [List.mapM_cons, bind, Option.bind_eq_some_iff, pure, Option.some.injEq] at hlabels
      obtain ⟨first, hfirst, rest, hrest, rfl⟩ := hlabels
      rw [labelToAscii_of_ascii (h label (.head _)) hfirst,
        ih (fun l hl => h l (.tail _ hl)) hrest]

theorem flatMap_mapChar_of_ascii {name : Text} (h : ∀ c ∈ name, c.toNat < 0x80) :
    name.flatMap mapChar = Text.lower name := by
  induction name with
  | nil => rfl
  | cons c name ih =>
      have hc : mapChar c = [c.toLower] := by simp [mapChar, h c (.head _)]
      rw [List.flatMap_cons, hc, ih fun d hd => h d (.tail _ hd)]
      rfl

theorem domainToAscii_of_ascii {name ascii : Text} (h : ∀ c ∈ name, c.toNat < 0x80)
    (hname : domainToAscii name = some ascii) : ascii = Text.lower name := by
  have hlower : ∀ label ∈ Text.splitAll '.' (Text.lower name), ∀ c ∈ label, c.toNat < 0x80 := by
    intro label hlabel c hc
    have hmem := (Text.exists_mem_splitAll_iff.1 ⟨label, hlabel, hc⟩).1
    obtain ⟨d, hd, rfl⟩ := List.mem_map.1 hmem
    exact toNat_toLower_lt (h d hd)
  rw [domainToAscii] at hname
  simp only [flatMap_mapChar_of_ascii h] at hname
  split at hname
  · cases hname
  · simp only [bind, Option.bind_eq_some_iff, pure, Option.some.injEq] at hname
    obtain ⟨labels, hlabels, rfl⟩ := hname
    rw [mapM_labelToAscii_of_ascii hlower hlabels, Text.joinWith_splitAll]

theorem parseSpecial?_of_name {name : Text} {host : Host} (h : name.all isNameChar)
    (hhost : parseSpecial? name = some host) :
    host = .domain (Text.lower name) ∨ ipv4? (Text.lower name) = some host := by
  have hascii : ∀ c ∈ name, c.toNat < 0x80 :=
    fun c hc => toNat_lt_of_isNameChar (List.all_eq_true.1 h c hc)
  have hbracket : name.head? ≠ some '[' := fun hhead =>
    absurd (List.all_eq_true.1 h '[' (List.mem_of_head? hhead)) (by decide)
  have hpercent : 0x25 ∉ Utf8.encode name := Percent.percent_not_mem_encode fun hc =>
    absurd (List.all_eq_true.1 h '%' hc) (by decide)
  rw [parseSpecial?, if_neg hbracket, Percent.decode_of_not_mem hpercent,
    Utf8.decode?_encode] at hhost
  simp only [bind, Option.bind_some, Option.bind_eq_some_iff] at hhost
  obtain ⟨ascii, hname, hhost⟩ := hhost
  rw [← domainToAscii_of_ascii hascii hname]
  split at hhost
  · cases hhost
  · split at hhost
    · exact .inr hhost
    · exact .inl (Option.some.inj hhost).symm

end Url.Host

end NetBoot
