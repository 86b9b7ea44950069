import NetBoot.Proofs.Http.FieldOrder
import NetBoot.Proofs.Server.Forwarding

namespace NetBoot

open Http

namespace Http.Headers

variable {name value : Text} {hs : Headers}

theorem setDefault_of_values_eq_nil (h : hs.values name = []) :
    hs.setDefault name value = hs ++ [(name, value)] := by
  rw [setDefault, has_eq_false_iff.2 h]
  exact if_neg Bool.false_ne_true

theorem setDefault_of_values_ne_nil (h : hs.values name ≠ []) :
    hs.setDefault name value = hs := by
  have hhas : hs.has name = true := Bool.of_not_eq_false (mt has_eq_false_iff.1 h)
  rw [setDefault, hhas, if_pos rfl]

theorem filter_setDefault {p : Text × Text → Bool} (h : p (name, value) = false) :
    (hs.setDefault name value).filter p = hs.filter p := by
  unfold setDefault
  split
  · rfl
  · rw [List.filter_append, List.filter_cons_of_neg (by simp [h]), List.filter_nil,
      List.append_nil]

theorem filter_set {p : Text × Text → Bool} (h : ∀ value, p (name, value) = false) :
    (hs.set name value).filter p = hs.filter p := by
  rw [set, List.filter_append, List.filter_cons_of_neg (by simp [h]), List.filter_nil,
    List.append_nil, remove, List.filter_filter]
  refine List.filter_congr fun field _ => ?_
  by_cases hname : field.1 = name
  · subst hname
    rw [h field.2, Bool.false_and]
  · simp [hname]

theorem values_ne_nil_of_mem {field : Text × Text} (h : field ∈ hs) : hs.values field.1 ≠ [] := by
  have hvalue : field.2 ∈ hs.values field.1 :=
    List.mem_map_of_mem (List.mem_filter.2 ⟨h, decide_eq_true rfl⟩)
  exact List.ne_nil_of_mem hvalue

end Http.Headers

namespace BlobRelay

variable {name : Text} {hs : Headers} {length : Option Nat} {n : Nat}

theorem rewritten_some (hs : Headers) (hn : 0 < n) : rewritten hs (some n) =
    (relabelled (endToEnd hs)).setDefault contentLengthName (Text.digits n) := by
  cases n with
  | zero => exact absurd hn (Nat.lt_irrefl 0)
  | succ n => rfl

theorem rewritten_of_no_length (hs : Headers) (h : ∀ n, length = some n → n = 0) :
    rewritten hs length = relabelled (endToEnd hs) := by
  cases length with
  | none => rfl
  | some n =>
      obtain rfl := h n rfl
      rfl

theorem exists_pos_or_no_length (length : Option Nat) :
    (∃ n, 0 < n ∧ length = some n) ∨ ∀ n, length = some n → n = 0 := by
  rcases length with _ | _ | n
  · exact .inr nofun
  · exact .inr fun n h => (Option.some.inj h).symm
  · exact .inl ⟨n + 1, n.succ_pos, rfl⟩

theorem values_relabelled_of_ne (h : name ≠ contentTypeName) (hs : Headers) :
    (relabelled hs).values name = hs.values name := by
  unfold relabelled
  split
  · exact Headers.values_set_of_ne h _ _
  · rfl

theorem values_contentType_relabelled (hs : Headers) :
    (relabelled hs).values contentTypeName =
      if hs.first? contentTypeName = some MediaType.uki then [MediaType.efi]
      else hs.values contentTypeName := by
  unfold relabelled
  split
  · exact Headers.values_set_self _ _ _
  · rfl

theorem values_endToEnd_of_not_mem (h : name ∉ hopByHop) (hs : Headers) :
    (endToEnd hs).values name = hs.values name := by
  rw [values_endToEnd, if_neg h]

theorem values_rewritten_of_ne (h : name ≠ contentLengthName) (hs : Headers)
    (length : Option Nat) :
    (rewritten hs length).values name = (relabelled (endToEnd hs)).values name := by
  unfold rewritten
  dsimp only
  split
  · exact (Headers.values_setDefault name contentLengthName _ _).trans (if_neg fun hc => h hc.1)
  · rfl

theorem values_contentType_rewritten (hs : Headers) (length : Option Nat) :
    (rewritten hs length).values contentTypeName =
      if (hs.values contentTypeName).head? = some MediaType.uki then [MediaType.efi]
      else hs.values contentTypeName := by
  have htype : contentTypeName ∉ hopByHop := by decide
  rw [values_rewritten_of_ne (by decide), values_contentType_relabelled, Headers.first?,
    values_endToEnd_of_not_mem htype]

theorem values_contentLength_relabelled_endToEnd (hs : Headers) :
    (relabelled (endToEnd hs)).values contentLengthName = hs.values contentLengthName := by
  rw [values_relabelled_of_ne (by decide), values_endToEnd_of_not_mem (by decide)]

theorem values_rewritten_of_mem (h : name ∈ hopByHop) (hs : Headers) (length : Option Nat) :
    (rewritten hs length).values name = [] := by
  have hlength : name ≠ contentLengthName := fun heq => absurd (heq ▸ h) (by decide)
  have htype : name ≠ contentTypeName := fun heq => absurd (heq ▸ h) (by decide)
  rw [values_rewritten_of_ne hlength, values_relabelled_of_ne htype, values_endToEnd, if_pos h]

def isHandedOn (field : Text × Text) : Bool :=
  field.1 ∉ hopByHop ∧ field.1 ≠ contentTypeName ∧ field.1 ≠ contentLengthName

theorem filter_endToEnd (hs : Headers) :
    (endToEnd hs).filter isHandedOn = hs.filter isHandedOn := by
  rw [endToEnd, List.filter_filter]
  refine List.filter_congr fun field _ => ?_
  by_cases hname : field.1 ∈ hopByHop
  · simp [isHandedOn, hname]
  · simp [hname]

theorem filter_relabelled (hs : Headers) :
    (relabelled hs).filter isHandedOn = hs.filter isHandedOn := by
  unfold relabelled
  split
  · exact Headers.filter_set fun value => by simp [isHandedOn]
  · rfl

theorem filter_rewritten (hs : Headers) (length : Option Nat) :
    (rewritten hs length).filter isHandedOn = hs.filter isHandedOn := by
  have hfields : (relabelled (endToEnd hs)).filter isHandedOn = hs.filter isHandedOn :=
    (filter_relabelled _).trans (filter_endToEnd hs)
  unfold rewritten
  dsimp only
  split
  · exact (Headers.filter_setDefault (by simp [isHandedOn])).trans hfields
  · exact hfields

structure HandsBack (hs : Headers) (length : Option Nat) (out : Headers) : Prop where
  hop_by_hop : ∀ name ∈ hopByHop, out.values name = []
  boot_program : (hs.values contentTypeName).head? = some MediaType.uki →
    out.values contentTypeName = ["application/efi".toList]
  other_type : (hs.values contentTypeName).head? ≠ some MediaType.uki →
    out.values contentTypeName = hs.values contentTypeName
  length_added : ∀ n, hs.values contentLengthName = [] → length = some n → 0 < n →
    out.values contentLengthName = [Nat.toDigits 10 n]
  length_kept : (hs.values contentLengthName ≠ [] ∨ ∀ n, length = some n → n = 0) →
    out.values contentLengthName = hs.values contentLengthName
  others : out.filter isHandedOn = hs.filter isHandedOn

theorem handsBack_rewritten (hs : Headers) (length : Option Nat) :
    HandsBack hs length (rewritten hs length) where
  hop_by_hop name h := values_rewritten_of_mem h hs length
  boot_program h := (values_contentType_rewritten hs length).trans (if_pos h)
  other_type h := (values_contentType_rewritten hs length).trans (if_neg h)
  length_added n hnone hlength hn := by
    have hvalues := values_contentLength_relabelled_endToEnd hs
    rw [hlength, rewritten_some hs hn,
      Headers.setDefault_of_values_eq_nil (hvalues.trans hnone), Headers.values_append, hvalues,
      hnone]
    rfl
  length_kept h := by
    have hvalues := values_contentLength_relabelled_endToEnd hs
    rcases exists_pos_or_no_length length with ⟨n, hn, rfl⟩ | hzero
    · have hsent : hs.values contentLengthName ≠ [] :=
        h.resolve_right fun hzero => absurd (hzero n rfl) (Nat.ne_of_gt hn)
      rw [rewritten_some hs hn, Headers.setDefault_of_values_ne_nil (hvalues ▸ hsent), hvalues]
    · rw [rewritten_of_no_length hs hzero, hvalues]
  others := filter_rewritten hs length

theorem HandsBack.contentLength_ne_nil {out : Headers} (h : HandsBack hs length out)
    (hlength : length = some n) (hn : 0 < n) : out.values contentLengthName ≠ [] := by
  by_cases hnone : hs.values contentLengthName = []
  · rw [h.length_added n hnone hlength hn]
    exact List.cons_ne_nil _ _
  · rw [h.length_kept (.inl hnone)]
    exact hnone

theorem HandsBack.head?_contentType_ne {out : Headers} (h : HandsBack hs length out) :
    (out.values contentTypeName).head? ≠ some MediaType.uki := by
  by_cases hboot : (hs.values contentTypeName).head? = some MediaType.uki
  · rw [h.boot_program hboot]
    decide
  · rw [h.other_type hboot]
    exact hboot

theorem rewritten_eq_self {out : Headers} (h : HandsBack hs length out) :
    rewritten out length = out := by
  have hend : endToEnd out = out := by
    refine List.filter_eq_self.2 fun field hfield => decide_eq_true fun hhop => ?_
    exact Headers.values_ne_nil_of_mem hfield (h.hop_by_hop _ hhop)
  have hlabel : relabelled (endToEnd out) = out := by
    rw [hend]
    exact if_neg h.head?_contentType_ne
  rcases exists_pos_or_no_length length with ⟨n, hn, rfl⟩ | hzero
  · rw [rewritten_some out hn, hlabel,
      Headers.setDefault_of_values_ne_nil (h.contentLength_ne_nil rfl hn)]
  · rw [rewritten_of_no_length out hzero, hlabel]

theorem reply_headers_rewritten (hs : Headers) (length : Option Nat) :
    HandsBack hs length (rewritten hs length) ∧
      (rewritten hs length).values "transfer-encoding".toList = [] ∧
      (∀ n, length = some n → 0 < n → (rewritten hs length).values contentLengthName ≠ []) ∧
      rewritten (rewritten hs length) length = rewritten hs length := by
  have hback := handsBack_rewritten hs length
  refine ⟨hback, hback.hop_by_hop _ (by decide), fun n => hback.contentLength_ne_nil, ?_⟩
  exact rewritten_eq_self hback

def programReplyHeaders : Headers :=
  [("x-layer".toList, ['1']), (contentTypeName, MediaType.uki),
    ("connection".toList, "close".toList), (contentTypeName, "text/plain".toList),
    ("transfer-encoding".toList, "chunked".toList), ("x-layer".toList, ['2']),
    ("connection".toList, "x-layer".toList)]

theorem program_reply_headers_rewritten :
    let out := rewritten programReplyHeaders (some 42)
    programReplyHeaders.values contentTypeName = [MediaType.uki, "text/plain".toList] ∧
      out.values contentTypeName = ["application/efi".toList] ∧
      out.values contentLengthName = ["42".toList] ∧
      out.filter isHandedOn = [("x-layer".toList, ['1']), ("x-layer".toList, ['2'])] ∧
      out.values "connection".toList = [] ∧ rewritten out (some 42) = out := by
  obtain ⟨hback, -, -, hagain⟩ := reply_headers_rewritten programReplyHeaders (some 42)
  have hlength := hback.length_added 42 (by decide) rfl (by decide)
  exact ⟨by decide, hback.boot_program (by decide), hlength, hback.others.trans (by decide),
    hback.hop_by_hop _ (by decide), hagain⟩

end BlobRelay

end NetBoot
