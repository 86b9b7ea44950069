import NetBoot.Proofs.Image.DocumentKinds
import NetBoot.Proofs.Json.Superseded
import NetBoot.Registry.Resolver

namespace NetBoot

open Json

def MediaType.IsConclusive (mt : MediaType) : Prop := mt.isIndex ∨ mt.isManifest

instance (mt : MediaType) : Decidable mt.IsConclusive := inferInstanceAs (Decidable (_ ∨ _))

namespace Document

variable {α : Type} {read : Tree → Except Fault α} {mt : MediaType} {data : Bytes}
  {text : Json.Document} {document : Document} {a : α}

def HasType (mt : MediaType) : Document → Prop
  | .index _ => mt.isIndex
  | .manifest _ => mt.isManifest

instance : (document : Document) → Decidable (document.HasType mt)
  | .index _ => inferInstanceAs (Decidable (mt.isIndex = true))
  | .manifest _ => inferInstanceAs (Decidable (mt.isManifest = true))

def readLike (text : Json.Document) : Document → Except Fault Document
  | .index _ => (text.read readIndex).map .index
  | .manifest _ => (text.read readManifest).map .manifest

theorem parse_of_isManifest (h : mt.isManifest) :
    parse mt data = (((Json.parse data).read readManifest).map .manifest).mapError .json := by
  have hindex : mt.isIndex = false := by
    cases hmt : mt.isIndex with
    | false => rfl
    | true => exact nomatch (MediaType.isManifest_eq_false_of_isIndex hmt).symm.trans h
  unfold parse
  rw [hindex, if_neg Bool.false_ne_true, if_pos h]

theorem parse_of_hasType (h : document.HasType mt) :
    parse mt data = (readLike (Json.parse data) document).mapError .json := by
  cases document with
  | index i => exact parse_of_isIndex h
  | manifest m => exact parse_of_isManifest h

theorem parse_of_inconclusive (h : ¬ mt.IsConclusive) :
    parse mt data = sniff (Json.parse data) := by
  obtain ⟨hindex, hmanifest⟩ := not_or.1 h
  unfold parse
  rw [if_neg hindex, if_neg hmanifest]

theorem trailing_of_sniff (h : sniff text = .ok document) : text.trailing = false := by
  unfold sniff at h
  cases hv : text.generic with
  | error f => simp [hv] at h
  | ok v => exact (Document.read_eq_ok.1 hv).2

/-- What is read of the generic form of a text is read of the text, unless a key is repeated. -/
theorem read_of_generic (hstable : Stable read) {v : Tree}
    (hv : text.tree.generic depthLimit = .ok v) (htrailing : text.trailing = false)
    (ha : read v = .ok a) :
    text.read read = .ok a ∨ text.tree.repeatsKey ∧ ∃ f, text.read read = .error f := by
  cases hread : text.read read with
  | ok b =>
      have hb : read v = .ok b := hstable _ _ _ _ hv (Document.read_eq_ok.1 hread).1
      exact .inl (hb.symm.trans ha)
  | error f =>
      cases hkeys : text.tree.repeatsKey with
      | true => exact .inr ⟨rfl, f, rfl⟩
      | false =>
          have hread' : text.read read = .ok a :=
            Document.read_eq_ok.2 ⟨Tree.eq_of_generic hv hkeys ▸ ha, htrailing⟩
          exact nomatch hread.symm.trans hread'

theorem read_latest {v : Tree} (hv : text.tree.generic depthLimit = .ok v)
    (htrailing : text.trailing = false) (ha : read v = .ok a) :
    ({ text with tree := text.tree.latest } : Json.Document).read read = .ok a :=
  Document.read_eq_ok.2 ⟨Tree.eq_latest_of_generic hv ▸ ha, htrailing⟩

theorem readLike_of_sniff (h : sniff text = .ok document) :
    (readLike text document = .ok document ∨
      text.tree.repeatsKey ∧ ∃ f, readLike text document = .error f) ∧
    readLike { text with tree := text.tree.latest } document = .ok document := by
  have htrailing := trailing_of_sniff h
  obtain ⟨v, hv, ⟨i, rfl, -, hi⟩ | ⟨m, rfl, -, hm⟩⟩ := sniff_eq_ok h
  · simp only [readLike, Except.map_eq_ok, Except.map_eq_error]
    refine ⟨?_, i, read_latest hv htrailing hi, rfl⟩
    exact (read_of_generic stable_readIndex hv htrailing hi).imp_left
      fun hread => ⟨i, hread, rfl⟩
  · simp only [readLike, Except.map_eq_ok, Except.map_eq_error]
    refine ⟨?_, m, read_latest hv htrailing hm, rfl⟩
    exact (read_of_generic stable_readManifest hv htrailing hm).imp_left
      fun hread => ⟨m, hread, rfl⟩

end Document

namespace Resolver

open Document

theorem sniffed_as_under_type {mt : MediaType} {data : Bytes} {document : Document}
    (hmt : ¬ mt.IsConclusive) (h : parseDocument mt data = .ok document) :
    (∀ typed, document.HasType typed →
      parseDocument typed data = .ok document ∨
        (Json.parse data).tree.repeatsKey ∧ ∃ f, parseDocument typed data = .error (.json f)) ∧
    ((Json.parse data).tree.repeatsKey = false →
      ∀ typed, document.HasType typed → parseDocument typed data = .ok document) ∧
    readLike { Json.parse data with tree := (Json.parse data).tree.latest } document =
      .ok document := by
  rw [parseDocument, Except.mapError_eq_ok, parse_of_inconclusive hmt] at h
  obtain ⟨hread, hlatest⟩ := readLike_of_sniff h
  have hunder (typed : MediaType) (htyped : document.HasType typed) :
      parseDocument typed data = .ok document ∨
        (Json.parse data).tree.repeatsKey ∧ ∃ f, parseDocument typed data = .error (.json f) := by
    rw [parseDocument, parse_of_hasType htyped]
    rcases hread with hread | ⟨hkeys, f, hread⟩
    · exact .inl (by rw [hread]; rfl)
    · exact .inr ⟨hkeys, f, by rw [hread]; rfl⟩
  refine ⟨hunder, fun hkeys typed htyped => ?_, hlatest⟩
  rcases hunder typed htyped with hok | ⟨hrepeats, -⟩
  · exact hok
  · exact nomatch hkeys.symm.trans hrepeats

def arrayLayerText : Bytes := Utf8.encode
  "\x7b\"schemaVersion\":2,\"x\":-1.5,\"layers\":[[\"a\",\"b\",1,null,null]]\x7d".toList

def repeatedVersionText : Bytes := Utf8.encode
  "\x7b\"schemaVersion\":1,\"manifests\":[],\"schemaVersion\":2\x7d".toList

theorem sniffed_texts_under_type :
    parseDocument "application/json".toList arrayLayerText =
        .ok (.manifest ⟨2, none, none, [.plain "a".toList "b".toList 1], none⟩) ∧
      parseDocument MediaType.ociManifest arrayLayerText =
        .ok (.manifest ⟨2, none, none, [.plain "a".toList "b".toList 1], none⟩) ∧
      parseDocument "application/json".toList repeatedVersionText =
        .ok (.index ⟨2, none, [], none⟩) ∧
      ∃ f, parseDocument MediaType.ociIndex repeatedVersionText = .error (.json f) := by
  have hmt : ¬ MediaType.IsConclusive "application/json".toList := by decide
  have harray : parseDocument "application/json".toList arrayLayerText =
      .ok (.manifest ⟨2, none, none, [.plain "a".toList "b".toList 1], none⟩) :=
    Except.toOption_eq_some.1 (by decide +kernel)
  have hrepeated : parseDocument "application/json".toList repeatedVersionText =
      .ok (.index ⟨2, none, [], none⟩) :=
    Except.toOption_eq_some.1 (by decide +kernel)
  have hrefused : (parseDocument MediaType.ociIndex repeatedVersionText).toOption = none := by
    decide +kernel
  refine ⟨harray, ?_, hrepeated, ?_⟩
  · exact (sniffed_as_under_type hmt harray).2.1 (by decide +kernel) _ (by decide)
  · rcases (sniffed_as_under_type hmt hrepeated).1 MediaType.ociIndex (by decide) with hok | ⟨-, hf⟩
    · exact nomatch hrefused.symm.trans (Except.toOption_eq_some.2 hok)
    · exact hf

end Resolver

end NetBoot
