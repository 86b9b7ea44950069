import NetBoot.Image.Document
import NetBoot.Proofs.Image.StableReaders

namespace NetBoot.Document

open Json

variable {α : Type}

def ReadsAs (read : Tree → Except Fault α) (v : Tree) (a : α) : Prop :=
  read v = .ok a ∨ ∃ v', v.generic depthLimit = .ok v' ∧ read v' = .ok a

theorem ReadsAs.unique {read : Tree → Except Fault α} (hstable : Stable read) {v : Tree} {a b : α}
    (ha : ReadsAs read v a) (hb : ReadsAs read v b) : a = b := by
  rcases ha with ha | ⟨v', hv, ha⟩
  · rcases hb with hb | ⟨v', hv, hb⟩
    · exact Except.ok.inj (ha.symm.trans hb)
    · exact Except.ok.inj ((hstable depthLimit v v' a hv ha).symm.trans hb)
  · rcases hb with hb | ⟨v'', hv', hb⟩
    · exact Except.ok.inj (ha.symm.trans (hstable depthLimit v v' b hv hb))
    · cases hv.symm.trans hv'
      exact Except.ok.inj (ha.symm.trans hb)

theorem sniff_eq_ok {text : Json.Document} {d : Document} (h : sniff text = .ok d) :
    ∃ v, text.tree.generic depthLimit = .ok v ∧
      ((∃ i, d = .index i ∧ (v.get? manifestsKey).isSome ∧ readIndex v = .ok i) ∨
        ∃ m, d = .manifest m ∧ (v.get? layersKey).isSome ∧ readManifest v = .ok m) := by
  unfold sniff at h
  cases hv : text.generic with
  | error f => simp [hv] at h
  | ok v =>
      refine ⟨v, (Document.read_eq_ok.1 hv).1, ?_⟩
      simp only [hv] at h
      split at h
      · next hkey =>
          obtain ⟨i, hi, rfl⟩ := Except.map_eq_ok.1 (Except.mapError_eq_ok.1 h)
          exact .inl ⟨i, rfl, hkey, Except.mapError_eq_ok.1 hi⟩
      · split at h
        · next hkey =>
            obtain ⟨m, hm, rfl⟩ := Except.map_eq_ok.1 (Except.mapError_eq_ok.1 h)
            exact .inr ⟨m, rfl, hkey, Except.mapError_eq_ok.1 hm⟩
        · exact nomatch h

theorem parse_of_isIndex {mt : MediaType} {data : Bytes} (hmt : mt.isIndex) :
    parse mt data = (((Json.parse data).read readIndex).map .index).mapError .json := by
  unfold parse
  rw [if_pos hmt]

theorem parse_eq_ok {mt : MediaType} {data : Bytes} {d : Document} (h : parse mt data = .ok d) :
    (∃ i, d = .index i ∧ readIndex (Json.parse data).tree = .ok i) ∨
      (∃ m, d = .manifest m ∧ readManifest (Json.parse data).tree = .ok m) ∨
        sniff (Json.parse data) = .ok d := by
  unfold parse at h
  split at h
  · obtain ⟨i, hi, rfl⟩ := Except.map_eq_ok.1 (Except.mapError_eq_ok.1 h)
    exact .inl ⟨i, rfl, (Document.read_eq_ok.1 hi).1⟩
  · split at h
    · obtain ⟨m, hm, rfl⟩ := Except.map_eq_ok.1 (Except.mapError_eq_ok.1 h)
      exact .inr (.inl ⟨m, rfl, (Document.read_eq_ok.1 hm).1⟩)
    · exact .inr (.inr h)

theorem readsAs_index {mt : MediaType} {data : Bytes} {i : ImageIndex}
    (h : parse mt data = .ok (.index i)) : ReadsAs readIndex (Json.parse data).tree i := by
  rcases parse_eq_ok h with ⟨i', heq, hi⟩ | ⟨m, heq, -⟩ | hsniff
  · cases heq
    exact .inl hi
  · exact nomatch heq
  · obtain ⟨v, hv, ⟨i', heq, -, hi⟩ | ⟨m, heq, -⟩⟩ := sniff_eq_ok hsniff
    · cases heq
      exact .inr ⟨v, hv, hi⟩
    · exact nomatch heq

theorem readsAs_manifest {mt : MediaType} {data : Bytes} {m : Manifest}
    (h : parse mt data = .ok (.manifest m)) : ReadsAs readManifest (Json.parse data).tree m := by
  rcases parse_eq_ok h with ⟨i, heq, -⟩ | ⟨m', heq, hm⟩ | hsniff
  · exact nomatch heq
  · cases heq
    exact .inl hm
  · obtain ⟨v, hv, ⟨i, heq, -⟩ | ⟨m', heq, -, hm⟩⟩ := sniff_eq_ok hsniff
    · exact nomatch heq
    · cases heq
      exact .inr ⟨v, hv, hm⟩

theorem parse_index_unique {mt mt' : MediaType} {data : Bytes} {i i' : ImageIndex}
    (h : parse mt data = .ok (.index i)) (h' : parse mt' data = .ok (.index i')) : i = i' :=
  (readsAs_index h).unique stable_readIndex (readsAs_index h')

theorem parse_manifest_unique {mt mt' : MediaType} {data : Bytes} {m m' : Manifest}
    (h : parse mt data = .ok (.manifest m)) (h' : parse mt' data = .ok (.manifest m')) : m = m' :=
  (readsAs_manifest h).unique stable_readManifest (readsAs_manifest h')

def Ambiguous (v : Tree) : Prop := some manifestsKey ∈ v.keys ∧ some layersKey ∈ v.keys

instance (v : Tree) : Decidable (Ambiguous v) := inferInstanceAs (Decidable (_ ∧ _))

theorem IndexFields.manifests_read {f f' : IndexFields} {key : Text} {v : Tree}
    (h : f.read key v = .ok f') (hkey : key ≠ manifestsKey) : f'.manifests = f.manifests := by
  unfold read at h
  repeat' split at h
  · obtain ⟨_, -, rfl⟩ := Except.map_eq_ok.1 h
    rfl
  · obtain ⟨_, -, rfl⟩ := Except.map_eq_ok.1 h
    rfl
  · obtain ⟨_, -, rfl⟩ := Except.map_eq_ok.1 h
    rfl
  · rw [eq_of_passOver h]

theorem ManifestFields.layers_read {f f' : ManifestFields} {key : Text} {v : Tree}
    (h : f.read key v = .ok f') (hkey : key ≠ layersKey) : f'.layers = f.layers := by
  unfold read at h
  repeat' split at h
  · obtain ⟨_, -, rfl⟩ := Except.map_eq_ok.1 h
    rfl
  · obtain ⟨_, -, rfl⟩ := Except.map_eq_ok.1 h
    rfl
  · obtain ⟨_, -, rfl⟩ := Except.map_eq_ok.1 h
    rfl
  · obtain ⟨_, -, rfl⟩ := Except.map_eq_ok.1 h
    rfl
  · rw [eq_of_passOver h]

theorem manifests_eq_nil_of_not_mem {members : Members} {i : ImageIndex}
    (hkey : some manifestsKey ∉ members.keys) (h : readIndex (.object members) = .ok i) :
    i.manifests = [] := by
  obtain ⟨f, hf, hbuild⟩ := Except.bind_eq_ok.1 h
  have hnone : f.manifests = none :=
    Members.fold_untouched (fun _ _ _ _ => IndexFields.manifests_read) hkey hf
  obtain ⟨version, -, heq⟩ := Except.bind_eq_ok.1 hbuild
  rw [← Except.pure_eq_ok.1 heq, hnone]
  rfl

theorem layers_eq_nil_of_not_mem {members : Members} {m : Manifest}
    (hkey : some layersKey ∉ members.keys) (h : readManifest (.object members) = .ok m) :
    m.layers = [] := by
  obtain ⟨f, hf, hbuild⟩ := Except.bind_eq_ok.1 h
  have hnone : f.layers = none :=
    Members.fold_untouched (fun _ _ _ _ => ManifestFields.layers_read) hkey hf
  obtain ⟨version, -, heq⟩ := Except.bind_eq_ok.1 hbuild
  rw [← Except.pure_eq_ok.1 heq, hnone]
  rfl

theorem ReadsAs.manifests_eq_nil {members : Members} {i : ImageIndex}
    (h : ReadsAs readIndex (.object members) i) (hkey : some manifestsKey ∉ members.keys) :
    i.manifests = [] := by
  obtain h | ⟨v, hv, h⟩ := h
  · exact manifests_eq_nil_of_not_mem hkey h
  · obtain ⟨d, members', hmembers, rfl⟩ := depth_of_generic_object hv
    exact manifests_eq_nil_of_not_mem (mt (Members.mem_keys_generic hmembers).1 hkey) h

theorem ReadsAs.layers_eq_nil {members : Members} {m : Manifest}
    (h : ReadsAs readManifest (.object members) m) (hkey : some layersKey ∉ members.keys) :
    m.layers = [] := by
  obtain h | ⟨v, hv, h⟩ := h
  · exact layers_eq_nil_of_not_mem hkey h
  · obtain ⟨d, members', hmembers, rfl⟩ := depth_of_generic_object hv
    exact layers_eq_nil_of_not_mem (mt (Members.mem_keys_generic hmembers).1 hkey) h

theorem exists_text_of_toText {v : Tree} {t : Text} (h : v.toText = .ok t) : v = .text t := by
  cases v with
  | text t' => exact congrArg Tree.text (Except.ok.inj h)
  | _ => simp [Tree.toText] at h

theorem readDescriptor_ne_ok_of_toList {items : Items} {ds : List Descriptor} {d : Descriptor}
    (h : items.toList readDescriptor = .ok ds) : readDescriptor (.array items) ≠ .ok d := by
  intro hd
  obtain ⟨p, hp, -⟩ := Except.bind_eq_ok.1 hd
  obtain ⟨⟨mediaType, rest⟩, hnext, -⟩ := Except.bind_eq_ok.1 hp
  rcases Items.next_eq_ok.1 hnext with ⟨-, habsent, -⟩ | ⟨v, rfl, hv⟩
  · exact nomatch habsent
  · obtain ⟨a, as, ha, -⟩ := Items.toList_item.1 h
    rw [exists_text_of_toText hv] at ha
    simp [readDescriptor, Tree.toRecord] at ha

theorem third_of_indexInOrder {items rest : Items} {i : ImageIndex}
    (h : indexInOrder items = .ok (i, rest)) (hne : i.manifests ≠ []) :
    ∃ version mediaType third tail, items = .item version (.item mediaType (.item third tail)) ∧
      third.toList readDescriptor = .ok i.manifests := by
  obtain ⟨⟨version, afterVersion⟩, hversion, h⟩ := Except.bind_eq_ok.1 h
  obtain ⟨⟨mediaType, afterMediaType⟩, hmediaType, h⟩ := Except.bind_eq_ok.1 h
  obtain ⟨⟨manifests, afterManifests⟩, hmanifests, h⟩ := Except.bind_eq_ok.1 h
  obtain ⟨⟨annotations, rest'⟩, -, h⟩ := Except.bind_eq_ok.1 h
  cases Except.pure_eq_ok.1 h
  rcases Items.next_eq_ok.1 hmanifests with ⟨-, habsent, -⟩ | ⟨third, rfl, hthird⟩
  · cases habsent
    exact absurd rfl hne
  rcases Items.next_eq_ok.1 hmediaType with ⟨-, -, heq⟩ | ⟨second, rfl, -⟩
  · exact nomatch heq
  rcases Items.next_eq_ok.1 hversion with ⟨-, -, heq⟩ | ⟨first, rfl, -⟩
  · exact nomatch heq
  exact ⟨first, second, third, afterManifests, rfl, hthird⟩

theorem third_of_manifestInOrder {version mediaType third tail rest : _} {m : Manifest}
    (h : manifestInOrder (.item version (.item mediaType (.item third tail))) = .ok (m, rest)) :
    third.toOption readDescriptor = .ok m.config := by
  obtain ⟨⟨version, afterVersion⟩, hversion, h⟩ := Except.bind_eq_ok.1 h
  obtain ⟨⟨mediaType, afterMediaType⟩, hmediaType, h⟩ := Except.bind_eq_ok.1 h
  obtain ⟨⟨config, afterConfig⟩, hconfig, h⟩ := Except.bind_eq_ok.1 h
  obtain ⟨⟨layers, afterLayers⟩, -, h⟩ := Except.bind_eq_ok.1 h
  obtain ⟨⟨annotations, rest'⟩, -, h⟩ := Except.bind_eq_ok.1 h
  cases Except.pure_eq_ok.1 h
  rcases Items.next_eq_ok.1 hversion with ⟨heq, -, -⟩ | ⟨_, heq, -⟩
  · exact nomatch heq
  cases heq
  rcases Items.next_eq_ok.1 hmediaType with ⟨heq, -, -⟩ | ⟨_, heq, -⟩
  · exact nomatch heq
  cases heq
  rcases Items.next_eq_ok.1 hconfig with ⟨heq, -, -⟩ | ⟨_, heq, hthird⟩
  · exact nomatch heq
  cases heq
  exact hthird

theorem not_readManifest_array {items : Items} {i : ImageIndex} {m : Manifest}
    (hi : readIndex (.array items) = .ok i) (hne : i.manifests ≠ []) :
    readManifest (.array items) ≠ .ok m := by
  intro hm
  obtain ⟨⟨i', rest⟩, hindex, hfinish⟩ := Except.bind_eq_ok.1 hi
  obtain ⟨-, -, rfl⟩ := Except.map_eq_ok.1 hfinish
  obtain ⟨version, mediaType, third, tail, rfl, hthird⟩ := third_of_indexInOrder hindex hne
  obtain ⟨⟨m', rest'⟩, hmanifest, -⟩ := Except.bind_eq_ok.1 hm
  have hconfig := third_of_manifestInOrder hmanifest
  cases third with
  | array entries =>
      have hnull : Tree.array entries ≠ .null := nofun
      rw [toOption_of_ne_null hnull] at hconfig
      obtain ⟨d, hd, -⟩ := Except.map_eq_ok.1 hconfig
      exact readDescriptor_ne_ok_of_toList hthird hd
  | _ => simp [Tree.toList] at hthird

theorem get?_generic_array {items : Items} {v : Tree} {depth : Nat} {key : Text}
    (h : (Tree.array items).generic depth = .ok v) : v.get? key = none := by
  obtain ⟨d, items', -, rfl⟩ := depth_of_generic_array h
  rfl

theorem sniff_array_ne_ok {text : Json.Document} {items : Items} {d : Document}
    (htree : text.tree = .array items) : sniff text ≠ .ok d := by
  intro h
  obtain ⟨v, hv, ⟨i, -, hkey, -⟩ | ⟨m, -, hkey, -⟩⟩ := sniff_eq_ok h
  · rw [get?_generic_array (htree ▸ hv)] at hkey
    exact nomatch hkey
  · rw [get?_generic_array (htree ▸ hv)] at hkey
    exact nomatch hkey

theorem readIndex_eq_ok_of_array {mt : MediaType} {data : Bytes} {i : ImageIndex} {items : Items}
    (htree : (Json.parse data).tree = .array items) (h : parse mt data = .ok (.index i)) :
    readIndex (.array items) = .ok i := by
  rcases parse_eq_ok h with ⟨i', heq, hi⟩ | ⟨m, heq, -⟩ | hsniff
  · cases heq
    rw [← htree]
    exact hi
  · exact nomatch heq
  · exact absurd hsniff (sniff_array_ne_ok htree)

theorem readManifest_eq_ok_of_array {mt : MediaType} {data : Bytes} {m : Manifest} {items : Items}
    (htree : (Json.parse data).tree = .array items) (h : parse mt data = .ok (.manifest m)) :
    readManifest (.array items) = .ok m := by
  rcases parse_eq_ok h with ⟨i, heq, -⟩ | ⟨m', heq, hm⟩ | hsniff
  · exact nomatch heq
  · cases heq
    rw [← htree]
    exact hm
  · exact absurd hsniff (sniff_array_ne_ok htree)

theorem ReadsAs.is_container {σ : Type} {step : σ → Text → Tree → Except Fault σ} {start : σ}
    {build : σ → Except Fault α} {inOrder : Items → Except Fault (α × Items)} {v : Tree} {a : α}
    (h : ReadsAs (Tree.toRecord step start build inOrder) v a) :
    (∃ members, v = .object members) ∨ ∃ items, v = .array items := by
  cases v with
  | object members => exact .inl ⟨members, rfl⟩
  | array items => exact .inr ⟨items, rfl⟩
  | number huge =>
      obtain h | ⟨v, hv, h⟩ := h
      · simp [Tree.toRecord] at h
      · cases huge <;> simp [Tree.generic] at hv
        rw [← hv] at h
        simp [Tree.toRecord] at h
  | null | bool | natural | text =>
      obtain h | ⟨v, hv, h⟩ := h
      · simp [Tree.toRecord] at h
      · simp only [Tree.generic, Except.ok.injEq] at hv
        rw [← hv] at h
        simp [Tree.toRecord] at h
  | fault | garbled =>
      obtain h | ⟨v, hv, h⟩ := h
      · simp [Tree.toRecord] at h
      · simp [Tree.generic] at hv

theorem parse_index_manifest {mt mt' : MediaType} {data : Bytes} {i : ImageIndex} {m : Manifest}
    (hi : parse mt data = .ok (.index i)) (hm : parse mt' data = .ok (.manifest m)) :
    Ambiguous (Json.parse data).tree ∨ i.manifests = [] ∨ m.layers = [] := by
  have hindex := readsAs_index hi
  have hmanifest := readsAs_manifest hm
  obtain ⟨members, htree⟩ | ⟨items, htree⟩ := hindex.is_container
  · rw [htree] at hindex hmanifest ⊢
    by_cases hmanifests : some manifestsKey ∈ members.keys
    · by_cases hlayers : some layersKey ∈ members.keys
      · exact .inl ⟨hmanifests, hlayers⟩
      · exact .inr (.inr (hmanifest.layers_eq_nil hlayers))
    · exact .inr (.inl (hindex.manifests_eq_nil hmanifests))
  · have hindex := readIndex_eq_ok_of_array htree hi
    have hmanifest := readManifest_eq_ok_of_array htree hm
    by_cases hempty : i.manifests = []
    · exact .inr (.inl hempty)
    · exact absurd hmanifest (not_readManifest_array hindex hempty)

end NetBoot.Document
