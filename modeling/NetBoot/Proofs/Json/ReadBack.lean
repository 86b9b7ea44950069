import NetBoot.Image.Document.Writer
import NetBoot.Proofs.Json.WrittenForm

namespace NetBoot.Json

variable {α β σ : Type}

theorem members_written {d : Nat} {members : List (Text × Tree)} :
    (Members.ofList members).Written d ↔ ∀ m ∈ members, m.2.Written d := by
  induction members with
  | nil => simp [Members.ofList, Members.Written]
  | cons m members ih => simp [Members.ofList, Members.Written, ih]

theorem items_written {d : Nat} {vs : List Tree} :
    (Items.ofList vs).Written d ↔ ∀ v ∈ vs, v.Written d := by
  induction vs with
  | nil => simp [Items.ofList, Items.Written]
  | cons v vs ih => simp [Items.ofList, Items.Written, ih]

def Leads (step : σ → Text → Tree → Except Fault σ) (s : σ) (members : List (Text × Tree))
    (s' : σ) : Prop :=
  (Members.ofList members).fold step s = .ok s'

theorem Leads.append {step : σ → Text → Tree → Except Fault σ} {s s₁ s' : σ}
    {first second : List (Text × Tree)} (hfirst : Leads step s first s₁)
    (hsecond : Leads step s₁ second s') : Leads step s (first ++ second) s' := by
  induction first generalizing s with
  | nil =>
      cases hfirst
      exact hsecond
  | cons m first ih =>
      obtain ⟨s₂, hstep, hfold⟩ := Members.fold_member.1 hfirst
      exact Members.fold_member.2 ⟨s₂, hstep, ih hfold⟩

theorem Leads.nil {step : σ → Text → Tree → Except Fault σ} (s : σ) : Leads step s [] s := rfl

theorem Leads.member {step : σ → Text → Tree → Except Fault σ} {s s₁ s' : σ} {key : Text}
    {v : Tree} {rest : List (Text × Tree)} (hstep : step s key v = .ok s₁)
    (hrest : Leads step s₁ rest s') : Leads step s ((key, v) :: rest) s' :=
  Members.fold_member.2 ⟨s₁, hstep, hrest⟩

theorem Leads.optional {step : σ → Text → Tree → Except Fault σ} (set : Option (Option α) → σ)
    {key : Text} {write : α → Tree} {o : Option α}
    (h : ∀ a ∈ o, step (set none) key (write a) = .ok (set (some (some a)))) :
    Leads step (set none) (Document.optional key write o) (set (o.map some)) := by
  cases o with
  | none => exact Leads.nil _
  | some a => exact Leads.member (h a rfl) (Leads.nil _)

structure ReadsBack (depth : Nat) (proper : α → Prop) (write : α → Tree)
    (read : Tree → Except Fault α) : Prop where
  read_write : ∀ a, proper a → read (write a) = .ok a
  written : ∀ a, proper a → ∀ k, (write a).Written (k + depth)
  ne_null : ∀ a, write a ≠ .null

theorem readsBack_text : ReadsBack 0 (fun _ => True) Tree.text Tree.toText where
  read_write t _ := rfl
  written t _ k := by simp [Tree.Written]
  ne_null t := nofun

theorem readsBack_natural {bound : Nat} (h : bound ≤ Nat.pow 2 64) :
    ReadsBack 0 (· < bound) Tree.natural (Tree.toNatural bound) where
  read_write n hn := if_pos hn
  written n hn k := by
    rw [Tree.Written]
    exact Nat.lt_of_lt_of_le hn h
  ne_null n := nofun

theorem toList_ofList {read : Tree → Except Fault α} {write : α → Tree} {as : List α}
    (h : ∀ a ∈ as, read (write a) = .ok a) :
    (Items.ofList (as.map write)).toList read = .ok as := by
  induction as with
  | nil => rfl
  | cons a as ih =>
      exact Items.toList_item.2 ⟨a, as, h a (.head _), ih fun b hb => h b (.tail _ hb), rfl⟩

theorem ReadsBack.list {depth : Nat} {proper : α → Prop} {write : α → Tree}
    {read : Tree → Except Fault α} (h : ReadsBack depth proper write read) :
    ReadsBack (depth + 1) (fun as => ∀ a ∈ as, proper a) (Document.writeList write)
      (Tree.toList read) where
  read_write as has := toList_ofList fun a ha => h.read_write a (has a ha)
  written as has k := by
    change (Items.ofList (as.map write)).Written (k + depth)
    rw [items_written]
    intro v hv
    obtain ⟨a, ha, rfl⟩ := List.mem_map.1 hv
    exact h.written a (has a ha) k
  ne_null as := nofun

theorem ReadsBack.once {depth : Nat} {proper : α → Prop} {write : α → Tree}
    {read : Tree → Except Fault α} (h : ReadsBack depth proper write read) {a : α} (ha : proper a) :
    once none read (write a) = .ok (some a) :=
  once_eq_ok.2 ⟨rfl, a, h.read_write a ha, rfl⟩

theorem ReadsBack.once_toOption {depth : Nat} {proper : α → Prop} {write : α → Tree}
    {read : Tree → Except Fault α} (h : ReadsBack depth proper write read) {a : α} (ha : proper a) :
    Json.once none (Tree.toOption read) (write a) = .ok (some (some a)) := by
  refine once_eq_ok.2 ⟨rfl, some a, ?_, rfl⟩
  rw [toOption_of_ne_null (h.ne_null a), h.read_write a ha]
  rfl

theorem ReadsBack.written_optional {depth : Nat} {proper : α → Prop} {write : α → Tree}
    {read : Tree → Except Fault α} (h : ReadsBack depth proper write read) {key : Text}
    {o : Option α} (ho : ∀ a ∈ o, proper a) (k : Nat) :
    ∀ m ∈ Document.optional key write o, m.2.Written (k + depth) := by
  cases o with
  | none => exact nofun
  | some a =>
      intro m hm
      obtain rfl := List.mem_singleton.1 hm
      exact h.written a (ho a rfl) k

theorem toRecord_writeObject {step : σ → Text → Tree → Except Fault σ} {start s : σ}
    {build : σ → Except Fault α} {inOrder : Items → Except Fault (α × Items)} {a : α}
    {members : List (Text × Tree)} (hmembers : Leads step start members s)
    (hbuild : build s = .ok a) :
    Tree.toRecord step start build inOrder (Document.writeObject members) = .ok a :=
  Except.bind_eq_ok.2 ⟨s, hmembers, hbuild⟩

def Yields (p : α → Prop) (read : Tree → Except Fault α) : Prop := ∀ v a, read v = .ok a → p a

theorem yields_toNatural (bound : Nat) : Yields (· < bound) (Tree.toNatural bound) := by
  intro v n h
  cases v with
  | natural m =>
      rw [Tree.toNatural] at h
      split at h
      · next hm => exact Except.ok.inj h ▸ hm
      · cases h
  | _ => cases h

theorem Yields.toOption {p : α → Prop} {read : Tree → Except Fault α} (h : Yields p read) :
    Yields (fun o => ∀ a ∈ o, p a) (Tree.toOption read) := by
  intro v o ho a ha
  by_cases hnull : v = .null
  · subst hnull
    cases ho
    exact nomatch ha
  · rw [toOption_of_ne_null hnull] at ho
    obtain ⟨b, hb, rfl⟩ := Except.map_eq_ok.1 ho
    obtain rfl := Option.some.inj ha
    exact h v b hb

theorem Yields.items {p : α → Prop} {read : Tree → Except Fault α} (h : Yields p read) :
    ∀ {items : Items} {as : List α}, items.toList read = .ok as → ∀ a ∈ as, p a
  | .close, as, has => by
      cases has
      exact nofun
  | .fault _, as, has => nomatch has
  | .item v rest, as, has => by
      obtain ⟨b, bs, hb, hbs, rfl⟩ := Items.toList_item.1 has
      intro a ha
      rcases List.mem_cons.1 ha with rfl | ha
      · exact h v a hb
      · exact Yields.items h hbs a ha

theorem Yields.toList {p : α → Prop} {read : Tree → Except Fault α} (h : Yields p read) :
    Yields (fun as => ∀ a ∈ as, p a) (Tree.toList read) := by
  intro v as has
  cases v with
  | array items => exact h.items has
  | _ => cases has

theorem Yields.once {p : α → Prop} {read : Tree → Except Fault α} (h : Yields p read)
    {slot x : Option α} {v : Tree} (hx : once slot read v = .ok x) : ∀ a ∈ x, p a := by
  obtain ⟨-, b, hb, rfl⟩ := once_eq_ok.1 hx
  intro a ha
  obtain rfl := Option.some.inj ha
  exact h v b hb

theorem Members.fold_keeps {Q : σ → Prop} {step : σ → Text → Tree → Except Fault σ}
    (hstep : ∀ s key v s', Q s → step s key v = .ok s' → Q s') :
    ∀ {members : Members} {s s' : σ}, Q s → members.fold step s = .ok s' → Q s'
  | .close, s, s', hs, hfold => by
      cases hfold
      exact hs
  | .fault .., s, s', _, hfold => nomatch hfold
  | .member none _ _, s, s', _, hfold => nomatch hfold
  | .member (some key) v rest, s, s', hs, hfold => by
      obtain ⟨s₁, hfirst, hrest⟩ := Members.fold_member.1 hfold
      exact Members.fold_keeps hstep (hstep s key v s₁ hs hfirst) hrest

def YieldsInOrder (p : α → Prop) (inOrder : Items → Except Fault (α × Items)) : Prop :=
  ∀ items a rest, inOrder items = .ok (a, rest) → p a

theorem YieldsInOrder.pure {p : α → Prop} {a : α} (h : p a) :
    YieldsInOrder p fun items => .ok (a, items) := by
  intro items b rest heq
  cases heq
  exact h

theorem YieldsInOrder.next {p : α → Prop} {q : β → Prop} {read : Tree → Except Fault β}
    (hread : Yields q read) {absent : Except Fault β} (habsent : ∀ b, absent = .ok b → q b)
    {k : β × Items → Except Fault (α × Items)}
    (hk : ∀ b, q b → YieldsInOrder p fun items => k (b, items)) :
    YieldsInOrder p fun items => items.next read absent >>= k := by
  intro items a rest h
  obtain ⟨⟨b, left⟩, hnext, hrest⟩ := Except.bind_eq_ok.1 h
  refine hk b ?_ left a rest hrest
  rcases Items.next_eq_ok.1 hnext with ⟨-, hb, -⟩ | ⟨v, -, hb⟩
  · exact habsent b hb
  · exact hread v b hb

theorem error_yields {p : α → Prop} {f : Fault} : ∀ a, Except.error f = .ok a → p a := nofun

theorem none_yields {p : α → Prop} :
    ∀ o, (.ok none : Except Fault (Option α)) = .ok o → ∀ a ∈ o, p a := by
  rintro o ⟨⟩
  exact nofun

theorem nil_yields {p : α → Prop} :
    ∀ as, (.ok [] : Except Fault (List α)) = .ok as → ∀ a ∈ as, p a := by
  rintro as ⟨⟩
  exact nofun

theorem required_eq_ok {o : Option α} {a : α} : required o = .ok a ↔ o = some a := by
  cases o <;> simp [required]

theorem Yields.toRecord {p : α → Prop} {Q : σ → Prop} {step : σ → Text → Tree → Except Fault σ}
    {start : σ} {build : σ → Except Fault α} {inOrder : Items → Except Fault (α × Items)}
    (hstart : Q start) (hstep : ∀ s key v s', Q s → step s key v = .ok s' → Q s')
    (hbuild : ∀ s a, Q s → build s = .ok a → p a) (horder : YieldsInOrder p inOrder) :
    Yields p (Tree.toRecord step start build inOrder) := by
  intro v a h
  cases v with
  | object members =>
      obtain ⟨s, hfold, ha⟩ := Except.bind_eq_ok.1 h
      exact hbuild s a (Members.fold_keeps hstep hstart hfold) ha
  | array items =>
      obtain ⟨⟨b, rest⟩, hb, hfinish⟩ := Except.bind_eq_ok.1 h
      obtain ⟨-, -, rfl⟩ := Except.map_eq_ok.1 hfinish
      exact horder items b rest hb
  | _ => cases h

end NetBoot.Json
