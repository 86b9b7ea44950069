import NetBoot.Json.Decode
import NetBoot.Proofs.Success

namespace NetBoot.Json

variable {α β σ : Type}

theorem depth_of_generic_array {depth : Nat} {items : Items} {v : Tree}
    (h : (Tree.array items).generic depth = .ok v) :
    ∃ d items', items.generic d = .ok items' ∧ v = .array items' := by
  cases depth with
  | zero => simp [Tree.generic] at h
  | succ d =>
      simp only [Tree.generic, Except.map_eq_ok] at h
      obtain ⟨items', hitems, rfl⟩ := h
      exact ⟨d, items', hitems, rfl⟩

theorem depth_of_generic_object {depth : Nat} {members : Members} {v : Tree}
    (h : (Tree.object members).generic depth = .ok v) :
    ∃ d members', members.generic d = .ok members' ∧ v = .object members' := by
  cases depth with
  | zero => simp [Tree.generic] at h
  | succ d =>
      simp only [Tree.generic, Except.map_eq_ok] at h
      obtain ⟨members', hmembers, rfl⟩ := h
      exact ⟨d, members', hmembers, rfl⟩

theorem Items.generic_item {d : Nat} {v : Tree} {rest items' : Items}
    (h : (Items.item v rest).generic d = .ok items') :
    ∃ v' rest', v.generic d = .ok v' ∧ rest.generic d = .ok rest' ∧ items' = .item v' rest' := by
  simp only [Items.generic] at h
  cases hv : v.generic d with
  | error f => simp [hv] at h
  | ok v' =>
      simp only [hv, Except.map_eq_ok] at h
      obtain ⟨rest', hrest, rfl⟩ := h
      exact ⟨v', rest', rfl, hrest, rfl⟩

theorem Members.generic_member {d : Nat} {key : Option Text} {v : Tree} {rest members' : Members}
    (h : (Members.member key v rest).generic d = .ok members') :
    ∃ k v' rest', key = some k ∧ v.generic d = .ok v' ∧ rest.generic d = .ok rest' ∧
      members' = if some k ∈ rest'.keys then rest' else .member (some k) v' rest' := by
  cases key with
  | none => simp [Members.generic] at h
  | some k =>
      simp only [Members.generic] at h
      cases hv : v.generic d with
      | error f => simp [hv] at h
      | ok v' =>
          simp only [hv, Except.map_eq_ok] at h
          obtain ⟨rest', hrest, rfl⟩ := h
          exact ⟨k, v', rest', rfl, rfl, hrest, rfl⟩

theorem Members.mem_keys_generic {d : Nat} {members members' : Members} {key : Text}
    (h : members.generic d = .ok members') :
    some key ∈ members'.keys ↔ some key ∈ members.keys := by
  match members with
  | .close =>
      simp only [Members.generic, Except.ok.injEq] at h
      rw [← h]
  | .fault .. => simp [Members.generic] at h
  | .member k v rest =>
      obtain ⟨k, v', rest', rfl, -, hrest, rfl⟩ := generic_member h
      have ih : some key ∈ rest'.keys ↔ some key ∈ rest.keys := mem_keys_generic hrest
      split
      · next hk =>
          simp only [keys, List.mem_cons, ← ih]
          exact ⟨.inr, fun h => h.elim (fun h => h ▸ hk) id⟩
      · simp only [keys, List.mem_cons, ih]

mutual

theorem Tree.skipFault_generic {depth : Nat} {v v' : Tree} (h : v.generic depth = .ok v') :
    v'.skipFault = none := by
  match v with
  | .fault .. => simp [Tree.generic] at h
  | .null | .bool _ | .natural _ | .text _ =>
      simp only [Tree.generic, Except.ok.injEq] at h
      rw [← h, Tree.skipFault]
  | .number huge =>
      cases huge <;> simp [Tree.generic] at h
      rw [← h, Tree.skipFault]
  | .garbled => simp [Tree.generic] at h
  | .array items =>
      obtain ⟨d, items', hitems, rfl⟩ := depth_of_generic_array h
      exact Items.skipFault_generic hitems
  | .object members =>
      obtain ⟨d, members', hmembers, rfl⟩ := depth_of_generic_object h
      exact Members.skipFault_generic hmembers

theorem Items.skipFault_generic {d : Nat} {items items' : Items}
    (h : items.generic d = .ok items') : items'.skipFault = none := by
  match items with
  | .close =>
      simp only [Items.generic, Except.ok.injEq] at h
      rw [← h, Items.skipFault]
  | .fault _ => simp [Items.generic] at h
  | .item v rest =>
      obtain ⟨v', rest', hv, hrest, rfl⟩ := Items.generic_item h
      rw [Items.skipFault, Tree.skipFault_generic hv, Items.skipFault_generic hrest]
      rfl

theorem Members.skipFault_generic {d : Nat} {members members' : Members}
    (h : members.generic d = .ok members') : members'.skipFault = none := by
  match members with
  | .close =>
      simp only [Members.generic, Except.ok.injEq] at h
      rw [← h, Members.skipFault]
  | .fault .. => simp [Members.generic] at h
  | .member key v rest =>
      obtain ⟨k, v', rest', rfl, hv, hrest, rfl⟩ := Members.generic_member h
      split
      · exact Members.skipFault_generic hrest
      · rw [Members.skipFault, Tree.skipFault_generic hv, Members.skipFault_generic hrest]
        rfl

end

theorem Document.read_eq_ok {read : Tree → Except Fault α} {d : Document} {a : α} :
    d.read read = .ok a ↔ read d.tree = .ok a ∧ d.trailing = false := by
  unfold Document.read
  cases read d.tree with
  | error f => simp
  | ok b => cases d.trailing <;> simp

def Tree.keys : Tree → List (Option Text)
  | .object members => members.keys
  | _ => []

def Stable (read : Tree → Except Fault α) : Prop :=
  ∀ depth v v' a, v.generic depth = .ok v' → read v = .ok a → read v' = .ok a

theorem Stable.map {read : Tree → Except Fault α} (h : Stable read) (f : α → β) :
    Stable fun v => (read v).map f := by
  intro depth v v' b hv hb
  obtain ⟨a, ha, rfl⟩ := Except.map_eq_ok.1 hb
  exact Except.map_eq_ok.2 ⟨a, h depth v v' a hv ha, rfl⟩

theorem stable_toText : Stable Tree.toText := by
  intro depth v v' t hv ht
  cases v with
  | text _ =>
      simp only [Tree.generic, Except.ok.injEq] at hv
      rw [← hv]
      exact ht
  | _ => simp [Tree.toText] at ht

theorem stable_toNatural (bound : Nat) : Stable (Tree.toNatural bound) := by
  intro depth v v' n hv hn
  cases v with
  | natural _ =>
      simp only [Tree.generic, Except.ok.injEq] at hv
      rw [← hv]
      exact hn
  | _ => simp [Tree.toNatural] at hn

theorem eq_null_of_generic {depth : Nat} {v : Tree} (h : v.generic depth = .ok .null) :
    v = .null := by
  cases v with
  | null => rfl
  | array items =>
      obtain ⟨_, _, _, h⟩ := depth_of_generic_array h
      exact nomatch h
  | object members =>
      obtain ⟨_, _, _, h⟩ := depth_of_generic_object h
      exact nomatch h
  | number huge => cases huge <;> simp [Tree.generic] at h
  | _ => simp [Tree.generic] at h

theorem toOption_of_ne_null {read : Tree → Except Fault α} {v : Tree} (h : v ≠ .null) :
    v.toOption read = (read v).map some := by
  unfold Tree.toOption
  split
  · exact absurd rfl h
  · rfl

theorem Stable.toOption {read : Tree → Except Fault α} (h : Stable read) :
    Stable (Tree.toOption read) := by
  intro depth v v' a hv ha
  by_cases hnull : v = .null
  · subst hnull
    simp only [Tree.generic, Except.ok.injEq] at hv
    rw [← hv]
    exact ha
  · have hnull' : v' ≠ .null := fun heq => hnull (eq_null_of_generic (heq ▸ hv))
    rw [toOption_of_ne_null hnull] at ha
    rw [toOption_of_ne_null hnull']
    exact h.map some depth v v' a hv ha

theorem Items.toList_item {read : Tree → Except Fault α} {v : Tree} {rest : Items} {l : List α} :
    (Items.item v rest).toList read = .ok l ↔
      ∃ a as, read v = .ok a ∧ rest.toList read = .ok as ∧ a :: as = l := by
  simp only [Items.toList]
  cases read v with
  | error f => simp
  | ok a => simp [Except.map_eq_ok]

theorem Items.toList_generic {read : Tree → Except Fault α} (h : Stable read) {d : Nat}
    {items items' : Items} {l : List α} (hitems : items.generic d = .ok items')
    (hl : items.toList read = .ok l) : items'.toList read = .ok l := by
  match items with
  | .close =>
      simp only [Items.generic, Except.ok.injEq] at hitems
      rw [← hitems]
      exact hl
  | .fault _ => simp [Items.generic] at hitems
  | .item v rest =>
      obtain ⟨v', rest', hv, hrest, rfl⟩ := generic_item hitems
      obtain ⟨a, as, ha, has, rfl⟩ := toList_item.1 hl
      exact toList_item.2 ⟨a, as, h d v v' a hv ha, toList_generic h hrest has, rfl⟩

theorem Stable.toList {read : Tree → Except Fault α} (h : Stable read) :
    Stable (Tree.toList read) := by
  intro depth v v' l hv hl
  cases v with
  | array items =>
      obtain ⟨d, items', hitems, rfl⟩ := depth_of_generic_array hv
      exact Items.toList_generic h hitems hl
  | _ => simp [Tree.toList] at hl

theorem once_eq_ok {read : Tree → Except Fault α} {slot x : Option α} {v : Tree} :
    once slot read v = .ok x ↔ slot = none ∧ ∃ a, read v = .ok a ∧ x = some a := by
  cases slot with
  | some _ => simp [once]
  | none =>
      simp only [once, Except.map_eq_ok, true_and]
      exact ⟨fun ⟨a, ha, h⟩ => ⟨a, ha, h.symm⟩, fun ⟨a, ha, h⟩ => ⟨a, ha, h.symm⟩⟩

theorem Stable.once {read : Tree → Except Fault α} (h : Stable read) (slot : Option α) :
    Stable (once slot read) := by
  intro depth v v' x hv hx
  obtain ⟨hslot, a, ha, rfl⟩ := once_eq_ok.1 hx
  exact once_eq_ok.2 ⟨hslot, a, h depth v v' a hv ha, rfl⟩

theorem passOver_eq_ok {s s' : σ} {v : Tree} :
    passOver s v = .ok s' ↔ v.skipFault = none ∧ s' = s := by
  unfold passOver
  cases v.skipFault with
  | none => simp [eq_comm]
  | some f => simp

theorem eq_of_passOver {s s' : σ} {v : Tree} (h : passOver s v = .ok s') : s' = s :=
  (passOver_eq_ok.1 h).2

theorem stable_passOver (s : σ) : Stable (passOver s) := by
  intro depth v v' s' hv hs
  exact passOver_eq_ok.2 ⟨Tree.skipFault_generic hv, eq_of_passOver hs⟩

structure StableStep (step : σ → Text → Tree → Except Fault σ) : Prop where
  stable : ∀ s key, Stable (step s key)
  superseded : ∀ s key v s₁ rest s', step s key v = .ok s₁ → some key ∈ Members.keys rest →
    rest.fold step s₁ = .ok s' → rest.fold step s = .ok s'

theorem Members.fold_member {step : σ → Text → Tree → Except Fault σ} {s s' : σ} {key : Text}
    {v : Tree} {rest : Members} :
    (Members.member (some key) v rest).fold step s = .ok s' ↔
      ∃ s₁, step s key v = .ok s₁ ∧ rest.fold step s₁ = .ok s' := by
  simp only [Members.fold]
  cases step s key v with
  | error f => simp
  | ok s₁ => simp

theorem Members.fold_untouched {step : σ → Text → Tree → Except Fault σ} {part : σ → β}
    {key : Text} (hstep : ∀ s k v s', step s k v = .ok s' → k ≠ key → part s' = part s)
    {members : Members} {s s' : σ} (hkey : some key ∉ members.keys)
    (hs : members.fold step s = .ok s') : part s' = part s := by
  match members with
  | .close =>
      simp only [Members.fold, Except.ok.injEq] at hs
      rw [hs]
  | .fault .. => simp [Members.fold] at hs
  | .member none _ _ => simp [Members.fold] at hs
  | .member (some k) v rest =>
      obtain ⟨s₁, hfirst, hfold⟩ := Members.fold_member.1 hs
      simp only [Members.keys, List.mem_cons, Option.some.injEq, not_or] at hkey
      rw [Members.fold_untouched hstep hkey.2 hfold, hstep s k v s₁ hfirst (Ne.symm hkey.1)]

theorem StableStep.fold_generic {step : σ → Text → Tree → Except Fault σ} (h : StableStep step)
    {d : Nat} {members members' : Members} {s s' : σ} (hmembers : members.generic d = .ok members')
    (hs : members.fold step s = .ok s') : members'.fold step s = .ok s' := by
  match members with
  | .close =>
      simp only [Members.generic, Except.ok.injEq] at hmembers
      rw [← hmembers]
      exact hs
  | .fault .. => simp [Members.generic] at hmembers
  | .member _ v rest =>
      obtain ⟨key, v', rest', rfl, hv, hrest, rfl⟩ := Members.generic_member hmembers
      obtain ⟨s₁, hstep, hfold⟩ := Members.fold_member.1 hs
      split
      · next hkey =>
          have hkey : some key ∈ rest.keys := (Members.mem_keys_generic hrest).1 hkey
          exact h.fold_generic hrest (h.superseded s key v s₁ rest s' hstep hkey hfold)
      · exact Members.fold_member.2
          ⟨s₁, h.stable s key d v v' s₁ hv hstep, h.fold_generic hrest hfold⟩

def Marks (filled : σ → Text → Bool) (step : σ → Text → Tree → Except Fault σ) : Prop :=
  ∀ s key v s', step s key v = .ok s' →
    filled s key = false ∧ (s' = s ∨ filled s' key) ∧ ∀ k, filled s k → filled s' k

theorem Marks.not_mem_keys {filled : σ → Text → Bool} {step : σ → Text → Tree → Except Fault σ}
    (h : Marks filled step) {members : Members} {s s' : σ} {key : Text} (hkey : filled s key)
    (hs : members.fold step s = .ok s') : some key ∉ members.keys := by
  match members with
  | .close => simp [Members.keys]
  | .fault .. => simp [Members.keys]
  | .member none _ _ => simp [Members.fold] at hs
  | .member (some k) v rest =>
      obtain ⟨s₁, hstep, hfold⟩ := Members.fold_member.1 hs
      obtain ⟨hfresh, -, hkeep⟩ := h s k v s₁ hstep
      have hne : key ≠ k := by
        rintro rfl
        rw [hkey] at hfresh
        exact nomatch hfresh
      have hrest : some key ∉ rest.keys := h.not_mem_keys (hkeep key hkey) hfold
      simp [Members.keys, hne, hrest]

theorem Marks.stableStep {filled : σ → Text → Bool} {step : σ → Text → Tree → Except Fault σ}
    (h : Marks filled step) (hstable : ∀ s key, Stable (step s key)) : StableStep step where
  stable := hstable
  superseded := by
    intro s key v s₁ rest s' hstep hkey hfold
    obtain ⟨-, rfl | hfilled, -⟩ := h s key v s₁ hstep
    · exact hfold
    · exact absurd hkey (h.not_mem_keys hfilled hfold)

structure Slot (σ : Type) where
  key : Text
  isFilled : σ → Bool
  read : σ → Tree → Except Fault σ

namespace Slot

variable {slots : List (Slot σ)} {slot : Slot σ} {s s' : σ} {key : Text} {v : Tree}

def of (key : Text) (get : σ → Option α) (set : σ → Option α → σ)
    (read : Tree → Except Fault α) : Slot σ where
  key := key
  isFilled s := (get s).isSome
  read s v := (once (get s) read v).map (set s)

def readAll : List (Slot σ) → σ → Text → Tree → Except Fault σ
  | [], s, _, v => passOver s v
  | slot :: slots, s, key, v =>
      if key = slot.key then slot.read s v else readAll slots s key v

def filled : List (Slot σ) → σ → Text → Bool
  | [], _, _ => false
  | slot :: slots, s, key => if key = slot.key then slot.isFilled s else filled slots s key

/-- A slot takes one value, and leaves those of other keys as they are. -/
structure Lawful (slots : List (Slot σ)) (slot : Slot σ) : Prop where
  stable : ∀ s, Stable (slot.read s)
  fills : ∀ s v s', slot.read s v = .ok s' → slot.isFilled s = false ∧ slot.isFilled s' = true
  apart : ∀ s v s', slot.read s v = .ok s' →
    ∀ other ∈ slots, other.key ≠ slot.key → other.isFilled s' = other.isFilled s

theorem Lawful.of {get : σ → Option α} {set : σ → Option α → σ} {read : Tree → Except Fault α}
    (hget : ∀ s x, get (set s x) = x) (hread : Stable read)
    (hset : ∀ other ∈ slots, other.key ≠ key → ∀ s x, other.isFilled (set s x) = other.isFilled s) :
    (Slot.of key get set read).Lawful slots where
  stable s := (hread.once (get s)).map _
  fills s v s' h := by
    obtain ⟨x, hx, rfl⟩ := Except.map_eq_ok.1 h
    obtain ⟨hnone, a, -, rfl⟩ := once_eq_ok.1 hx
    exact ⟨congrArg Option.isSome hnone, congrArg Option.isSome (hget s (some a))⟩
  apart s v s' h other hmem hne := by
    obtain ⟨x, -, rfl⟩ := Except.map_eq_ok.1 h
    exact hset other hmem hne s x

theorem readAll_cases (slots : List (Slot σ)) (key : Text) :
    (∃ slot ∈ slots, slot.key = key ∧ (∀ s, filled slots s key = slot.isFilled s) ∧
        ∀ s, readAll slots s key = slot.read s) ∨
      (∀ s, filled slots s key = false) ∧ ∀ s, readAll slots s key = passOver s := by
  induction slots with
  | nil => exact .inr ⟨fun _ => rfl, fun _ => rfl⟩
  | cons slot slots ih =>
      by_cases hkey : key = slot.key
      · exact .inl ⟨slot, .head _, hkey.symm, fun _ => if_pos hkey, fun _ => funext fun _ =>
          if_pos hkey⟩
      · have hfilled (s : σ) : filled (slot :: slots) s key = filled slots s key := if_neg hkey
        have hread (s : σ) : readAll (slot :: slots) s key = readAll slots s key :=
          funext fun _ => if_neg hkey
        simp only [hfilled, hread]
        exact ih.imp_left fun ⟨other, hmem, h⟩ => ⟨other, .tail _ hmem, h⟩

theorem marks_readAll (h : ∀ slot ∈ slots, slot.Lawful slots) :
    Marks (filled slots) (readAll slots) := by
  intro s key v s' hstep
  rcases readAll_cases slots key with ⟨slot, hmem, hkey, hfilled, hread⟩ | ⟨hfilled, hread⟩
  · rw [hread] at hstep
    obtain ⟨hfree, htaken⟩ := (h slot hmem).fills s v s' hstep
    refine ⟨(hfilled s).trans hfree, .inr ((hfilled s').trans htaken), fun k hk => ?_⟩
    rcases readAll_cases slots k with ⟨other, hother, rfl, hk', -⟩ | ⟨hnone, -⟩
    · by_cases hne : other.key = slot.key
      · rw [hne, hkey, hfilled]
        exact htaken
      · rw [hk', (h slot hmem).apart s v s' hstep other hother hne, ← hk']
        exact hk
    · rw [hnone] at hk
      exact nomatch hk
  · rw [hread] at hstep
    rw [eq_of_passOver hstep]
    exact ⟨hfilled s, .inl rfl, fun _ hk => hk⟩

theorem stableStep_readAll (h : ∀ slot ∈ slots, slot.Lawful slots) : StableStep (readAll slots) :=
  (marks_readAll h).stableStep fun s key => by
    rcases readAll_cases slots key with ⟨slot, hmem, -, -, hread⟩ | ⟨-, hread⟩
    · exact hread s ▸ (h slot hmem).stable s
    · exact hread s ▸ stable_passOver s

end Slot

theorem Items.next_eq_ok {read : Tree → Except Fault α} {absent : Except Fault α}
    {items rest : Items} {a : α} : items.next read absent = .ok (a, rest) ↔
      (items = .close ∧ absent = .ok a ∧ rest = .close) ∨
        ∃ v, items = .item v rest ∧ read v = .ok a := by
  cases items with
  | close =>
      refine Except.map_eq_ok.trans ⟨fun h => ?_, fun h => ?_⟩
      · obtain ⟨b, hb, heq⟩ := h
        cases heq
        exact .inl ⟨rfl, hb, rfl⟩
      · obtain ⟨-, ha, rfl⟩ | ⟨v, heq, -⟩ := h
        · exact ⟨a, ha, rfl⟩
        · cases heq
  | fault f => simp [Items.next]
  | item v tail =>
      refine Except.map_eq_ok.trans ⟨fun h => ?_, fun h => ?_⟩
      · obtain ⟨b, hb, heq⟩ := h
        cases heq
        exact .inr ⟨v, rfl, hb⟩
      · obtain ⟨heq, -⟩ | ⟨v, heq, ha⟩ := h
        · cases heq
        · cases heq
          exact ⟨a, ha, rfl⟩

def StableOrder (inOrder : Items → Except Fault (α × Items)) : Prop :=
  ∀ d items items' a rest, items.generic d = .ok items' → inOrder items = .ok (a, rest) →
    ∃ rest', rest.generic d = .ok rest' ∧ inOrder items' = .ok (a, rest')

theorem StableOrder.pure (a : α) : StableOrder fun items => .ok (a, items) := by
  intro d items items' b rest hitems h
  cases h
  exact ⟨items', hitems, rfl⟩

theorem StableOrder.next {read : Tree → Except Fault β} (hread : Stable read)
    (absent : Except Fault β) {k : β × Items → Except Fault (α × Items)}
    (hk : ∀ b, StableOrder fun items => k (b, items)) :
    StableOrder fun items => items.next read absent >>= k := by
  intro d items items' a rest hitems h
  obtain ⟨⟨b, left⟩, hnext, hk'⟩ := Except.bind_eq_ok.1 h
  have hleft : ∃ left', left.generic d = .ok left' ∧ items'.next read absent = .ok (b, left') := by
    rcases Items.next_eq_ok.1 hnext with ⟨rfl, habsent, rfl⟩ | ⟨v, rfl, hb⟩
    · simp only [Items.generic, Except.ok.injEq] at hitems
      rw [← hitems]
      exact ⟨.close, rfl, hnext⟩
    · obtain ⟨v', tail', hv, htail, rfl⟩ := Items.generic_item hitems
      exact ⟨tail', htail, Items.next_eq_ok.2 (.inr ⟨v', rfl, hread d v v' b hv hb⟩)⟩
  obtain ⟨left', hgeneric, hnext'⟩ := hleft
  obtain ⟨rest', hrest, hfinal⟩ := hk b d left left' a rest hgeneric hk'
  exact ⟨rest', hrest, Except.bind_eq_ok.2 ⟨(b, left'), hnext', hfinal⟩⟩

theorem StableStep.toRecord {step : σ → Text → Tree → Except Fault σ} (hstep : StableStep step)
    (start : σ) (build : σ → Except Fault α) {inOrder : Items → Except Fault (α × Items)}
    (horder : StableOrder inOrder) : Stable (Tree.toRecord step start build inOrder) := by
  intro depth v v' a hv ha
  cases v with
  | object members =>
      obtain ⟨d, members', hmembers, rfl⟩ := depth_of_generic_object hv
      obtain ⟨s, hs, hbuild⟩ := Except.bind_eq_ok.1 ha
      exact Except.bind_eq_ok.2 ⟨s, hstep.fold_generic hmembers hs, hbuild⟩
  | array items =>
      obtain ⟨d, items', hitems, rfl⟩ := depth_of_generic_array hv
      obtain ⟨⟨b, rest⟩, hb, hfinish⟩ := Except.bind_eq_ok.1 ha
      obtain ⟨rest', hrest, hb'⟩ := horder d items items' b rest hitems hb
      have hclose : rest = .close := by
        cases rest with
        | close => rfl
        | _ => simp [Items.finish, Except.map] at hfinish
      subst hclose
      simp only [Items.generic, Except.ok.injEq] at hrest
      exact Except.bind_eq_ok.2 ⟨(b, .close), hrest ▸ hb', hfinish⟩
  | _ => simp [Tree.toRecord] at ha

end NetBoot.Json
