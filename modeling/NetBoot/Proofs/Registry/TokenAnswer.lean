import Mathlib.Tactic.Tauto
import NetBoot.Proofs.Json.Generic
import NetBoot.Registry.Token

namespace NetBoot

open Json

namespace TokenResponse

variable {key t : Text} {v : Tree} {slot slot' : Option (Option Text)} {values : List Tree}
  {given : Option Text} {fields fields' : Fields} {response : TokenResponse} {body : Bytes}

inductive Tells : List Tree → Option Text → Prop
  | absent : Tells [] none
  | null : Tells [.null] none
  | text (t : Text) : Tells [.text t] (some t)

def valuesOf (key : Text) (members : List (Text × Tree)) : List Tree :=
  (members.filter fun m => m.1 = key).map Prod.snd

inductive Answers : Tree → TokenResponse → Prop
  | object (members : List (Text × Tree)) (response : TokenResponse) :
      Tells (valuesOf tokenKey members) response.token →
      Tells (valuesOf accessTokenKey members) response.accessToken →
      (∀ m ∈ members, m.1 ≠ tokenKey → m.1 ≠ accessTokenKey → m.2.skipFault = none) →
      Answers (.object (.ofList members)) response
  | array (values : List Tree) (response : TokenResponse) :
      Tells (values.take 1) response.token → Tells (values.drop 1) response.accessToken →
      Answers (.array (.ofList values)) response

theorem toOption_toText_eq_ok :
    v.toOption Tree.toText = .ok given ↔
      v = .null ∧ given = none ∨ ∃ t, v = .text t ∧ given = some t := by
  cases v with
  | null => simp [Tree.toOption, eq_comm]
  | text t => simp [Tree.toOption, Tree.toText, Except.map, eq_comm]
  | _ => simp [Tree.toOption, Tree.toText, Except.map]

theorem tells_nil : Tells [] given ↔ given = none := by
  constructor
  · intro h
    cases h
    rfl
  · rintro rfl
    exact .absent

theorem tells_cons : Tells (v :: values) given ↔
    values = [] ∧ v.toOption Tree.toText = .ok given := by
  rw [toOption_toText_eq_ok]
  constructor
  · intro h
    cases h with
    | null => exact ⟨rfl, .inl ⟨rfl, rfl⟩⟩
    | text t => exact ⟨rfl, .inr ⟨t, rfl, rfl⟩⟩
  · rintro ⟨rfl, ⟨rfl, rfl⟩ | ⟨t, rfl, rfl⟩⟩
    · exact .null
    · exact .text t

section Object

def Fills (slot : Option (Option Text)) (values : List Tree) (slot' : Option (Option Text)) :
    Prop :=
  values = [] ∧ slot' = slot ∨ slot = none ∧ ∃ given, Tells values given ∧ values ≠ [] ∧
    slot' = some given

theorem fills_nil : Fills slot [] slot' ↔ slot' = slot := by
  simp [Fills]

theorem fills_cons : Fills slot (v :: values) slot' ↔
    ∃ x, once slot (Tree.toOption Tree.toText) v = .ok x ∧ Fills x values slot' := by
  simp only [Fills, once_eq_ok, tells_cons]
  constructor
  · rintro (⟨h, -⟩ | ⟨rfl, given, ⟨rfl, hgiven⟩, -, rfl⟩)
    · exact nomatch h
    · exact ⟨some given, ⟨rfl, given, hgiven, rfl⟩, .inl ⟨rfl, rfl⟩⟩
  · rintro ⟨x, ⟨rfl, given, hgiven, rfl⟩, ⟨rfl, rfl⟩ | ⟨h, -⟩⟩
    · exact .inr ⟨rfl, given, ⟨rfl, hgiven⟩, List.cons_ne_nil _ _, rfl⟩
    · exact nomatch h

theorem tells_iff_fills : Tells values given ↔ ∃ slot, Fills none values slot ∧
    slot.getD none = given := by
  cases values with
  | nil => simp [tells_nil, fills_nil, eq_comm]
  | cons v values =>
      constructor
      · exact fun h => ⟨some given, .inr ⟨rfl, given, h, List.cons_ne_nil _ _, rfl⟩, rfl⟩
      · rintro ⟨slot, ⟨h, -⟩ | ⟨-, given, h, -, rfl⟩, rfl⟩
        · exact nomatch h
        · exact h

theorem valuesOf_cons (key k : Text) (v : Tree) (members : List (Text × Tree)) :
    valuesOf key ((k, v) :: members) =
      if k = key then v :: valuesOf key members else valuesOf key members := by
  by_cases hk : k = key <;> simp [valuesOf, hk]

theorem exists_read_iff {members : List (Text × Tree)} :
    (∃ first, fields.read key v = .ok first ∧
      Fills first.token (valuesOf tokenKey members) fields'.token ∧
      Fills first.accessToken (valuesOf accessTokenKey members) fields'.accessToken) ↔
    Fills fields.token (valuesOf tokenKey ((key, v) :: members)) fields'.token ∧
      Fills fields.accessToken (valuesOf accessTokenKey ((key, v) :: members)) fields'.accessToken ∧
        (key ≠ tokenKey → key ≠ accessTokenKey → v.skipFault = none) := by
  have hkeys : tokenKey ≠ accessTokenKey := by decide
  rw [valuesOf_cons, valuesOf_cons]
  unfold Fields.read
  by_cases htoken : key = tokenKey
  · subst htoken
    simp only [if_true, if_neg hkeys, fills_cons, Except.map_eq_ok]
    constructor
    · rintro ⟨_, ⟨x, hx, rfl⟩, hfirst, hsecond⟩
      exact ⟨⟨x, hx, hfirst⟩, hsecond, fun h => absurd rfl h⟩
    · rintro ⟨⟨x, hx, hfirst⟩, hsecond, -⟩
      exact ⟨_, ⟨x, hx, rfl⟩, hfirst, hsecond⟩
  · by_cases haccess : key = accessTokenKey
    · subst haccess
      simp only [if_true, if_neg htoken, fills_cons, Except.map_eq_ok]
      constructor
      · rintro ⟨_, ⟨x, hx, rfl⟩, hfirst, hsecond⟩
        exact ⟨hfirst, ⟨x, hx, hsecond⟩, fun _ h => absurd rfl h⟩
      · rintro ⟨hfirst, ⟨x, hx, hsecond⟩, -⟩
        exact ⟨_, ⟨x, hx, rfl⟩, hfirst, hsecond⟩
    · simp only [if_neg htoken, if_neg haccess, passOver_eq_ok]
      constructor
      · rintro ⟨_, ⟨hskip, rfl⟩, hfirst, hsecond⟩
        exact ⟨hfirst, hsecond, fun _ _ => hskip⟩
      · rintro ⟨hfirst, hsecond, hskip⟩
        exact ⟨fields, ⟨hskip htoken haccess, rfl⟩, hfirst, hsecond⟩

theorem fold_read_eq_ok {fields fields' : Fields} {members : Members} :
    members.fold Fields.read fields = .ok fields' ↔
      ∃ ms, members = .ofList ms ∧ Fills fields.token (valuesOf tokenKey ms) fields'.token ∧
        Fills fields.accessToken (valuesOf accessTokenKey ms) fields'.accessToken ∧
        ∀ m ∈ ms, m.1 ≠ tokenKey → m.1 ≠ accessTokenKey → m.2.skipFault = none := by
  match members with
  | .close =>
      constructor
      · intro h
        cases h
        exact ⟨[], rfl, fills_nil.2 rfl, fills_nil.2 rfl, nofun⟩
      · rintro ⟨ms, hms, hfirst, hsecond, -⟩
        cases ms with
        | cons m ms => exact nomatch hms
        | nil =>
            obtain ⟨token, accessToken⟩ := fields'
            obtain rfl : token = _ := fills_nil.1 hfirst
            obtain rfl : accessToken = _ := fills_nil.1 hsecond
            rfl
  | .fault .. =>
      refine ⟨nofun, fun ⟨ms, hms, _⟩ => ?_⟩
      cases ms <;> exact nomatch hms
  | .member none _ _ =>
      refine ⟨nofun, fun ⟨ms, hms, _⟩ => ?_⟩
      cases ms <;> exact nomatch hms
  | .member (some key) v rest =>
      rw [Members.fold_member]
      constructor
      · rintro ⟨first, hread, hfold⟩
        obtain ⟨ms, rfl, hfirst, hsecond, hothers⟩ := fold_read_eq_ok.1 hfold
        obtain ⟨hfirst, hsecond, hskip⟩ := exists_read_iff.1 ⟨first, hread, hfirst, hsecond⟩
        exact ⟨(key, v) :: ms, rfl, hfirst, hsecond, List.forall_mem_cons.2 ⟨hskip, hothers⟩⟩
      · rintro ⟨ms, hms, hfirst, hsecond, hothers⟩
        cases ms with
        | nil => exact nomatch hms
        | cons m ms =>
            cases hms
            obtain ⟨hskip, hothers⟩ := List.forall_mem_cons.1 hothers
            obtain ⟨first, hread, hfirst, hsecond⟩ := exists_read_iff.2 ⟨hfirst, hsecond, hskip⟩
            exact ⟨first, hread, fold_read_eq_ok.2 ⟨ms, rfl, hfirst, hsecond, hothers⟩⟩

theorem read_object_eq_ok {members : Members} :
    read (.object members) = .ok response ↔ Answers (.object members) response := by
  refine Except.bind_eq_ok.trans ?_
  constructor
  · rintro ⟨fields, hfold, hbuild⟩
    cases hbuild
    obtain ⟨ms, rfl, hfirst, hsecond, hothers⟩ := fold_read_eq_ok.1 hfold
    exact .object ms _ (tells_iff_fills.2 ⟨_, hfirst, rfl⟩) (tells_iff_fills.2 ⟨_, hsecond, rfl⟩)
      hothers
  · intro h
    cases h with
    | object ms _ hfirst hsecond hothers =>
        obtain ⟨token, hfirst, htoken⟩ := tells_iff_fills.1 hfirst
        obtain ⟨accessToken, hsecond, haccess⟩ := tells_iff_fills.1 hsecond
        refine ⟨⟨token, accessToken⟩, fold_read_eq_ok.2 ⟨ms, rfl, hfirst, hsecond, hothers⟩, ?_⟩
        rw [Fields.build, htoken, haccess]

end Object

section Array

theorem tells_singleton : Tells [v] given ↔ v.toOption Tree.toText = .ok given := by
  rw [tells_cons, and_iff_right rfl]

theorem finish_eq_ok {rest : Items} {u : Unit} : rest.finish = .ok u ↔ rest = .close := by
  cases rest <;> simp [Items.finish]

theorem inOrder_eq_ok {items rest : Items} : inOrder items = .ok (response, rest) ↔
    ∃ first, items.next (Tree.toOption Tree.toText) (.ok none) = .ok (response.token, first) ∧
      first.next (Tree.toOption Tree.toText) (.ok none) = .ok (response.accessToken, rest) := by
  refine Except.bind_eq_ok.trans ⟨?_, ?_⟩
  · rintro ⟨⟨token, first⟩, hfirst, h⟩
    obtain ⟨⟨accessToken, rest⟩, hsecond, h⟩ := Except.bind_eq_ok.1 h
    cases h
    exact ⟨first, hfirst, hsecond⟩
  · rintro ⟨first, hfirst, hsecond⟩
    exact ⟨_, hfirst, Except.bind_eq_ok.2 ⟨_, hsecond, rfl⟩⟩

theorem read_array_eq_ok {items : Items} :
    read (.array items) = .ok response ↔ Answers (.array items) response := by
  have hread : read (.array items) = .ok response ↔ inOrder items = .ok (response, .close) := by
    refine Except.bind_eq_ok.trans ⟨?_, fun h => ⟨_, h, rfl⟩⟩
    rintro ⟨⟨found, rest⟩, horder, hend⟩
    obtain ⟨u, hfinish, rfl⟩ := Except.map_eq_ok.1 hend
    obtain rfl : rest = .close := finish_eq_ok.1 hfinish
    exact horder
  rw [hread, inOrder_eq_ok]
  constructor
  · rintro ⟨first, hfirst, hsecond⟩
    rcases Items.next_eq_ok.1 hfirst with ⟨rfl, htoken, rfl⟩ | ⟨v, rfl, htoken⟩
    · rcases Items.next_eq_ok.1 hsecond with ⟨-, haccess, -⟩ | ⟨w, h, -⟩
      · exact .array [] _ (tells_nil.2 (Except.ok.inj htoken).symm)
          (tells_nil.2 (Except.ok.inj haccess).symm)
      · exact nomatch h
    · rcases Items.next_eq_ok.1 hsecond with ⟨rfl, haccess, -⟩ | ⟨w, rfl, haccess⟩
      · exact .array [v] _ (tells_singleton.2 htoken) (tells_nil.2 (Except.ok.inj haccess).symm)
      · exact .array [v, w] _ (tells_singleton.2 htoken) (tells_singleton.2 haccess)
  · intro h
    cases h with
    | array values _ hfirst hsecond =>
        cases values with
        | nil => exact ⟨.close, by rw [tells_nil.1 hfirst]; rfl, by rw [tells_nil.1 hsecond]; rfl⟩
        | cons v rest =>
            refine ⟨.ofList rest, Items.next_eq_ok.2 (.inr ⟨v, rfl, tells_singleton.1 hfirst⟩), ?_⟩
            cases rest with
            | nil => rw [tells_nil.1 hsecond]; rfl
            | cons w rest =>
                obtain ⟨rfl, haccess⟩ := tells_cons.1 hsecond
                exact Items.next_eq_ok.2 (.inr ⟨w, rfl, haccess⟩)

end Array

theorem read_eq_ok : read v = .ok response ↔ Answers v response := by
  cases v with
  | object members => exact read_object_eq_ok
  | array items => exact read_array_eq_ok
  | _ => exact ⟨nofun, nofun⟩

theorem ofBytes_eq_ok : ofBytes body = .ok response ↔
    (parse body).trailing = false ∧ Answers (parse body).tree response :=
  Document.read_eq_ok.trans (and_comm.trans (and_congr_right fun _ => read_eq_ok))

theorem chosen_eq_some : response.chosen = some t ↔ t ≠ [] ∧ (response.token = some t ∨
    (response.token = none ∨ response.token = some []) ∧ response.accessToken = some t) := by
  obtain ⟨token, accessToken⟩ := response
  have hfilter (o : Option Text) : o.filter (· ≠ []) = some t ↔ t ≠ [] ∧ o = some t := by
    rw [Option.filter_eq_some_iff, and_comm, decide_eq_true_iff]
  have hempty (o : Option Text) : o.filter (· ≠ []) = none ↔ o = none ∨ o = some [] := by
    cases o with
    | none => simp
    | some t => simp [Option.filter_some]
  have horElse (o o' : Option Text) :
      (o <|> o') = some t ↔ o = some t ∨ o = none ∧ o' = some t := by
    cases o <;> simp
  rw [chosen, horElse, hfilter, hfilter, hempty]
  tauto

def Names (body : Bytes) (t : Text) : Prop :=
  ∃ response, (parse body).trailing = false ∧ Answers (parse body).tree response ∧ t ≠ [] ∧
    (response.token = some t ∨
      (response.token = none ∨ response.token = some []) ∧ response.accessToken = some t)

theorem names_iff : Names body t ↔ ∃ response, ofBytes body = .ok response ∧
    response.chosen = some t := by
  simp only [Names, ofBytes_eq_ok, chosen_eq_some, and_assoc]

end TokenResponse

end NetBoot
