import NetBoot.Proofs.Json.Generic

namespace NetBoot.Json

mutual

def Tree.repeatsKey : Tree → Bool
  | .array items => items.repeatsKey
  | .object members => members.repeatsKey
  | _ => false

def Items.repeatsKey : Items → Bool
  | .close => false
  | .fault _ => false
  | .item v rest => v.repeatsKey || rest.repeatsKey

def Members.repeatsKey : Members → Bool
  | .close => false
  | .fault .. => false
  | .member none v rest => v.repeatsKey || rest.repeatsKey
  | .member (some k) v rest => rest.keys.contains (some k) || v.repeatsKey || rest.repeatsKey

end

mutual

def Tree.latest : Tree → Tree
  | .array items => .array items.latest
  | .object members => .object members.latest
  | v => v

def Items.latest : Items → Items
  | .close => .close
  | .fault f => .fault f
  | .item v rest => .item v.latest rest.latest

def Members.latest : Members → Members
  | .close => .close
  | .fault read skip => .fault read skip
  | .member none v rest => .member none v.latest rest.latest
  | .member (some k) v rest =>
      if rest.keys.contains (some k) then rest.latest else .member (some k) v.latest rest.latest

end

mutual

theorem Tree.eq_latest_of_generic {depth : Nat} {v v' : Tree} (h : v.generic depth = .ok v') :
    v' = v.latest := by
  match v with
  | .fault .. => simp [Tree.generic] at h
  | .null | .bool _ | .natural _ | .text _ =>
      simp only [Tree.generic, Except.ok.injEq] at h
      rw [← h, Tree.latest]
      all_goals exact nofun
  | .number huge =>
      cases huge <;> simp [Tree.generic] at h
      rw [← h, Tree.latest]
      all_goals exact nofun
  | .garbled => simp [Tree.generic] at h
  | .array items =>
      obtain ⟨d, items', hitems, rfl⟩ := depth_of_generic_array h
      rw [Tree.latest, Items.eq_latest_of_generic hitems]
  | .object members =>
      obtain ⟨d, members', hmembers, rfl⟩ := depth_of_generic_object h
      rw [Tree.latest, Members.eq_latest_of_generic hmembers]

theorem Items.eq_latest_of_generic {d : Nat} {items items' : Items}
    (h : items.generic d = .ok items') : items' = items.latest := by
  match items with
  | .close =>
      simp only [Items.generic, Except.ok.injEq] at h
      rw [← h, Items.latest]
  | .fault _ => simp [Items.generic] at h
  | .item v rest =>
      obtain ⟨v', rest', hv, hrest, rfl⟩ := Items.generic_item h
      rw [Items.latest, Tree.eq_latest_of_generic hv, Items.eq_latest_of_generic hrest]

theorem Members.eq_latest_of_generic {d : Nat} {members members' : Members}
    (h : members.generic d = .ok members') : members' = members.latest := by
  match members with
  | .close =>
      simp only [Members.generic, Except.ok.injEq] at h
      rw [← h, Members.latest]
  | .fault .. => simp [Members.generic] at h
  | .member key v rest =>
      obtain ⟨k, v', rest', rfl, hv, hrest, rfl⟩ := Members.generic_member h
      rw [Members.latest, ← Tree.eq_latest_of_generic hv, ← Members.eq_latest_of_generic hrest]
      simp only [List.contains_iff_mem, Members.mem_keys_generic hrest]

end

mutual

theorem Tree.latest_eq_self {v : Tree} (h : v.repeatsKey = false) : v.latest = v := by
  match v with
  | .fault .. | .null | .bool _ | .natural _ | .number _ | .text _ | .garbled => rfl
  | .array items => rw [Tree.latest, Items.latest_eq_self h]
  | .object members => rw [Tree.latest, Members.latest_eq_self h]

theorem Items.latest_eq_self {items : Items} (h : items.repeatsKey = false) :
    items.latest = items := by
  match items with
  | .close | .fault _ => rfl
  | .item v rest =>
      simp only [Items.repeatsKey, Bool.or_eq_false_iff] at h
      rw [Items.latest, Tree.latest_eq_self h.1, Items.latest_eq_self h.2]

theorem Members.latest_eq_self {members : Members} (h : members.repeatsKey = false) :
    members.latest = members := by
  match members with
  | .close | .fault .. => rfl
  | .member none v rest =>
      simp only [Members.repeatsKey, Bool.or_eq_false_iff] at h
      rw [Members.latest, Tree.latest_eq_self h.1, Members.latest_eq_self h.2]
  | .member (some k) v rest =>
      simp only [Members.repeatsKey, Bool.or_eq_false_iff] at h
      rw [Members.latest, if_neg (Bool.eq_false_iff.1 h.1.1), Tree.latest_eq_self h.1.2,
        Members.latest_eq_self h.2]

end

theorem Tree.eq_of_generic {depth : Nat} {v v' : Tree} (h : v.generic depth = .ok v')
    (hkeys : v.repeatsKey = false) : v' = v :=
  (Tree.eq_latest_of_generic h).trans (Tree.latest_eq_self hkeys)

end NetBoot.Json
