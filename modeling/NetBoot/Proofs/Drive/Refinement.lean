import NetBoot.Proofs.Drive.Checked
import NetBoot.Proofs.Text.Keys

namespace NetBoot.DriveCache

open Text (lookup_eq_none mem_of_lookup eq_of_key_eq filter_key_of_not_mem mem_keys_filter)

def total (entries : List (Text × Entry)) : Nat :=
  (entries.map fun p => p.2.payload.length).sum

def item (p : Text × Entry) : DriveItem := ⟨p.1, p.2.payload, p.2.version, p.2.inserted⟩

def items (c : DriveCache) : DriveQueue := c.entries.reverse.map item

structure WellFormed (now : Time) (c : DriveCache) : Prop where
  keys : (c.entries.map Prod.fst).Nodup
  ordered : c.entries.Pairwise fun p q => q.2.isOlder p.2
  sequenced : ∀ p ∈ c.entries, p.2.sequence < c.nextSequence
  past : ∀ p ∈ c.entries, p.2.inserted ≤ now
  size : c.size = total c.entries
  bounded : c.size ≤ c.maxSize

section Entries

variable {entries l : List (Text × Entry)} {key : Text} {p q : Text × Entry} {e : Entry}

theorem total_cons (p : Text × Entry) (l : List (Text × Entry)) :
    total (p :: l) = p.2.payload.length + total l := rfl

theorem total_items (c : DriveCache) : DriveQueue.total c.items = total c.entries := by
  simp [DriveQueue.total, items, total, List.map_reverse, item, Function.comp_def]

theorem total_filter_key (hkeys : (l.map Prod.fst).Nodup) (h : (key, e) ∈ l) :
    total l = e.payload.length + total (l.filter fun p => p.1 ≠ key) := by
  induction l with
  | nil => exact nomatch h
  | cons p l ih =>
      simp only [List.map_cons, List.nodup_cons] at hkeys
      rcases List.mem_cons.1 h with rfl | h
      · rw [List.filter_cons_of_neg (by simp), filter_key_of_not_mem hkeys.1]
        rfl
      · have hne : p.1 ≠ key := fun heq => hkeys.1 (heq ▸ List.mem_map_of_mem h)
        rw [List.filter_cons_of_pos (by simpa using hne), total_cons, total_cons, ih hkeys.2 h]
        omega

theorem oldest?_append (hold : (l ++ [p]).Pairwise fun p q => q.2.isOlder p.2) :
    oldest? (l ++ [p]) = some p := by
  induction l with
  | nil => rfl
  | cons x l ih =>
      obtain ⟨hx, hl⟩ := List.pairwise_cons.1 hold
      have hpx : p.2.isOlder x.2 := hx p (List.mem_append_right _ (.head _))
      rw [List.cons_append, oldest?, ih hl]
      simp [hpx]

end Entries

section Deletion

variable {c : DriveCache} {now : Time} {key : Text}

theorem entries_delete (key : Text) (c : DriveCache) :
    (c.delete key).entries = c.entries.filter fun p => p.1 ≠ key := by
  unfold delete find?
  cases h : List.lookup key c.entries with
  | none => exact (filter_key_of_not_mem (lookup_eq_none.1 h)).symm
  | some e => rfl

theorem ttl_delete (key : Text) (c : DriveCache) : (c.delete key).ttl = c.ttl := by
  unfold delete
  split <;> rfl

theorem maxSize_delete (key : Text) (c : DriveCache) : (c.delete key).maxSize = c.maxSize := by
  unfold delete
  split <;> rfl

theorem nextSequence_delete (key : Text) (c : DriveCache) :
    (c.delete key).nextSequence = c.nextSequence := by
  unfold delete
  split <;> rfl

theorem items_delete (key : Text) (c : DriveCache) :
    (c.delete key).items = DriveQueue.remove key c.items := by
  simp only [items, entries_delete, DriveQueue.remove, List.filter_map, ← List.filter_reverse]
  rfl

theorem WellFormed.size_delete (h : c.WellFormed now) (key : Text) :
    (c.delete key).size = total (c.delete key).entries := by
  rw [entries_delete]
  unfold delete find?
  cases hlookup : List.lookup key c.entries with
  | none => rw [filter_key_of_not_mem (lookup_eq_none.1 hlookup)]; exact h.size
  | some e =>
      have htotal := total_filter_key h.keys (mem_of_lookup hlookup)
      have hsize := h.size
      dsimp only
      omega

theorem total_filter_le (f : Text × Entry → Bool) (l : List (Text × Entry)) :
    total (l.filter f) ≤ total l := by
  induction l with
  | nil => exact Nat.le_refl _
  | cons p l ih =>
      by_cases hf : f p
      · rw [List.filter_cons_of_pos hf, total_cons, total_cons]
        omega
      · rw [List.filter_cons_of_neg hf, total_cons]
        omega

theorem WellFormed.delete (h : c.WellFormed now) (key : Text) :
    (c.delete key).WellFormed now where
  keys := by
    rw [entries_delete]
    exact (List.filter_sublist.map _).nodup h.keys
  ordered := by
    rw [entries_delete]
    exact h.ordered.sublist List.filter_sublist
  sequenced p hp := by
    rw [entries_delete] at hp
    rw [nextSequence_delete]
    exact h.sequenced p ((List.mem_filter.1 hp).1)
  past p hp := by
    rw [entries_delete] at hp
    exact h.past p ((List.mem_filter.1 hp).1)
  size := h.size_delete key
  bounded := by
    have hle := total_filter_le (fun p => p.1 ≠ key) c.entries
    have hsize := h.size
    have hbounded := h.bounded
    rw [h.size_delete, entries_delete, maxSize_delete]
    omega

theorem WellFormed.deleteChecked (h : c.WellFormed now) (key : Text) :
    c.deleteChecked key = some (c.delete key) := by
  unfold DriveCache.deleteChecked DriveCache.delete
  cases hfind : c.find? key with
  | none => rfl
  | some e =>
      have htotal := total_filter_key h.keys (mem_of_lookup hfind)
      have hsize := h.size
      have hle : e.payload.length ≤ c.size := by omega
      simp only [subChecked, if_pos hle, Option.map_some]

end Deletion

section Eviction

variable {c : DriveCache} {now : Time} {needed count : Nat}

theorem entries_delete_last {l : List (Text × Entry)} {p : Text × Entry} (h : c.WellFormed now)
    (hlast : c.entries = l ++ [p]) : (c.delete p.1).entries = l := by
  have hkeys := h.keys
  rw [hlast, List.map_append, List.nodup_append] at hkeys
  have hne : p.1 ∉ l.map Prod.fst := fun hmem => hkeys.2.2 _ hmem _ (.head _) rfl
  rw [entries_delete, hlast, List.filter_append, filter_key_of_not_mem hne]
  simp

theorem items_of_last {l : List (Text × Entry)} {p : Text × Entry}
    (hlast : c.entries = l ++ [p]) : c.items = item p :: l.reverse.map item := by
  simp [items, hlast]

theorem WellFormed.addChecked_size (h : c.WellFormed now) (hmax : c.maxSize + needed < word) :
    addChecked c.size needed = some (c.size + needed) := by
  have hbounded := h.bounded
  exact if_pos (by omega)

theorem WellFormed.entries_ne_nil (h : c.WellFormed now) (hneeded : needed ≤ c.maxSize)
    (hfull : ¬ c.size + needed ≤ c.maxSize) : c.entries ≠ [] := by
  intro hempty
  have hsize : c.size = 0 := by
    rw [h.size, hempty]
    rfl
  omega

theorem WellFormed.makeRoom_of_fits (h : c.WellFormed now) (hfits : c.size + needed ≤ c.maxSize)
    (count : Nat) :
    c.makeRoom needed count = .ok c ∧
      (c.maxSize + needed < word → c.makeRoomChecked needed count = some c) ∧
      DriveQueue.dropToFit c.maxSize needed c.items = c.items := by
  have hitems : c.items.total + needed ≤ c.maxSize := by
    rw [total_items, ← h.size]
    exact hfits
  refine ⟨?_, fun hmax => ?_, DriveQueue.dropToFit_of_fits hitems⟩
  · cases count with
    | zero => rw [DriveCache.makeRoom, if_pos hfits]
    | succ count => rw [DriveCache.makeRoom, if_pos hfits]
  · cases count with
    | zero =>
        rw [makeRoomChecked, h.addChecked_size hmax]
        exact if_pos hfits
    | succ count =>
        rw [makeRoomChecked, h.addChecked_size hmax]
        exact if_pos hfits

theorem WellFormed.makeRoom (h : c.WellFormed now) (hneeded : needed ≤ c.maxSize)
    (hcount : c.entries.length ≤ count) :
    ∃ c' : DriveCache, c.makeRoom needed count = .ok c' ∧
      (c.maxSize + needed < word → c.makeRoomChecked needed count = some c') ∧
      c'.WellFormed now ∧ c'.items = DriveQueue.dropToFit c.maxSize needed c.items ∧
      c'.size + needed ≤ c.maxSize ∧ (∀ p ∈ c'.entries, p ∈ c.entries) ∧ c'.ttl = c.ttl ∧
      c'.maxSize = c.maxSize ∧ c'.nextSequence = c.nextSequence := by
  induction count generalizing c with
  | zero =>
      have hfits : c.size + needed ≤ c.maxSize :=
        Decidable.byContradiction fun hfull => h.entries_ne_nil hneeded hfull
          (List.length_eq_zero_iff.1 (Nat.le_zero.1 hcount))
      have hroom := h.makeRoom_of_fits hfits 0
      exact ⟨c, hroom.1, hroom.2.1, h, hroom.2.2.symm, hfits, fun _ hp => hp, rfl, rfl, rfl⟩
  | succ count ih =>
      by_cases hfits : c.size + needed ≤ c.maxSize
      · have hroom := h.makeRoom_of_fits hfits (count + 1)
        exact ⟨c, hroom.1, hroom.2.1, h, hroom.2.2.symm, hfits, fun _ hp => hp, rfl, rfl, rfl⟩
      · rcases List.eq_nil_or_concat c.entries with hempty | ⟨l, p, hlast⟩
        · exact absurd hempty (h.entries_ne_nil hneeded hfits)
        rw [List.concat_eq_append] at hlast
        have holdest : oldest? c.entries = some p := by
          rw [hlast]
          exact oldest?_append (hlast ▸ h.ordered)
        have hentries : (c.delete p.1).entries = l := entries_delete_last h hlast
        have hlength : (c.delete p.1).entries.length ≤ count := by
          rw [hentries]
          rw [hlast, List.length_append, List.length_singleton] at hcount
          omega
        obtain ⟨c', hroom, hchecked, hwell, hitems, hroomy, hsub, httl, hsize, hsequence⟩ :=
          ih (h.delete p.1) (by rw [maxSize_delete]; exact hneeded) hlength
        rw [maxSize_delete] at hchecked hitems hroomy hsize
        rw [ttl_delete] at httl
        rw [nextSequence_delete] at hsequence
        refine ⟨c', ?_, fun hmax => ?_, hwell, ?_, hroomy, fun q hq => ?_, httl, hsize, hsequence⟩
        · rw [DriveCache.makeRoom, if_neg hfits, holdest]
          exact hroom
        · simp only [makeRoomChecked, h.addChecked_size hmax, Option.bind_eq_bind, Option.bind_some,
            if_neg hfits, holdest, h.deleteChecked]
          exact hchecked hmax
        · have hfull : ¬ c.items.total + needed ≤ c.maxSize := by
            rw [total_items, ← h.size]
            exact hfits
          rw [items_of_last hlast] at hfull ⊢
          rw [DriveQueue.dropToFit, if_neg hfull, hitems, items, hentries]
        · have hmem := hsub q hq
          rw [hentries] at hmem
          rw [hlast]
          exact List.mem_append_left _ hmem

end Eviction

section Insertion

variable {c : DriveCache} {earlier now : Time} {key : Text} {payload : Bytes} {version : Text}

theorem WellFormed.later (h : c.WellFormed earlier) (hnow : earlier ≤ now) : c.WellFormed now :=
  ⟨h.keys, h.ordered, h.sequenced, fun p hp => Nat.le_trans (h.past p hp) hnow, h.size, h.bounded⟩

theorem items_store (key : Text) (payload : Bytes) (version : Text) (now : Time) (c : DriveCache) :
    (c.store key payload version now).items = c.items ++ [⟨key, payload, version, now⟩] := by
  simp [items, store, item]

theorem WellFormed.store (h : c.WellFormed now) (hkey : key ∉ c.entries.map Prod.fst)
    (hroom : c.size + payload.length ≤ c.maxSize) :
    (c.store key payload version now).WellFormed now where
  keys := List.nodup_cons.2 ⟨hkey, h.keys⟩
  ordered := by
    refine List.pairwise_cons.2 ⟨fun p hp => ?_, h.ordered⟩
    have hsequenced := h.sequenced p hp
    simp only [Entry.isOlder, Bool.or_eq_true, Bool.and_eq_true, decide_eq_true_eq]
    rcases Nat.lt_or_eq_of_le (h.past p hp) with hlt | heq
    · exact .inl hlt
    · exact .inr ⟨heq, hsequenced⟩
  sequenced p hp := by
    rcases List.mem_cons.1 hp with rfl | hp
    · exact Nat.lt_succ_self _
    · exact Nat.lt_succ_of_lt (h.sequenced p hp)
  past p hp := by
    rcases List.mem_cons.1 hp with rfl | hp
    · exact Nat.le_refl _
    · exact h.past p hp
  size := by
    have hsize := h.size
    change c.size + payload.length = payload.length + total c.entries
    omega
  bounded := hroom

theorem storeChecked_eq_some (hroom : c.size + payload.length ≤ c.maxSize)
    (hmax : c.maxSize < word) (hsequence : c.nextSequence + 1 < word) :
    c.storeChecked key payload version now = some (c.store key payload version now) := by
  have hsum : c.size + payload.length < word := by omega
  simp only [storeChecked, addChecked, if_pos hsequence, if_pos hsum,
    Option.bind_eq_bind, Option.bind_some]
  rfl

theorem not_mem_keys_delete (key : Text) (c : DriveCache) :
    key ∉ (c.delete key).entries.map Prod.fst := by
  rw [entries_delete]
  exact fun hmem => (mem_keys_filter.1 hmem).2 rfl

theorem WellFormed.set (h : c.WellFormed now) (key : Text) (payload : Bytes) (version : Text) :
    (c.maxSize < 2 ^ 63 → c.nextSequence + 1 < word →
        c.setChecked key payload version now = some (c.set key payload version now)) ∧
      (c.set key payload version now).WellFormed now ∧
      (c.set key payload version now).items =
        DriveQueue.set c.maxSize key payload version now c.items ∧
      (c.set key payload version now).ttl = c.ttl ∧
      (c.set key payload version now).maxSize = c.maxSize ∧
      (c.set key payload version now).nextSequence ≤ c.nextSequence + 1 := by
  have hdelete := h.delete key
  by_cases hlarge : c.maxSize < payload.length
  · have hset : c.set key payload version now = c.delete key := by
      rw [DriveCache.set]
      exact if_pos (by rw [maxSize_delete]; exact hlarge)
    rw [hset]
    refine ⟨fun _ _ => ?_, hdelete, ?_, ttl_delete key c, maxSize_delete key c, ?_⟩
    · simp only [DriveCache.setChecked, h.deleteChecked, Option.bind_eq_bind, Option.bind_some]
      exact if_pos (by rw [maxSize_delete]; exact hlarge)
    · rw [items_delete, DriveQueue.set, if_pos hlarge]
    · rw [nextSequence_delete]
      exact Nat.le_succ _
  · have hneeded : payload.length ≤ c.maxSize := Nat.le_of_not_lt hlarge
    have hbound : payload.length ≤ (c.delete key).maxSize := by rwa [maxSize_delete]
    obtain ⟨c', hroom, hchecked, hwell, hitems, hfits, hsub, httl, hsize, hnext⟩ :=
      hdelete.makeRoom hbound (Nat.le_refl _)
    rw [maxSize_delete] at hchecked hitems hfits hsize
    rw [ttl_delete] at httl
    rw [nextSequence_delete] at hnext
    have hset : c.set key payload version now = c'.store key payload version now := by
      rw [DriveCache.set, if_neg (by rw [maxSize_delete]; exact hlarge), length, hroom]
    have hkey : key ∉ c'.entries.map Prod.fst := by
      intro hmem
      obtain ⟨p, hp, rfl⟩ := List.mem_map.1 hmem
      exact not_mem_keys_delete p.1 c (List.mem_map_of_mem (hsub p hp))
    rw [hset]
    refine ⟨fun hmax hsequence => ?_, hwell.store hkey (hsize ▸ hfits), ?_, httl, hsize, ?_⟩
    · have hsum : c.maxSize + payload.length < word := by
        rw [word]
        omega
      have hword : c'.maxSize < word := by
        rw [hsize]
        omega
      have hstore : c'.storeChecked key payload version now =
          some (c'.store key payload version now) :=
        storeChecked_eq_some (hsize ▸ hfits) hword (hnext ▸ hsequence)
      simp only [DriveCache.setChecked, h.deleteChecked, Option.bind_eq_bind, Option.bind_some]
      rw [if_neg (by rw [maxSize_delete]; exact hlarge), length, hchecked hsum]
      exact hstore
    · rw [items_store, hitems, items_delete, DriveQueue.set, if_neg hlarge]
    · exact Nat.le_of_eq (congrArg Nat.succ hnext)

end Insertion

section Lookup

variable {c : DriveCache} {now : Time}

theorem WellFormed.find?_items (h : c.WellFormed now) (key : Text) :
    DriveQueue.find? key c.items = (c.find? key).map fun e => item (key, e) := by
  cases hfind : c.find? key with
  | none =>
      have hkey : key ∉ c.entries.map Prod.fst := lookup_eq_none.1 hfind
      refine List.find?_eq_none.2 fun x hx heq => ?_
      obtain ⟨p, hp, rfl⟩ := List.mem_map.1 hx
      have hpkey : p.1 = key := of_decide_eq_true heq
      exact hkey (hpkey ▸ List.mem_map_of_mem (List.mem_reverse.1 hp))
  | some e =>
      have hmem : (key, e) ∈ c.entries := mem_of_lookup hfind
      cases hq : DriveQueue.find? key c.items with
      | none =>
          have hnone := List.find?_eq_none.1 hq (item (key, e))
            (List.mem_map_of_mem (List.mem_reverse.2 hmem))
          simp [item] at hnone
      | some x =>
          obtain ⟨p, hp, rfl⟩ := List.mem_map.1 (List.mem_of_find?_eq_some hq)
          have hmatch := List.find?_some hq
          have hpkey : p.1 = key := of_decide_eq_true hmatch
          have hpe : p = (key, e) := eq_of_key_eq h.keys (List.mem_reverse.1 hp) hmem hpkey
          rw [hpe]
          rfl

theorem payload_item (key : Text) (f : DriveItem → Bool) (o : Option Entry) :
    ((o.map fun e => item (key, e)).filter f).map DriveItem.payload =
      (o.filter fun e => f (item (key, e))).map Entry.payload := by
  cases o with
  | none => rfl
  | some e =>
      simp only [Option.map_some, Option.filter_some]
      split <;> rfl

theorem WellFormed.get_eq (h : c.WellFormed now) (key : Text) :
    c.get key now = ((DriveQueue.find? key c.items).filter
      (DriveQueue.isFresh c.ttl now)).map DriveItem.payload := by
  rw [h.find?_items, payload_item]
  rfl

theorem WellFormed.getIfCurrent_eq (h : c.WellFormed now) (key version : Text) :
    c.getIfCurrent key version now = ((DriveQueue.find? key c.items).filter fun x =>
      DriveQueue.isFresh c.ttl now x && x.version = version).map DriveItem.payload := by
  rw [h.find?_items, payload_item]
  rfl

end Lookup

section Sweeping

variable {c : DriveCache} {now : Time}

theorem WellFormed.foldl_delete (h : c.WellFormed now) (keys : List Text) :
    keys.foldlM (fun c key => c.deleteChecked key) c =
        some (keys.foldl (fun c key => c.delete key) c) ∧
      (keys.foldl (fun c key => c.delete key) c).WellFormed now ∧
      (keys.foldl (fun c key => c.delete key) c).entries =
        c.entries.filter (fun p => p.1 ∉ keys) ∧
      (keys.foldl (fun c key => c.delete key) c).ttl = c.ttl ∧
      (keys.foldl (fun c key => c.delete key) c).maxSize = c.maxSize ∧
      (keys.foldl (fun c key => c.delete key) c).nextSequence = c.nextSequence := by
  induction keys generalizing c with
  | nil => exact ⟨rfl, h, (List.filter_eq_self.2 (by simp)).symm, rfl, rfl, rfl⟩
  | cons key keys ih =>
      obtain ⟨hchecked, hwell, hentries, httl, hsize, hsequence⟩ := ih (h.delete key)
      refine ⟨?_, hwell, ?_, httl.trans (ttl_delete key c), hsize.trans (maxSize_delete key c),
        hsequence.trans (nextSequence_delete key c)⟩
      · rw [List.foldlM_cons, h.deleteChecked]
        exact hchecked
      · rw [List.foldl_cons, hentries, entries_delete, List.filter_filter]
        refine List.filter_congr fun p _ => ?_
        simp [Bool.and_comm]

theorem WellFormed.mem_expired_iff (h : c.WellFormed now) {p : Text × Entry} (hp : p ∈ c.entries) :
    p.1 ∈ c.expired now ↔ c.isFresh now p.2 = false := by
  simp only [expired, List.mem_map, List.mem_filter, Bool.not_eq_true']
  constructor
  · rintro ⟨q, ⟨hq, hold⟩, heq⟩
    rw [← eq_of_key_eq h.keys hq hp heq]
    exact hold
  · intro hold
    exact ⟨p, ⟨hp, hold⟩, rfl⟩

theorem WellFormed.entries_sweep (h : c.WellFormed now) :
    (c.sweep now).1.entries = c.entries.filter fun p => c.isFresh now p.2 := by
  refine (h.foldl_delete (c.expired now)).2.2.1.trans (List.filter_congr fun p hp => ?_)
  have hiff := h.mem_expired_iff hp
  cases hfresh : c.isFresh now p.2 with
  | true => simpa [hfresh] using hiff
  | false => simpa [hfresh] using hiff

theorem WellFormed.items_sweep (h : c.WellFormed now) :
    (c.sweep now).1.items = c.items.filter (DriveQueue.isFresh c.ttl now) := by
  rw [items, h.entries_sweep, items, List.filter_map, ← List.filter_reverse]
  rfl

theorem length_expired (c : DriveCache) (now : Time) :
    (c.sweep now).2 = (c.items.filter fun x => !DriveQueue.isFresh c.ttl now x).length := by
  rw [items, List.filter_map, List.length_map, List.filter_reverse, List.length_reverse]
  exact List.length_map _

end Sweeping

section Runs

variable {c : DriveCache} {earlier now : Time}

def start (ttl : Time) (maxSize : Nat) : DriveCache := { ttl, maxSize }

theorem wellFormed_start (ttl : Time) (maxSize : Nat) (now : Time) :
    (start ttl maxSize).WellFormed now :=
  ⟨.nil, .nil, nofun, nofun, rfl, Nat.zero_le _⟩

theorem WellFormed.perform (h : c.WellFormed now) (op : DriveOperation) :
    (c.maxSize < 2 ^ 63 → (op.isSet → c.nextSequence + 1 < word) →
        c.performChecked now op = some (c.perform now op)) ∧
      (c.perform now op).2.WellFormed now ∧
      c.items.perform c.ttl c.maxSize now op =
        ((c.perform now op).1, (c.perform now op).2.items) ∧
      (c.perform now op).2.ttl = c.ttl ∧ (c.perform now op).2.maxSize = c.maxSize ∧
      (c.perform now op).2.nextSequence ≤ c.nextSequence + if op.isSet then 1 else 0 := by
  cases op with
  | set key payload version =>
      obtain ⟨hchecked, hwell, hitems, httl, hsize, hnext⟩ :=
        h.set key payload version
      refine ⟨fun hmax hsequence => ?_, hwell, ?_, httl, hsize, hnext⟩
      · rw [performChecked, hchecked hmax (hsequence rfl)]
        rfl
      · rw [DriveQueue.perform, ← hitems]
        rfl
  | get key =>
      refine ⟨fun _ _ => rfl, h, ?_, rfl, rfl, Nat.le_refl _⟩
      rw [DriveQueue.perform, ← h.get_eq]
      rfl
  | getIfCurrent key version =>
      refine ⟨fun _ _ => rfl, h, ?_, rfl, rfl, Nat.le_refl _⟩
      rw [DriveQueue.perform, ← h.getIfCurrent_eq]
      rfl
  | delete key =>
      refine ⟨fun _ _ => ?_, h.delete key, ?_, ttl_delete key c, maxSize_delete key c, ?_⟩
      · rw [performChecked, h.deleteChecked]
        rfl
      · rw [DriveQueue.perform, ← items_delete]
        rfl
      · exact Nat.le_of_eq (nextSequence_delete key c)
  | sweep =>
      obtain ⟨hchecked, hwell, -, httl, hsize, hsequence⟩ := h.foldl_delete (c.expired now)
      refine ⟨fun _ _ => ?_, hwell, ?_, httl, hsize, Nat.le_of_eq hsequence⟩
      · rw [performChecked, sweepChecked, hchecked]
        rfl
      · rw [DriveQueue.perform, ← h.items_sweep, ← length_expired]
        rfl

theorem WellFormed.performAll (h : c.WellFormed earlier) (hmax : c.maxSize < 2 ^ 63)
    {steps : DriveOperation.Run} (hsets : c.nextSequence + DriveOperation.sets steps < word)
    (htimes : (earlier :: steps.map Prod.fst).Pairwise (· ≤ ·)) :
    performAllChecked steps c = some (c.performAll steps) ∧
      c.items.performAll c.ttl c.maxSize steps =
        ((c.performAll steps).1, (c.performAll steps).2.items) ∧
      (c.performAll steps).2.maxSize = c.maxSize ∧
      ∃ now, (c.performAll steps).2.WellFormed now := by
  induction steps generalizing c earlier with
  | nil => exact ⟨rfl, rfl, rfl, earlier, h⟩
  | cons step steps ih =>
      obtain ⟨now, op⟩ := step
      rw [List.map_cons] at htimes
      obtain ⟨hearlier, hlater⟩ := List.pairwise_cons.1 htimes
      have hnow : c.WellFormed now := h.later (hearlier now (.head _))
      have hcount : DriveOperation.sets ((now, op) :: steps) =
          DriveOperation.sets steps + if op.isSet then 1 else 0 := by
        simp [DriveOperation.sets, List.countP_cons]
      have hsequence : op.isSet → c.nextSequence + 1 < word := by
        intro hset
        rw [hcount, if_pos hset] at hsets
        omega
      obtain ⟨hchecked, hwell, hqueue, httl, hsize, hnext⟩ := hnow.perform op
      have hrest := ih hwell (by rw [hsize]; exact hmax) (by omega) hlater
      rw [httl, hsize] at hrest
      obtain ⟨hallChecked, hallQueue, hallSize, hallWell⟩ := hrest
      refine ⟨?_, ?_, hallSize, hallWell⟩
      · simp only [performAllChecked, hchecked hmax hsequence, Option.bind_eq_bind, Option.bind_some, hallChecked]
        rfl
      · change DriveOperation.performAll _ ((now, op) :: steps) c.items = _
        rw [DriveOperation.performAll, hqueue]
        dsimp only
        rw [← DriveQueue.performAll, hallQueue]
        rfl

theorem performAll_eq_queue (ttl : Time) {maxSize : Nat} (hmax : maxSize < 2 ^ 63)
    {steps : DriveOperation.Run} (hsets : DriveOperation.sets steps < 2 ^ 64)
    (htimes : (steps.map Prod.fst).Pairwise (· ≤ ·)) :
    let cache := (start ttl maxSize).performAll steps
    let queue := DriveQueue.performAll ttl maxSize steps []
    performAllChecked steps (start ttl maxSize) = some cache ∧
      cache.1 = queue.1 ∧ cache.2.items = queue.2 ∧
      cache.2.size = DriveQueue.total queue.2 ∧ cache.2.size ≤ maxSize ∧
      cache.2.length = queue.2.length := by
  intro cache queue
  have htimes : (0 :: steps.map Prod.fst).Pairwise (· ≤ ·) :=
    List.pairwise_cons.2 ⟨fun _ _ => Nat.zero_le _, htimes⟩
  have hsets : (start ttl maxSize).nextSequence + DriveOperation.sets steps < word := by
    rw [word]
    exact (Nat.zero_add _).symm ▸ hsets
  obtain ⟨hchecked, hqueue, hsize, now, hwell⟩ :=
    (wellFormed_start ttl maxSize 0).performAll hmax hsets htimes
  have hqueue : queue = (cache.1, cache.2.items) := hqueue
  rw [hqueue]
  refine ⟨hchecked, rfl, rfl, ?_, ?_, ?_⟩
  · rw [total_items]
    exact hwell.size
  · have hbounded := hwell.bounded
    rw [hsize] at hbounded
    exact hbounded
  · simp [items, length]

theorem performAll_eq_queue_of_four_sets :
    let steps : DriveOperation.Run :=
      [(0, .set "a".toList [1] "v".toList), (0, .set "b".toList [2] "v".toList),
        (5, .set "c".toList [3] "v".toList), (5, .set "d".toList [4, 5, 6] "v".toList),
        (9, .getIfCurrent "b".toList "v".toList), (12, .sweep), (12, .get "c".toList)]
    ((start 10 2).performAll steps).1 = (DriveQueue.performAll 10 2 steps []).1 ∧
      (DriveQueue.performAll 10 2 steps []).1 =
        [.done, .done, .done, .done, .payload (some [2]), .removed 1, .payload (some [3])] ∧
      performAllChecked steps (start 10 2) = some ((start 10 2).performAll steps) := by
  intro steps
  have hmax : 2 < 2 ^ 63 := by decide
  have hsets : DriveOperation.sets steps < 2 ^ 64 := by decide
  have htimes : (steps.map Prod.fst).Pairwise (· ≤ ·) := by decide
  have h := performAll_eq_queue 10 hmax hsets htimes
  exact ⟨h.2.1, by decide, h.1⟩

end Runs

end NetBoot.DriveCache
