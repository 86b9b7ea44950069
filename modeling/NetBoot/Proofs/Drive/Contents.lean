import NetBoot.Proofs.Drive.Refinement

namespace NetBoot.DriveCache

variable {c c' : DriveCache} {now : Time} {key version : Text} {payload : Bytes}
  {p : Text × Entry}

theorem mem_of_mem_delete (h : p ∈ (c.delete key).entries) : p ∈ c.entries := by
  rw [entries_delete] at h
  exact (List.mem_filter.1 h).1

theorem mem_of_mem_makeRoom {needed count : Nat}
    (hroom : c.makeRoom needed count = .ok c' ∨ c.makeRoom needed count = .error c')
    (h : p ∈ c'.entries) : p ∈ c.entries := by
  induction count generalizing c with
  | zero =>
      rw [makeRoom] at hroom
      split at hroom
      · rcases hroom with ⟨⟨⟩⟩ | ⟨⟨⟩⟩
        exact h
      · rcases hroom with ⟨⟨⟩⟩ | ⟨⟨⟩⟩
        exact h
  | succ count ih =>
      rw [makeRoom] at hroom
      split at hroom
      · rcases hroom with ⟨⟨⟩⟩ | ⟨⟨⟩⟩
        exact h
      · split at hroom
        · rcases hroom with ⟨⟨⟩⟩ | ⟨⟨⟩⟩
          exact h
        · exact mem_of_mem_delete (ih hroom)

theorem mem_of_mem_set (h : p ∈ (c.set key payload version now).entries) :
    p ∈ c.entries ∨ p.1 = key ∧ p.2.version = version ∧ p.2.payload = payload := by
  have hstore (d : DriveCache) (hd : ∀ q ∈ d.entries, q ∈ c.entries)
      (hp : p ∈ (d.store key payload version now).entries) :
      p ∈ c.entries ∨ p.1 = key ∧ p.2.version = version ∧ p.2.payload = payload := by
    rcases List.mem_cons.1 hp with rfl | hp
    · exact .inr ⟨rfl, rfl, rfl⟩
    · exact .inl (hd p hp)
  unfold set at h
  dsimp only at h
  split at h
  · exact .inl (mem_of_mem_delete h)
  · split at h
    · next d hroom =>
        exact hstore d (fun q hq => mem_of_mem_delete (mem_of_mem_makeRoom (.inl hroom) hq)) h
    · next d hroom =>
        exact hstore d (fun q hq => mem_of_mem_delete (mem_of_mem_makeRoom (.inr hroom) hq)) h

theorem mem_of_mem_foldl_delete {keys : List Text}
    (h : p ∈ (keys.foldl (fun c key => c.delete key) c).entries) : p ∈ c.entries := by
  induction keys generalizing c with
  | nil => exact h
  | cons key keys ih => exact mem_of_mem_delete (ih h)

theorem mem_of_mem_sweep (h : p ∈ (c.sweep now).1.entries) : p ∈ c.entries :=
  mem_of_mem_foldl_delete h

theorem exists_of_getIfCurrent (h : c.getIfCurrent key version now = some payload) :
    ∃ e : Entry, (key, e) ∈ c.entries ∧ e.version = version ∧ e.payload = payload := by
  obtain ⟨e, hfilter, hpayload⟩ := Option.map_eq_some_iff.1 h
  obtain ⟨hfind, hcurrent⟩ := Option.filter_eq_some_iff.1 hfilter
  simp only [Bool.and_eq_true, decide_eq_true_eq] at hcurrent
  exact ⟨e, Text.mem_of_lookup hfind, hcurrent.2, hpayload⟩

end NetBoot.DriveCache
