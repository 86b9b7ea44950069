import NetBoot.Proofs.Drive.Sweeping

namespace NetBoot

namespace DriveOperation

def sweeps (steps : Run) : List Time :=
  (steps.filter fun step => step.2 = .sweep).map Prod.fst

theorem sweeps_append (steps others : Run) :
    sweeps (steps ++ others) = sweeps steps ++ sweeps others := by
  rw [sweeps, List.filter_append, List.map_append]
  rfl

theorem sweeps_cons (t : Time) (op : DriveOperation) (steps : Run) :
    sweeps ((t, op) :: steps) = if op = .sweep then t :: sweeps steps else sweeps steps := by
  by_cases hop : op = .sweep <;> simp [sweeps, hop]

theorem mem_sweeps {steps : Run} {t : Time} : t ∈ sweeps steps ↔ (t, .sweep) ∈ steps := by
  simp only [sweeps, List.mem_map, List.mem_filter, decide_eq_true_eq]
  constructor
  · rintro ⟨⟨_, _⟩, ⟨hmem, rfl⟩, rfl⟩
    exact hmem
  · exact fun hmem => ⟨_, ⟨hmem, rfl⟩, rfl⟩

end DriveOperation

namespace DriveQueue

variable {ttl now : Time} {maxSize : Nat} {q : DriveQueue} {x : DriveItem}

theorem mem_of_mem_dropToFit {needed : Nat} (h : x ∈ dropToFit maxSize needed q) : x ∈ q := by
  induction q with
  | nil => exact h
  | cons y q ih =>
      rw [dropToFit] at h
      split at h
      · exact h
      · exact .tail y (ih h)

theorem mem_perform {op : DriveOperation} (h : x ∈ (perform ttl maxSize now op q).2) :
    x ∈ q ∨ x.inserted = now := by
  cases op with
  | set key payload version =>
      dsimp only [perform, set] at h
      split at h
      · exact .inl (List.mem_filter.1 h).1
      · rcases List.mem_append.1 h with hkept | hnew
        · exact .inl (List.mem_filter.1 (mem_of_mem_dropToFit hkept)).1
        · rw [List.mem_singleton.1 hnew]
          exact .inr rfl
  | get key => exact .inl h
  | getIfCurrent key version => exact .inl h
  | delete key => exact .inl (List.mem_filter.1 h).1
  | sweep => exact .inl (List.mem_filter.1 h).1

end DriveQueue

namespace DriveCache

variable {c : DriveCache} {earlier now began last t : Time}
  {steps before after : DriveOperation.Run}

section Schedule

theorem sweepPeriod_pos (c : DriveCache) : 0 < c.sweepPeriod :=
  Nat.lt_of_lt_of_le (by decide) (Nat.le_max_right _ _)

theorem mem_sweepTimes_iff (h : began ≤ last) :
    t ∈ c.sweepTimes began last now ↔
      last < t ∧ t ≤ now ∧ ∃ k, 0 < k ∧ t = began + k * c.sweepPeriod := by
  have hpos : 0 < c.sweepPeriod := sweepPeriod_pos c
  have hlast (k : ℕ) : (last - began) / c.sweepPeriod < k ↔ last < began + k * c.sweepPeriod := by
    rw [Nat.div_lt_iff_lt_mul hpos]
    unfold Time at *
    omega
  have hnow (k : ℕ) (hk : 0 < k) :
      k ≤ (now - began) / c.sweepPeriod ↔ began + k * c.sweepPeriod ≤ now := by
    have hkpos : 0 < k * c.sweepPeriod := Nat.mul_pos hk hpos
    rw [Nat.le_div_iff_mul_le hpos]
    unfold Time at *
    omega
  simp only [sweepTimes, List.mem_map, List.mem_range'_1]
  constructor
  · rintro ⟨k, ⟨hk, hle⟩, rfl⟩
    have hkpos : 0 < k := Nat.lt_of_lt_of_le (Nat.succ_pos _) hk
    refine ⟨(hlast k).1 hk, (hnow k hkpos).1 ?_, k, hkpos, rfl⟩
    unfold Time at *
    omega
  · rintro ⟨hk, hle, k, hkpos, rfl⟩
    have hk := (hlast k).2 hk
    have hle := (hnow k hkpos).2 hle
    refine ⟨k, ⟨hk, ?_⟩, rfl⟩
    unfold Time at *
    omega

theorem sweepTimes_increasing (c : DriveCache) (began last now : Time) :
    (c.sweepTimes began last now).Pairwise (· < ·) := by
  rw [sweepTimes, List.pairwise_map]
  refine (List.pairwise_lt_range' 1).imp fun {k l} hkl => ?_
  exact Nat.add_lt_add_left (Nat.mul_lt_mul_of_pos_right hkl (sweepPeriod_pos c)) began

theorem sweepTimes_append (h : last ≤ t) (hnow : t ≤ now) :
    c.sweepTimes began last t ++ c.sweepTimes began t now = c.sweepTimes began last now := by
  have hlast : (last - began) / c.sweepPeriod ≤ (t - began) / c.sweepPeriod :=
    Nat.div_le_div_right (Nat.sub_le_sub_right h began)
  have hlater : (t - began) / c.sweepPeriod ≤ (now - began) / c.sweepPeriod :=
    Nat.div_le_div_right (Nat.sub_le_sub_right hnow began)
  have hnext : (t - began) / c.sweepPeriod + 1 = (last - began) / c.sweepPeriod + 1 +
      ((t - began) / c.sweepPeriod - (last - began) / c.sweepPeriod) := by
    unfold Time at *
    omega
  have hcount : (t - began) / c.sweepPeriod - (last - began) / c.sweepPeriod +
      ((now - began) / c.sweepPeriod - (t - began) / c.sweepPeriod) =
        (now - began) / c.sweepPeriod - (last - began) / c.sweepPeriod := by
    unfold Time at *
    omega
  rw [sweepTimes, sweepTimes, sweepTimes, ← List.map_append, hnext, List.range'_append_1, hcount]

theorem exists_lately (c : DriveCache) (h : began ≤ now) :
    ∃ lately, lately ≤ now ∧ now < lately + c.sweepPeriod ∧
      (lately = began ∨ lately ∈ c.sweepTimes began began now) := by
  have hpos := sweepPeriod_pos c
  have hdiv := Nat.div_add_mod' (now - began) c.sweepPeriod
  have hmod := Nat.mod_lt (now - began) hpos
  have hle : began + (now - began) / c.sweepPeriod * c.sweepPeriod ≤ now := by
    unfold Time at *
    omega
  refine ⟨began + (now - began) / c.sweepPeriod * c.sweepPeriod, hle, ?_, ?_⟩
  · unfold Time at *
    omega
  · rcases Nat.eq_zero_or_pos ((now - began) / c.sweepPeriod) with hzero | hk
    · exact .inl (by rw [hzero, Nat.zero_mul, Nat.add_zero])
    · have hlater : began < began + (now - began) / c.sweepPeriod * c.sweepPeriod :=
        Nat.lt_add_of_pos_right (Nat.mul_pos hk hpos)
      exact .inr ((mem_sweepTimes_iff (Nat.le_refl began)).2 ⟨hlater, hle, _, hk, rfl⟩)

end Schedule

section Alive

def AliveAt (t : Time) (c : DriveCache) : Prop := ∀ p ∈ c.entries, c.isFresh t p.2

theorem aliveAt_iff : c.AliveAt t ↔ ∀ x ∈ c.items, DriveQueue.isFresh c.ttl t x := by
  simp only [AliveAt, items, List.forall_mem_map, List.mem_reverse]
  rfl

theorem WellFormed.items_perform (h : c.WellFormed now) (op : DriveOperation) :
    (c.perform now op).2.items = (c.items.perform c.ttl c.maxSize now op).2 :=
  (congrArg Prod.snd (h.perform op).2.2.1).symm

theorem WellFormed.ttl_perform (h : c.WellFormed now) (op : DriveOperation) :
    (c.perform now op).2.ttl = c.ttl :=
  (h.perform op).2.2.2.1

theorem WellFormed.aliveAt_perform (h : c.WellFormed now) (ht : t ≤ now) (halive : c.AliveAt t)
    (op : DriveOperation) : (c.perform now op).2.AliveAt t := by
  rw [aliveAt_iff] at halive ⊢
  rw [h.items_perform, h.ttl_perform]
  intro x hx
  rcases DriveQueue.mem_perform hx with hkept | hnew
  · exact halive x hkept
  · have hage : t - x.inserted = 0 := Nat.sub_eq_zero_of_le (hnew ▸ ht)
    simp [DriveQueue.isFresh, hage]

theorem WellFormed.aliveAt_sweep (h : c.WellFormed now) : (c.perform now .sweep).2.AliveAt now := by
  rw [aliveAt_iff, h.items_perform, h.ttl_perform]
  exact fun x hx => (List.mem_filter.1 hx).2

theorem WellFormed.find?_sweep (h : c.WellFormed now) {key : Text} {payload : Bytes}
    (hget : c.get key now = some payload) : (c.sweep now).1.find? key = c.find? key := by
  obtain ⟨e, hfound, -⟩ := Option.map_eq_some_iff.1 hget
  obtain ⟨hfind, hfresh⟩ := Option.filter_eq_some_iff.1 hfound
  have hkeys : ((c.sweep now).1.entries.map Prod.fst).Nodup := (h.perform .sweep).2.1.keys
  rw [hfind]
  refine (Text.lookup_eq_some_iff hkeys).2 ?_
  rw [h.entries_sweep]
  exact List.mem_filter.2 ⟨Text.mem_of_lookup hfind, hfresh⟩

end Alive

section Runs

theorem performAll_append (steps others : DriveOperation.Run) (c : DriveCache) :
    (c.performAll (steps ++ others)).2 = ((c.performAll steps).2.performAll others).2 := by
  induction steps generalizing c with
  | nil => rfl
  | cons step steps ih => exact ih _

theorem WellFormed.afterAll (h : c.WellFormed earlier)
    (htimes : (earlier :: steps.map Prod.fst).Pairwise (· ≤ ·))
    (hlast : ∀ s ∈ earlier :: steps.map Prod.fst, s ≤ now) :
    (c.performAll steps).2.WellFormed now ∧ (c.performAll steps).2.ttl = c.ttl ∧
      ∀ t ≤ earlier, c.AliveAt t → (c.performAll steps).2.AliveAt t := by
  -- No step brings in anything older than itself, so what was alive at a time stays alive for it.
  induction steps generalizing c earlier with
  | nil => exact ⟨h.later (hlast _ (.head _)), rfl, fun _ _ halive => halive⟩
  | cons step steps ih =>
      obtain ⟨time, op⟩ := step
      obtain ⟨hearlier, hlater⟩ := List.pairwise_cons.1 htimes
      have htime : earlier ≤ time := hearlier time (.head _)
      have hnow : c.WellFormed time := h.later htime
      have hwell : (c.perform time op).2.WellFormed time := (hnow.perform op).2.1
      obtain ⟨hend, httl, halive⟩ := ih hwell hlater fun s hs => hlast s (.tail _ hs)
      refine ⟨hend, httl.trans (hnow.ttl_perform op), fun t ht hbefore => ?_⟩
      have ht : t ≤ time := Nat.le_trans ht htime
      exact halive t ht (hnow.aliveAt_perform ht hbefore op)

end Runs

section OnTime

variable {ttl : Time} {maxSize : Nat}

theorem filter_until {early late : List Time} (hearly : ∀ s ∈ early, s ≤ t)
    (hlate : ∀ s ∈ late, t < s) : ((early ++ late).filter fun s => s ≤ t) = early := by
  rw [List.filter_append, List.filter_eq_self.2 (by simpa using hearly),
    List.filter_eq_nil_iff.2 (by simpa using hlate), List.append_nil]

/-- A run of a cache up to a time, beside which a sweeper sweeps whenever it is due. -/
structure SweptOnTime (c : DriveCache) (began now : Time) (steps : DriveOperation.Run) : Prop where
  started : began ≤ now
  ordered : (began :: steps.map Prod.fst).Pairwise (· ≤ ·)
  past : ∀ step ∈ steps, step.1 ≤ now
  sweeps : DriveOperation.sweeps steps = c.sweepTimes began began now

theorem SweptOnTime.past_of_cons (h : c.SweptOnTime began now steps) :
    ∀ s ∈ began :: steps.map Prod.fst, s ≤ now := by
  intro s hs
  rcases List.mem_cons.1 hs with rfl | hs
  · exact h.started
  · obtain ⟨step, hstep, rfl⟩ := List.mem_map.1 hs
    exact h.past step hstep

theorem SweptOnTime.upTo (h : c.SweptOnTime began now (before ++ after)) (hbegan : began ≤ t)
    (hnow : t ≤ now) (hbefore : ∀ step ∈ before, step.1 ≤ t)
    (hafter : ∀ s ∈ DriveOperation.sweeps after, t < s) : c.SweptOnTime began t before where
  started := hbegan
  ordered := by
    have hordered := h.ordered
    rw [List.map_append, ← List.cons_append] at hordered
    exact (List.pairwise_append.1 hordered).1
  past := hbefore
  sweeps := by
    have hsweeps := h.sweeps
    rw [DriveOperation.sweeps_append, ← sweepTimes_append hbegan hnow] at hsweeps
    have hbefore' : ∀ s ∈ DriveOperation.sweeps before, s ≤ t := fun s hs =>
      hbefore _ (DriveOperation.mem_sweeps.1 hs)
    have hdue : ∀ s ∈ c.sweepTimes began began t, s ≤ t := fun s hs =>
      ((mem_sweepTimes_iff (Nat.le_refl began)).1 hs).2.1
    have hlater : ∀ s ∈ c.sweepTimes began t now, t < s := fun s hs =>
      ((mem_sweepTimes_iff hbegan).1 hs).1
    -- Cut at the time, both sides keep the sweeps that were due by then.
    rw [← filter_until hbefore' hafter, hsweeps, filter_until hdue hlater]

theorem SweptOnTime.wellFormed_before (h : (start ttl maxSize).SweptOnTime began now steps)
    {op : DriveOperation} (hsteps : steps = before ++ (t, op) :: after) :
    ((start ttl maxSize).performAll before).2.WellFormed t ∧
      (t :: after.map Prod.fst).Pairwise (· ≤ ·) := by
  have hordered := h.ordered
  rw [hsteps, List.map_append, ← List.cons_append] at hordered
  obtain ⟨hbefore, hafter, hcross⟩ := List.pairwise_append.1 hordered
  obtain ⟨hwell, -, -⟩ := (wellFormed_start ttl maxSize began).afterAll hbefore fun s hs =>
    hcross s hs t (.head _)
  exact ⟨hwell, hafter⟩

theorem SweptOnTime.aliveAt_lately (h : (start ttl maxSize).SweptOnTime began now steps)
    (ht : t = began ∨ t ∈ (start ttl maxSize).sweepTimes began began now) :
    ((start ttl maxSize).performAll steps).2.AliveAt t := by
  rcases ht with rfl | ht
  · have halive : (start ttl maxSize).AliveAt t := nofun
    obtain ⟨-, -, hkept⟩ :=
      (wellFormed_start ttl maxSize t).afterAll h.ordered h.past_of_cons
    exact hkept t (Nat.le_refl t) halive
  · rw [← h.sweeps, DriveOperation.mem_sweeps] at ht
    obtain ⟨before, after, hsteps⟩ := List.append_of_mem ht
    obtain ⟨hwell, hafter⟩ := h.wellFormed_before hsteps
    have hlast : ∀ s ∈ t :: after.map Prod.fst, s ≤ now := fun s hs =>
      h.past_of_cons s (by rw [hsteps, List.map_append]; exact .tail _ (List.mem_append_right _ hs))
    obtain ⟨-, -, hkept⟩ := (hwell.perform .sweep).2.1.afterAll hafter hlast
    rw [hsteps, performAll_append]
    exact hkept t (Nat.le_refl t) hwell.aliveAt_sweep

theorem SweptOnTime.age_lt (h : (start ttl maxSize).SweptOnTime began now steps)
    {p : Text × Entry} (hp : p ∈ ((start ttl maxSize).performAll steps).2.entries) :
    p.2.age now < ttl + max (ttl / 2) millisecond := by
  obtain ⟨lately, -, hlately, hdue⟩ := exists_lately (start ttl maxSize) h.started
  have hperiod : (start ttl maxSize).sweepPeriod = max (ttl / 2) millisecond := rfl
  have hpos := sweepPeriod_pos (start ttl maxSize)
  have hfresh := h.aliveAt_lately hdue p hp
  obtain ⟨-, httl, -⟩ :=
    (wellFormed_start ttl maxSize began).afterAll h.ordered h.past_of_cons
  rw [isFresh, decide_eq_true_eq, httl] at hfresh
  rw [hperiod] at hlately hpos
  simp only [Entry.age, start] at hfresh ⊢
  unfold Time at *
  omega

theorem dead_drives_swept (ttl : Time) (maxSize : Nat) {began now : Time}
    {steps : DriveOperation.Run} (h : (start ttl maxSize).SweptOnTime began now steps) :
    let period := max (ttl / 2) millisecond
    let cacheAfter (before : DriveOperation.Run) := ((start ttl maxSize).performAll before).2
    (∀ t, (t, .sweep) ∈ steps ↔ t ≤ now ∧ ∃ k, 0 < k ∧ t = began + k * period) ∧
    (∀ t before after, steps = before ++ after → began ≤ t → t ≤ now →
      (∀ step ∈ before, step.1 ≤ t) → (∀ s, (s, .sweep) ∈ after → t < s) →
        ∀ p ∈ (cacheAfter before).entries, p.2.age t < ttl + period) ∧
    ∀ t before after, steps = before ++ (t, .sweep) :: after →
      ∀ key payload, (cacheAfter before).get key t = some payload →
        ((cacheAfter before).sweep t).1.find? key = (cacheAfter before).find? key := by
  intro period cacheAfter
  refine ⟨fun t => ?_, fun t before after hsteps hbegan hnow hbefore hafter p hp => ?_,
    fun t before after hsteps key payload hget => ?_⟩
  · rw [← DriveOperation.mem_sweeps, h.sweeps, mem_sweepTimes_iff (Nat.le_refl began)]
    refine ⟨fun ⟨_, hle, hk⟩ => ⟨hle, hk⟩, fun ⟨hle, k, hk, ht⟩ => ⟨?_, hle, k, hk, ht⟩⟩
    have hpos := Nat.mul_pos hk (sweepPeriod_pos (start ttl maxSize))
    rw [ht]
    exact Nat.lt_add_of_pos_right hpos
  · subst hsteps
    exact (h.upTo hbegan hnow hbefore fun s hs =>
      hafter s (DriveOperation.mem_sweeps.1 hs)).age_lt hp
  · exact (h.wellFormed_before hsteps).1.find?_sweep hget

theorem dead_drives_swept_of_two_sets :
    let steps : DriveOperation.Run :=
      [(1, .set "a".toList [1] "v".toList), (1000000, .sweep),
        (1000000, .set "b".toList [2] "v".toList), (2000000, .sweep), (3000000, .sweep)]
    let last := (start 2000000 9).performAll steps
    (start 2000000 9).SweptOnTime 0 3999999 steps ∧
      last.1 = [.done, .removed 0, .done, .removed 0, .removed 1] ∧
      last.2.get "b".toList 3000000 = some [2] ∧
      last.2.entries.map (fun p => p.2.age 3999999) = [2999999] ∧
      (∀ p ∈ last.2.entries, p.2.age 3999999 < 2000000 + max (2000000 / 2) millisecond) := by
  intro steps last
  have hsweeps : DriveOperation.sweeps steps =
      (start 2000000 9).sweepTimes 0 0 3999999 := by decide
  have h : (start 2000000 9).SweptOnTime 0 3999999 steps :=
    ⟨by decide, by decide, by decide, hsweeps⟩
  refine ⟨h, by decide, by decide, by decide, ?_⟩
  exact (dead_drives_swept 2000000 9 h).2.1 3999999 steps [] (List.append_nil steps).symm
    (by decide) (by decide) (by decide) nofun

end OnTime

section EveryRun

def sweepRun (c : DriveCache) (began last now : Time) : DriveOperation.Run :=
  (c.sweepTimes began last now).map fun t => (t, .sweep)

def withSweeps (c : DriveCache) (began last now : Time) :
    DriveOperation.Run → DriveOperation.Run
  | [] => c.sweepRun began last now
  | (t, op) :: steps => c.sweepRun began last t ++ (t, op) :: c.withSweeps began t now steps

theorem performAll_sweepRun (c : DriveCache) (began last now : Time) :
    (c.performAll (c.sweepRun began last now)).2 = c.sweepThrough began last now := by
  have hsweeps (times : List Time) (d : DriveCache) :
      (d.performAll (times.map fun t => (t, .sweep))).2 =
        times.foldl (fun d t => (d.sweep t).1) d := by
    induction times generalizing d with
    | nil => rfl
    | cons t times ih => exact ih _
  exact hsweeps _ c

theorem sweeps_sweepRun (c : DriveCache) (began last now : Time) :
    DriveOperation.sweeps (c.sweepRun began last now) = c.sweepTimes began last now := by
  rw [DriveOperation.sweeps, sweepRun, List.filter_eq_self.2 (by simp), List.map_map]
  exact List.map_id _

theorem addsSweeps_sweepRun {swept : DriveOperation.Run}
    (h : DriveOperation.AddsSweeps steps swept) :
    DriveOperation.AddsSweeps steps (c.sweepRun began last now ++ swept) := by
  rw [sweepRun]
  induction c.sweepTimes began last now with
  | nil => exact h
  | cons t times ih => exact .sweep t ih

theorem ordered_sweepRun (hbegan : began ≤ last) (hlast : last ≤ t) {times : List Time}
    (htimes : (t :: times).Pairwise (· ≤ ·)) :
    (last :: ((c.sweepRun began last t).map Prod.fst ++ t :: times)).Pairwise (· ≤ ·) := by
  have hdue : (c.sweepRun began last t).map Prod.fst = c.sweepTimes began last t := by
    rw [sweepRun, List.map_map]
    exact List.map_id _
  have hbetween : ∀ s ∈ c.sweepTimes began last t, last < s ∧ s ≤ t := fun s hs =>
    let h := (mem_sweepTimes_iff hbegan).1 hs
    ⟨h.1, h.2.1⟩
  have hlater : ∀ s ∈ t :: times, t ≤ s :=
    List.forall_mem_cons.2 ⟨Nat.le_refl t, (List.pairwise_cons.1 htimes).1⟩
  rw [hdue]
  refine List.pairwise_cons.2 ⟨fun s hs => ?_, List.pairwise_append.2
    ⟨(sweepTimes_increasing c began last t).imp Nat.le_of_lt, htimes, fun s hs s' hs' =>
      Nat.le_trans (hbetween s hs).2 (hlater s' hs')⟩⟩
  rcases List.mem_append.1 hs with hs | hs
  · exact Nat.le_of_lt (hbetween s hs).1
  · exact Nat.le_trans hlast (hlater s hs)

theorem past_sweepRun (hbegan : began ≤ last) (ht : t ≤ now) :
    ∀ step ∈ c.sweepRun began last t, step.1 ≤ now := by
  intro step hstep
  obtain ⟨s, hs, rfl⟩ := List.mem_map.1 hstep
  exact Nat.le_trans ((mem_sweepTimes_iff hbegan).1 hs).2.1 ht

theorem withSweeps_onTime (hbegan : began ≤ last)
    (hordered : (last :: steps.map Prod.fst).Pairwise (· ≤ ·)) (hlast : last ≤ now)
    (hpast : ∀ step ∈ steps, step.1 ≤ now) (hplain : DriveOperation.sweeps steps = []) :
    DriveOperation.AddsSweeps steps (c.withSweeps began last now steps) ∧
      (last :: (c.withSweeps began last now steps).map Prod.fst).Pairwise (· ≤ ·) ∧
      (∀ step ∈ c.withSweeps began last now steps, step.1 ≤ now) ∧
      DriveOperation.sweeps (c.withSweeps began last now steps) = c.sweepTimes began last now := by
  induction steps generalizing last with
  | nil =>
      have hend : (last :: ((c.sweepRun began last now).map Prod.fst ++ [now])).Pairwise (· ≤ ·) :=
        ordered_sweepRun hbegan hlast (List.pairwise_singleton _ _)
      rw [← List.cons_append] at hend
      have hadds : DriveOperation.AddsSweeps [] (c.sweepRun began last now ++ []) :=
        addsSweeps_sweepRun .nil
      rw [List.append_nil] at hadds
      exact ⟨hadds, (List.pairwise_append.1 hend).1, past_sweepRun hbegan (Nat.le_refl now),
        sweeps_sweepRun ..⟩
  | cons step steps ih =>
      obtain ⟨t, op⟩ := step
      obtain ⟨htimes, hlater⟩ := List.pairwise_cons.1 hordered
      have htime : last ≤ t := htimes t (.head _)
      have hnow : t ≤ now := hpast _ (.head _)
      obtain ⟨hop, hplain⟩ : op ≠ .sweep ∧ DriveOperation.sweeps steps = [] := by
        rw [DriveOperation.sweeps_cons] at hplain
        split at hplain
        · exact nomatch hplain
        · exact ⟨‹_›, hplain⟩
      obtain ⟨hadds, hrest, hend, hsweeps⟩ := ih (Nat.le_trans hbegan htime) hlater hnow
        (fun step hstep => hpast step (.tail _ hstep)) hplain
      refine ⟨addsSweeps_sweepRun (.step _ hadds), ?_, ?_, ?_⟩
      · rw [withSweeps, List.map_append]
        exact ordered_sweepRun hbegan htime hrest
      · exact List.forall_mem_append.2
          ⟨past_sweepRun hbegan hnow, List.forall_mem_cons.2 ⟨hnow, hend⟩⟩
      · rw [withSweeps, DriveOperation.sweeps_append, sweeps_sweepRun, DriveOperation.sweeps_cons,
          if_neg hop, hsweeps, sweepTimes_append htime hnow]

theorem performAll_withSweeps_cons (c : DriveCache) (op : DriveOperation) :
    (c.performAll (c.withSweeps began last now ((t, op) :: steps))).2 =
      (((c.sweepThrough began last t).perform t op).2.performAll
        (c.withSweeps began t now steps)).2 := by
  rw [withSweeps, performAll_append, performAll_sweepRun]
  rfl

theorem sweptOnTime_withSweeps (hnow : began ≤ now)
    (hordered : (began :: steps.map Prod.fst).Pairwise (· ≤ ·))
    (hpast : ∀ step ∈ steps, step.1 ≤ now) (hplain : DriveOperation.sweeps steps = []) :
    DriveOperation.AddsSweeps steps (c.withSweeps began began now steps) ∧
      c.SweptOnTime began now (c.withSweeps began began now steps) := by
  obtain ⟨hadds, htimes, hend, hsweeps⟩ :=
    withSweeps_onTime (c := c) (Nat.le_refl began) hordered hnow hpast hplain
  exact ⟨hadds, hnow, htimes, hend, hsweeps⟩

end EveryRun

end DriveCache

end NetBoot
