import NetBoot.Proofs.Drive.Refinement

namespace NetBoot

namespace DriveOperation

inductive AddsSweeps : Run → Run → Prop
  | nil : AddsSweeps [] []
  | step (first : Time × DriveOperation) {steps swept : Run} :
      AddsSweeps steps swept → AddsSweeps (first :: steps) (first :: swept)
  | sweep (now : Time) {steps swept : Run} :
      AddsSweeps steps swept → AddsSweeps steps ((now, .sweep) :: swept)

end DriveOperation

namespace DriveAnswer

def found? : DriveAnswer → Option (Option Bytes)
  | .payload found => some found
  | _ => none

def lookups (answers : List DriveAnswer) : List (Option Bytes) := answers.filterMap found?

end DriveAnswer

namespace DriveQueue

variable {ttl earlier now : Time} {maxSize needed : Nat} {q : DriveQueue}

def fresh (ttl now : Time) (q : DriveQueue) : DriveQueue := q.filter (isFresh ttl now)

structure Ordered (q : DriveQueue) : Prop where
  keys : (q.map DriveItem.key).Nodup
  times : q.Pairwise fun x y => x.inserted ≤ y.inserted

theorem isFresh_of_later {x : DriveItem} (hnow : earlier ≤ now) (h : isFresh ttl now x) :
    isFresh ttl earlier x := by
  simp only [isFresh, decide_eq_true_eq] at h ⊢
  exact Nat.le_trans (Nat.sub_le_sub_right hnow x.inserted) h

theorem isFresh_of_inserted_le {x y : DriveItem} (hxy : x.inserted ≤ y.inserted)
    (h : isFresh ttl now x) : isFresh ttl now y := by
  simp only [isFresh, decide_eq_true_eq] at h ⊢
  exact Nat.le_trans (Nat.sub_le_sub_left hxy now) h

theorem fresh_fresh (hnow : earlier ≤ now) (q : DriveQueue) :
    fresh ttl now (fresh ttl earlier q) = fresh ttl now q := by
  rw [fresh, fresh, fresh, List.filter_filter]
  refine List.filter_congr fun x _ => ?_
  cases hx : isFresh ttl now x with
  | false => rfl
  | true =>
      have hearlier : isFresh ttl earlier x := isFresh_of_later hnow hx
      rw [hearlier, Bool.and_true]

theorem remove_fresh (key : Text) (q : DriveQueue) :
    remove key (fresh ttl now q) = fresh ttl now (remove key q) := by
  rw [remove, fresh, remove, fresh, List.filter_filter, List.filter_filter]
  exact List.filter_congr fun x _ => Bool.and_comm _ _

theorem total_fresh_le (ttl now : Time) (q : DriveQueue) : total (fresh ttl now q) ≤ total q := by
  induction q with
  | nil => exact Nat.le_refl _
  | cons x q ih =>
      simp only [total, fresh, List.filter_cons] at ih ⊢
      split
      · simpa using ih
      · simp only [List.map_cons, List.sum_cons]
        omega

theorem Ordered.tail {x : DriveItem} (h : Ordered (x :: q)) : Ordered q :=
  ⟨(List.nodup_cons.1 h.keys).2, (List.pairwise_cons.1 h.times).2⟩

theorem Ordered.remove (h : Ordered q) (key : Text) : Ordered (remove key q) :=
  ⟨(List.filter_sublist.map _).nodup h.keys, h.times.sublist List.filter_sublist⟩

theorem Ordered.fresh_eq_self {x : DriveItem} (h : Ordered (x :: q)) (hx : isFresh ttl now x) :
    fresh ttl now q = q :=
  List.filter_eq_self.2 fun y hy =>
    isFresh_of_inserted_le ((List.pairwise_cons.1 h.times).1 y hy) hx

/-- What has expired is dropped first, so that it makes no difference to what is dropped of the
rest. -/
theorem Ordered.dropToFit_fresh (h : Ordered q) :
    dropToFit maxSize needed (fresh ttl now q) = fresh ttl now (dropToFit maxSize needed q) := by
  induction q with
  | nil => rfl
  | cons x q ih =>
      by_cases hfits : total (x :: q) + needed ≤ maxSize
      · have hfresh : total (fresh ttl now (x :: q)) + needed ≤ maxSize :=
          Nat.le_trans (Nat.add_le_add_right (total_fresh_le ttl now (x :: q)) needed) hfits
        rw [dropToFit_of_fits hfits, dropToFit_of_fits hfresh]
      · rw [dropToFit, if_neg hfits, ← ih h.tail]
        by_cases hx : isFresh ttl now x
        · have hq : fresh ttl now q = q := h.fresh_eq_self hx
          have hxq : fresh ttl now (x :: q) = x :: q := by
            rw [fresh, List.filter_cons_of_pos hx]
            exact congrArg (x :: ·) hq
          rw [hxq, hq, dropToFit, if_neg hfits]
        · have hxq : fresh ttl now (x :: q) = fresh ttl now q := List.filter_cons_of_neg hx
          rw [hxq]

theorem Ordered.set_fresh (h : Ordered q) (key : Text) (payload : Bytes) (version : Text) :
    set maxSize key payload version now (fresh ttl now q) =
      fresh ttl now (set maxSize key payload version now q) := by
  unfold set
  rw [remove_fresh]
  by_cases hlarge : maxSize < payload.length
  · rw [if_pos hlarge, if_pos hlarge]
  · have hnew : fresh ttl now [⟨key, payload, version, now⟩] =
        [⟨key, payload, version, now⟩] :=
      List.filter_cons_of_pos (by simp [isFresh])
    rw [if_neg hlarge, if_neg hlarge, (h.remove key).dropToFit_fresh, fresh, fresh,
      List.filter_append]
    exact congrArg (_ ++ ·) hnew.symm

theorem Ordered.find?_fresh (h : Ordered q) (key : Text) :
    (find? key (fresh ttl now q)) = (find? key q).filter (isFresh ttl now) := by
  induction q with
  | nil => rfl
  | cons x q ih =>
      by_cases hkey : x.key = key
      · have hrest : find? key (fresh ttl now q) = none := by
          refine List.find?_eq_none.2 fun y hy hykey => ?_
          have hmem : y.key ∈ q.map DriveItem.key :=
            List.mem_map_of_mem (List.mem_filter.1 hy).1
          have hyx : y.key = x.key := (of_decide_eq_true hykey).trans hkey.symm
          exact (List.nodup_cons.1 h.keys).1 (hyx ▸ hmem)
        have hfirst : find? key (x :: q) = some x := List.find?_cons_of_pos (by simpa using hkey)
        by_cases hx : isFresh ttl now x
        · rw [hfirst, Option.filter_some, if_pos hx, fresh, List.filter_cons_of_pos hx]
          exact List.find?_cons_of_pos (by simpa using hkey)
        · rw [hfirst, Option.filter_some, if_neg hx, fresh, List.filter_cons_of_neg hx]
          exact hrest
      · have hskip : find? key (x :: q) = find? key q := List.find?_cons_of_neg (by simpa using hkey)
        rw [hskip, ← ih h.tail]
        by_cases hx : isFresh ttl now x
        · rw [fresh, List.filter_cons_of_pos hx]
          exact List.find?_cons_of_neg (by simpa using hkey)
        · rw [fresh, List.filter_cons_of_neg hx]
          rfl

theorem Ordered.lookup_fresh (h : Ordered q) (key : Text) (f : DriveItem → Bool) :
    (find? key (fresh ttl now q)).filter (fun x => isFresh ttl now x && f x) =
      (find? key q).filter fun x => isFresh ttl now x && f x := by
  rw [h.find?_fresh]
  cases find? key q with
  | none => rfl
  | some x =>
      cases hx : isFresh ttl now x with
      | true => rw [Option.filter_some, if_pos hx]
      | false => simp [Option.filter_some, hx]

theorem Ordered.perform_fresh (h : Ordered q) (op : DriveOperation) :
    (perform ttl maxSize now op (fresh ttl now q)).1.found? =
        (perform ttl maxSize now op q).1.found? ∧
      fresh ttl now (perform ttl maxSize now op (fresh ttl now q)).2 =
        fresh ttl now (perform ttl maxSize now op q).2 := by
  have hself : fresh ttl now (fresh ttl now q) = fresh ttl now q :=
    fresh_fresh (Nat.le_refl now) q
  cases op with
  | set key payload version =>
      refine ⟨rfl, ?_⟩
      dsimp only [perform]
      rw [h.set_fresh, fresh_fresh (Nat.le_refl now)]
  | get key =>
      refine ⟨?_, hself⟩
      have hfind : (find? key (fresh ttl now q)).filter (isFresh ttl now) =
          (find? key q).filter (isFresh ttl now) := by
        simpa only [Bool.and_true] using h.lookup_fresh key fun _ => true
      dsimp only [perform]
      rw [hfind]
  | getIfCurrent key version =>
      refine ⟨?_, hself⟩
      dsimp only [perform]
      rw [h.lookup_fresh]
  | delete key =>
      refine ⟨rfl, ?_⟩
      dsimp only [perform]
      rw [remove_fresh, fresh_fresh (Nat.le_refl now)]
  | sweep =>
      refine ⟨rfl, ?_⟩
      exact congrArg (fresh ttl now) hself

end DriveQueue

namespace DriveCache

variable {c d : DriveCache} {ttl earlier now : Time}

theorem WellFormed.ordered_items (h : c.WellFormed now) : DriveQueue.Ordered c.items where
  keys := by
    have hkeys : c.items.map DriveItem.key = (c.entries.map Prod.fst).reverse := by
      rw [items, List.map_map, List.map_reverse]
      rfl
    rw [hkeys]
    exact List.pairwise_reverse.2 (h.keys.imp Ne.symm)
  times := by
    rw [items, List.pairwise_map, List.pairwise_reverse]
    refine h.ordered.imp fun {p q} hold => ?_
    simp only [Entry.isOlder, Bool.or_eq_true, Bool.and_eq_true, decide_eq_true_eq] at hold
    rcases hold with hlt | ⟨heq, -⟩
    · exact Nat.le_of_lt hlt
    · exact Nat.le_of_eq heq

structure Alike (ttl now : Time) (c d : DriveCache) : Prop where
  left : c.WellFormed now
  right : d.WellFormed now
  left_ttl : c.ttl = ttl
  right_ttl : d.ttl = ttl
  maxSize : d.maxSize = c.maxSize
  fresh : c.items.fresh ttl now = d.items.fresh ttl now

theorem Alike.later (h : Alike ttl earlier c d) (hnow : earlier ≤ now) : Alike ttl now c d :=
  { h with
    left := h.left.later hnow
    right := h.right.later hnow
    fresh := by
      rw [← DriveQueue.fresh_fresh hnow c.items, h.fresh, DriveQueue.fresh_fresh hnow] }

theorem WellFormed.perform_fresh (h : c.WellFormed now) (httl : c.ttl = ttl)
    (op : DriveOperation) :
    (DriveQueue.perform ttl c.maxSize now op (c.items.fresh ttl now)).1.found? =
        (c.perform now op).1.found? ∧
      DriveQueue.fresh ttl now (DriveQueue.perform ttl c.maxSize now op (c.items.fresh ttl now)).2 =
        (c.perform now op).2.items.fresh ttl now := by
  obtain ⟨-, -, hqueue, -⟩ := h.perform op
  rw [httl] at hqueue
  have hitems : (c.perform now op).1 = (DriveQueue.perform ttl c.maxSize now op c.items).1 ∧
      (c.perform now op).2.items = (DriveQueue.perform ttl c.maxSize now op c.items).2 :=
    ⟨(congrArg Prod.fst hqueue).symm, (congrArg Prod.snd hqueue).symm⟩
  rw [hitems.1, hitems.2]
  exact h.ordered_items.perform_fresh op

theorem Alike.perform (h : Alike ttl now c d) (op : DriveOperation) :
    (c.perform now op).1.found? = (d.perform now op).1.found? ∧
      Alike ttl now (c.perform now op).2 (d.perform now op).2 := by
  obtain ⟨-, hleft, -, hcttl, hcmax, -⟩ := h.left.perform op
  obtain ⟨-, hright, -, hdttl, hdmax, -⟩ := h.right.perform op
  obtain ⟨hcfound, hcfresh⟩ := h.left.perform_fresh h.left_ttl op
  obtain ⟨hdfound, hdfresh⟩ := h.right.perform_fresh h.right_ttl op
  rw [h.fresh, ← h.maxSize] at hcfound hcfresh
  exact ⟨hcfound.symm.trans hdfound, hleft, hright, hcttl.trans h.left_ttl,
    hdttl.trans h.right_ttl, by rw [hdmax, hcmax, h.maxSize], hcfresh.symm.trans hdfresh⟩

theorem Alike.sweep (h : Alike ttl now c d) : Alike ttl now c (d.perform now .sweep).2 := by
  obtain ⟨-, hright, hqueue, hdttl, hdmax, -⟩ := h.right.perform .sweep
  have hswept : d.items.fresh ttl now = (d.perform now .sweep).2.items := by
    rw [← h.right_ttl]
    exact congrArg Prod.snd hqueue
  refine ⟨h.left, hright, h.left_ttl, hdttl.trans h.right_ttl, hdmax.trans h.maxSize, ?_⟩
  rw [← hswept, DriveQueue.fresh_fresh (Nat.le_refl now)]
  exact h.fresh

theorem Alike.performAll {steps swept : DriveOperation.Run}
    (hadds : DriveOperation.AddsSweeps steps swept) (h : Alike ttl earlier c d)
    (htimes : (earlier :: swept.map Prod.fst).Pairwise (· ≤ ·)) :
    DriveAnswer.lookups (c.performAll steps).1 = DriveAnswer.lookups (d.performAll swept).1 ∧
      ∀ now, (∀ t ∈ earlier :: swept.map Prod.fst, t ≤ now) →
        Alike ttl now (c.performAll steps).2 (d.performAll swept).2 := by
  induction hadds generalizing c d earlier with
  | nil => exact ⟨rfl, fun now hlast => h.later (hlast earlier (.head _))⟩
  | step first _ ih =>
      obtain ⟨now, op⟩ := first
      obtain ⟨hearlier, hlater⟩ := List.pairwise_cons.1 htimes
      obtain ⟨hfound, hnext⟩ := (h.later (hearlier now (.head _))).perform op
      obtain ⟨hlookups, hend⟩ := ih hnext hlater
      refine ⟨?_, fun last hlast => hend last fun t ht => hlast t (.tail _ ht)⟩
      change DriveAnswer.lookups ((c.perform now op).1 :: _) =
        DriveAnswer.lookups ((d.perform now op).1 :: _)
      rw [DriveAnswer.lookups, List.filterMap_cons, hfound, DriveAnswer.lookups,
        List.filterMap_cons]
      split
      · exact hlookups
      · exact congrArg (_ :: ·) hlookups
  | sweep now _ ih =>
      obtain ⟨hearlier, hlater⟩ := List.pairwise_cons.1 htimes
      obtain ⟨hlookups, hend⟩ := ih (h.later (hearlier now (.head _))).sweep hlater
      exact ⟨hlookups, fun last hlast => hend last fun t ht => hlast t (.tail _ ht)⟩

theorem performAll_of_addsSweeps (ttl : Time) (maxSize : Nat) {steps swept : DriveOperation.Run}
    (hadds : DriveOperation.AddsSweeps steps swept)
    (htimes : (swept.map Prod.fst).Pairwise (· ≤ ·)) :
    let plain := (start ttl maxSize).performAll steps
    let other := (start ttl maxSize).performAll swept
    DriveAnswer.lookups plain.1 = DriveAnswer.lookups other.1 ∧
      ∀ now, (∀ step ∈ swept, step.1 ≤ now) →
        plain.2.items.fresh ttl now = other.2.items.fresh ttl now := by
  intro plain other
  have hstart : (start ttl maxSize).WellFormed 0 := wellFormed_start ttl maxSize 0
  have halike : Alike ttl 0 (start ttl maxSize) (start ttl maxSize) :=
    ⟨hstart, hstart, rfl, rfl, rfl, rfl⟩
  have htimes : (0 :: swept.map Prod.fst).Pairwise (· ≤ ·) :=
    List.pairwise_cons.2 ⟨fun _ _ => Nat.zero_le _, htimes⟩
  obtain ⟨hlookups, hend⟩ := halike.performAll hadds htimes
  refine ⟨hlookups, fun now hlast => (hend now fun t ht => ?_).fresh⟩
  rcases List.mem_cons.1 ht with rfl | ht
  · exact Nat.zero_le _
  · obtain ⟨step, hstep, rfl⟩ := List.mem_map.1 ht
    exact hlast step hstep

theorem performAll_of_addsSweeps_of_three_sets :
    let steps : DriveOperation.Run :=
      [(0, .set "a".toList [1] "v".toList), (5, .set "b".toList [2] "v".toList),
        (12, .set "c".toList [3] "w".toList), (15, .getIfCurrent "b".toList "v".toList),
        (16, .get "b".toList), (16, .get "c".toList)]
    let swept : DriveOperation.Run :=
      [(0, .set "a".toList [1] "v".toList), (5, .set "b".toList [2] "v".toList), (11, .sweep),
        (12, .set "c".toList [3] "w".toList), (15, .getIfCurrent "b".toList "v".toList),
        (16, .get "b".toList), (16, .sweep), (16, .get "c".toList)]
    let plain := (start 10 2).performAll steps
    let other := (start 10 2).performAll swept
    DriveOperation.AddsSweeps steps swept ∧ (swept.map Prod.fst).Pairwise (· ≤ ·) ∧
      DriveAnswer.lookups plain.1 = DriveAnswer.lookups other.1 ∧
      DriveAnswer.lookups plain.1 = [some [2], none, some [3]] ∧
      plain.2.items.fresh 10 16 = other.2.items.fresh 10 16 ∧
      plain.2.length = other.2.length + 1 ∧ plain.2.size = other.2.size + 1 := by
  intro steps swept plain other
  have hadds : DriveOperation.AddsSweeps steps swept :=
    .step _ (.step _ (.sweep _ (.step _ (.step _ (.step _ (.sweep _ (.step _ .nil)))))))
  have htimes : (swept.map Prod.fst).Pairwise (· ≤ ·) := by decide
  have h := performAll_of_addsSweeps 10 2 hadds htimes
  exact ⟨hadds, htimes, h.1, by decide, h.2 16 (by decide), by decide, by decide⟩

end DriveCache

end NetBoot
