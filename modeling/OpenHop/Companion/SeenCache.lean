import OpenHop.Companion.Messages

/-! # How long a seen message is remembered

A cache of seen hashes looks a key up before it drops what is too old, and it drops only
when it records. A key therefore outlives its time to live until the next recording of
another one.
-/

namespace OpenHop.SeenCache

/-- The cache after calls with the given keys and clock readings. -/
def afterCalls (cache : SeenCache) (calls : List (Bytes × ℚ)) : SeenCache :=
  calls.foldl (fun cache call => (cache.checkAndAdd call.1 call.2).2) cache

/-- The calls that returned false. -/
def recorded (cache : SeenCache) : List (Bytes × ℚ) → List (Bytes × ℚ)
  | [] => []
  | call :: calls =>
    let rest := recorded (cache.checkAndAdd call.1 call.2).2 calls
    if (cache.checkAndAdd call.1 call.2).1 then rest else call :: rest

theorem afterCalls_concat (cache : SeenCache) (calls : List (Bytes × ℚ)) (call : Bytes × ℚ) :
    cache.afterCalls (calls ++ [call]) =
      ((cache.afterCalls calls).checkAndAdd call.1 call.2).2 := by
  rw [afterCalls, List.foldl_append]
  rfl

theorem recorded_concat (cache : SeenCache) (calls : List (Bytes × ℚ)) (call : Bytes × ℚ) :
    cache.recorded (calls ++ [call]) = cache.recorded calls ++
      if ((cache.afterCalls calls).checkAndAdd call.1 call.2).1 then [] else [call] := by
  induction calls generalizing cache with
  | nil => rfl
  | cons d calls ih =>
    have hafter : cache.afterCalls (d :: calls) =
        (cache.checkAndAdd d.1 d.2).2.afterCalls calls := rfl
    rw [List.cons_append, recorded, recorded, ih, hafter]
    cases (cache.checkAndAdd d.1 d.2).1 <;> rfl

theorem recorded_sublist (cache : SeenCache) (calls : List (Bytes × ℚ)) :
    (cache.recorded calls).Sublist calls := by
  induction calls generalizing cache with
  | nil => exact List.Sublist.refl _
  | cons d calls ih =>
    rw [recorded]
    split
    · exact (ih _).cons d
    · exact (ih _).cons_cons d

theorem checkAndAdd_hit_iff (cache : SeenCache) (key : Bytes) (now : ℚ) :
    (cache.checkAndAdd key now).1 = true ↔ key ∈ cache.entries.entries.map Prod.fst := by
  rw [← Dict.keys, ← Dict.contains_iff, checkAndAdd]
  split <;> simp_all

theorem checkAndAdd_of_hit {cache : SeenCache} {key : Bytes} {now : ℚ}
    (h : (cache.checkAndAdd key now).1 = true) : (cache.checkAndAdd key now).2 = cache := by
  rw [checkAndAdd] at h ⊢
  split at h
  · rename_i hcontains
    rw [if_pos hcontains]
  · cases h

theorem entries_checkAndAdd {cache : SeenCache} {key : Bytes} {now : ℚ}
    (h : (cache.checkAndAdd key now).1 = false)
    (hsorted : cache.entries.entries.Pairwise fun a b => a.2 ≤ b.2) :
    (cache.checkAndAdd key now).2.entries.entries =
      Recency.present cache.maxSize cache.ttl cache.entries.entries (key, now) := by
  have habsent : key ∉ cache.entries.entries.map Prod.fst := by
    rw [← checkAndAdd_hit_iff cache key now, h]
    exact Bool.false_ne_true
  have hcontains : cache.entries.contains key = false := by
    rw [← Bool.not_eq_true, Dict.contains_iff]
    exact habsent
  have hfilter : (cache.entries.filter fun _ ts => !decide (now - ts > cache.ttl)).entries =
      cache.entries.entries.dropWhile fun e => cache.ttl < now - e.2 := by
    rw [← Recency.filter_not_expired _ _ hsorted]
    simp only [Dict.filter, ← decide_not, gt_iff_lt, not_lt]
  have hdropped : key ∉ (cache.entries.entries.dropWhile
      fun e => cache.ttl < now - e.2).map Prod.fst :=
    fun hmem => habsent (((List.dropWhile_suffix _).sublist.map _).subset hmem)
  have hset : ((cache.entries.filter fun _ ts => !decide (now - ts > cache.ttl)).set
      key now).entries = Recency.touch (cache.entries.entries.dropWhile
        fun e => cache.ttl < now - e.2) (key, now) := by
    rw [Dict.set]
    dsimp only
    rw [hfilter, Dict.assign_of_not_mem hdropped, Recency.touch, List.filter_eq_self.mpr]
    intro e he
    exact decide_eq_true fun heq => hdropped (List.mem_map.mpr ⟨e, he, heq⟩)
  simp only [checkAndAdd, hcontains, Bool.false_eq_true, if_false, apply_ite Dict.entries,
    Dict.popFirst, Dict.size, hset, gt_iff_lt]
  rfl

variable {calls : List (Bytes × ℚ)} {ttl : ℚ} {maxSize : ℕ}

theorem afterCalls_eq (cache : SeenCache) (calls : List (Bytes × ℚ)) :
    (cache.afterCalls calls).ttl = cache.ttl ∧
      (cache.afterCalls calls).maxSize = cache.maxSize := by
  induction calls using List.reverseRecOn with
  | nil => exact ⟨rfl, rfl⟩
  | append_singleton calls call ih =>
    rw [afterCalls_concat, checkAndAdd]
    split <;> exact ih

theorem entries_afterCalls (ttl : ℚ) (maxSize : ℕ)
    (hclock : calls.Pairwise fun a b => a.2 ≤ b.2) :
    (afterCalls { ttl, maxSize } calls).entries.entries =
      (recorded { ttl, maxSize } calls).foldl (Recency.present maxSize ttl) [] := by
  induction calls using List.reverseRecOn with
  | nil => rfl
  | append_singleton calls call ih =>
    obtain ⟨hclock, -, hlast⟩ := List.pairwise_append.mp hclock
    rw [afterCalls_concat, recorded_concat]
    cases hseen : ((afterCalls { ttl, maxSize } calls).checkAndAdd call.1 call.2).1 with
    | true =>
      rw [checkAndAdd_of_hit hseen, if_pos rfl, List.append_nil]
      exact ih hclock
    | false =>
      have hrecorded := hclock.sublist (recorded_sublist { ttl, maxSize } calls)
      have htracks := Recency.tracks_foldl_present maxSize ttl hrecorded
        fun x hx => hlast x ((recorded_sublist _ _).subset hx) call List.mem_cons_self
      have hsorted := hrecorded.sublist
        (htracks.suffix.sublist.trans (Recency.latest_sublist _))
      rw [← ih hclock] at hsorted
      obtain ⟨httl, hmax⟩ := afterCalls_eq { ttl, maxSize } calls
      rw [entries_checkAndAdd hseen hsorted, httl, hmax, ih hclock, if_neg Bool.false_ne_true,
        List.foldl_append]
      rfl

/-- A key is reported as long as nothing recorded since was late enough to find it expired and
there was room for it. -/
theorem checkAndAdd_iff_kept (ttl : ℚ) (maxSize : ℕ)
    (hclock : calls.Pairwise fun a b => a.2 ≤ b.2) (key : Bytes) (now : ℚ) :
    ((afterCalls { ttl, maxSize } calls).checkAndAdd key now).1 = true ↔
      Recency.Kept maxSize ttl (recorded { ttl, maxSize } calls) key := by
  rw [checkAndAdd_hit_iff, entries_afterCalls ttl maxSize hclock]
  exact Recency.mem_keys_foldl_present_iff_kept maxSize ttl
    (hclock.sublist (recorded_sublist _ calls))

/-- The key was recorded at most `ttl` ago and fewer than `maxSize` keys were recorded since. -/
def RecordedWithin (ttl : ℚ) (maxSize : ℕ) (recordings : List (Bytes × ℚ)) (key : Bytes)
    (now : ℚ) : Prop :=
  ∃ before t since, recordings = before ++ (key, t) :: since ∧ now - t ≤ ttl ∧
    (since.map Prod.fst).toFinset.card < maxSize

/-- The last recording of the key is older than the time to live, but it was not when another key
was recorded last, and there is room for it. -/
def Outlived (ttl : ℚ) (maxSize : ℕ) (recordings : List (Bytes × ℚ)) (key : Bytes)
    (now : ℚ) : Prop :=
  ∃ before t since, recordings = before ++ (key, t) :: since ∧ key ∉ since.map Prod.fst ∧
    ttl < now - t ∧ (∀ e ∈ since, e.2 - t ≤ ttl) ∧
    (since.map Prod.fst).toFinset.card < maxSize

variable {recordings : List (Bytes × ℚ)} {key : Bytes} {now : ℚ}

theorem recordedWithin_iff_recent (hsorted : recordings.Pairwise fun a b => a.2 ≤ b.2) :
    RecordedWithin ttl maxSize recordings key now ↔
      Recency.Recent maxSize ttl recordings key now := by
  constructor
  · rintro ⟨before, t, since, rfl, hage, hcard⟩
    exact Recency.recent_of_presented hsorted hage (Finset.card_erase_le.trans_lt hcard)
  · rintro ⟨before, t, since, hsplit, -, hage, hcard⟩
    exact ⟨before, t, since, hsplit, hage, hcard⟩

theorem kept_iff (hsorted : recordings.Pairwise fun a b => a.2 ≤ b.2)
    (hnow : ∀ e ∈ recordings, e.2 ≤ now) :
    Recency.Kept maxSize ttl recordings key ↔
      RecordedWithin ttl maxSize recordings key now ∨ Outlived ttl maxSize recordings key now := by
  rw [recordedWithin_iff_recent hsorted]
  constructor
  · rintro ⟨before, t, since, hsplit, hsince, hage, hcard⟩
    rcases le_or_gt (now - t) ttl with hyoung | hold
    · exact Or.inl ⟨before, t, since, hsplit, hsince, hyoung, hcard⟩
    · exact Or.inr ⟨before, t, since, hsplit, hsince, hold, hage, hcard⟩
  · rintro (⟨before, t, since, rfl, hsince, hyoung, hcard⟩ |
      ⟨before, t, since, hsplit, hsince, -, hage, hcard⟩)
    · refine ⟨before, t, since, rfl, hsince, fun e he => ?_, hcard⟩
      exact (sub_le_sub_right (hnow e (by simp [he])) t).trans hyoung
    · exact ⟨before, t, since, hsplit, hsince, hage, hcard⟩

theorem Outlived.not_recordedWithin (h : Outlived ttl maxSize recordings key now)
    (hsorted : recordings.Pairwise fun a b => a.2 ≤ b.2) :
    ¬RecordedWithin ttl maxSize recordings key now := by
  rw [recordedWithin_iff_recent hsorted]
  rintro ⟨before, t, since, hsplit, hsince, hyoung, -⟩
  obtain ⟨before', t', since', hsplit', hsince', hold, -⟩ := h
  obtain rfl := Recency.last_unique (hsplit.symm.trans hsplit') hsince hsince'
  exact absurd hyoung (not_le.mpr hold)

/-- A call reports just the keys recorded within the time to live, unless its key has outlived it;
and the cache never holds more than `maxSize` keys. -/
theorem checkAndAdd_recordedWithin_iff (ttl : ℚ) (maxSize : ℕ) (calls : List (Bytes × ℚ))
    (key : Bytes) (now : ℚ)
    (hclock : (calls ++ [(key, now)]).Pairwise fun a b => a.2 ≤ b.2) :
    ((((afterCalls { ttl, maxSize } calls).checkAndAdd key now).1 = true ↔
        RecordedWithin ttl maxSize (recorded { ttl, maxSize } calls) key now) ↔
      ¬Outlived ttl maxSize (recorded { ttl, maxSize } calls) key now) ∧
      (afterCalls { ttl, maxSize } calls).entries.size ≤ maxSize := by
  obtain ⟨hclock, -, hlast⟩ := List.pairwise_append.mp hclock
  have hsublist := recorded_sublist { ttl, maxSize } calls
  have hsorted := hclock.sublist hsublist
  have hnow : ∀ e ∈ recorded { ttl, maxSize } calls, e.2 ≤ now :=
    fun e he => hlast e (hsublist.subset he) (key, now) List.mem_cons_self
  constructor
  · rw [checkAndAdd_iff_kept ttl maxSize hclock, kept_iff hsorted hnow]
    constructor
    · intro hiff hold
      exact hold.not_recordedWithin hsorted (hiff.mp (Or.inr hold))
    · intro hold
      exact or_iff_left hold
  · rw [Dict.size, entries_afterCalls ttl maxSize hclock]
    exact Recency.length_foldl_present_le maxSize ttl _

/-- A message seen once is still reported when nothing else came in for longer than the time to
live. -/
theorem checkAndAdd_outlived :
    ((afterCalls {} [([1], 0)]).checkAndAdd [1] 400).1 = true ∧
      ¬RecordedWithin 300 1000 (recorded {} [([1], 0)]) [1] 400 := by
  refine ⟨by decide +kernel, ?_⟩
  have houtlived : Outlived 300 1000 [([1], 0)] [1] 400 :=
    ⟨[], 0, [], rfl, List.not_mem_nil, by decide +kernel, List.forall_mem_nil _, by decide⟩
  exact houtlived.not_recordedWithin (List.pairwise_singleton _ _)

/-- A copy within the time to live is reported for its recording, which another one in between does
not change. -/
theorem checkAndAdd_recordedWithin_iff_copy :
    let calls : List (Bytes × ℚ) := [([1], 0), ([2], 100)]
    ¬Outlived 300 1000 (recorded {} calls) [1] 200 ∧
      RecordedWithin 300 1000 (recorded {} calls) [1] 200 := by
  intro calls
  have hyoung : ¬Outlived 300 1000 (recorded {} calls) [1] 200 := by
    rintro ⟨before, t, since, hsplit, -, hold, -⟩
    have hmem : ([1], t) ∈ recorded {} calls := by simp [hsplit]
    have hages : ∀ e ∈ recorded {} calls, 200 - e.2 ≤ 300 := by decide +kernel
    exact absurd hold (not_lt.mpr (hages _ hmem))
  refine ⟨hyoung, ?_⟩
  exact ((checkAndAdd_recordedWithin_iff 300 1000 calls [1] 200
    (by decide +kernel)).1.mpr hyoung).mp (by decide +kernel)

end OpenHop.SeenCache
