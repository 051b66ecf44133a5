import OpenHop.Protocol.PacketFilter

/-! # Maintenance of the packet filter

The filter is told about packets and malformed frames, asked about them, and cleaned up now
and then. A clean-up changes how full the blacklist is, and so which entries a full
blacklist loses later.
-/

namespace OpenHop.PacketFilter

/-- The calls a dispatcher makes on its filter. -/
inductive FilterCall where
  | trackPacket (packetHash : Bytes)
  | blacklist (packetHash : Bytes)
  | isDuplicate (packetHash : Bytes)
  | isBlacklisted (packetHash : Bytes)
  | cleanupOldHashes
deriving DecidableEq, Repr

/-- The filter after a call at the time that goes with it. -/
def call (f : PacketFilter) : FilterCall × ℚ → PacketFilter
  | (.trackPacket packetHash, now) => f.trackPacket packetHash now
  | (.blacklist packetHash, now) => f.blacklist packetHash now
  | (.cleanupOldHashes, now) => f.cleanupOldHashes now
  | (.isDuplicate _, _) | (.isBlacklisted _, _) => f

/-- What the call returns, for the two questions. -/
def answer (f : PacketFilter) : FilterCall × ℚ → Option Bool
  | (.isDuplicate packetHash, now) => some (f.isDuplicate packetHash now)
  | (.isBlacklisted packetHash, now) => some (f.isBlacklisted packetHash now)
  | (.trackPacket _, _) | (.blacklist _, _) | (.cleanupOldHashes, _) => none

def afterCalls (f : PacketFilter) (calls : List (FilterCall × ℚ)) : PacketFilter :=
  calls.foldl call f

/-- The answers of a run, in order. -/
def answers (f : PacketFilter) : List (FilterCall × ℚ) → List Bool
  | [] => []
  | c :: calls => (f.answer c).toList ++ (f.call c).answers calls

theorem afterCalls_concat (f : PacketFilter) (calls : List (FilterCall × ℚ)) (c : FilterCall × ℚ) :
    f.afterCalls (calls ++ [c]) = (f.afterCalls calls).call c := by
  rw [afterCalls, List.foldl_append]
  rfl

theorem answers_concat (f : PacketFilter) (calls : List (FilterCall × ℚ)) (c : FilterCall × ℚ) :
    f.answers (calls ++ [c]) = f.answers calls ++ ((f.afterCalls calls).answer c).toList := by
  induction calls generalizing f with
  | nil => simp [answers, afterCalls]
  | cons d calls ih =>
    rw [List.cons_append, answers, answers, ih, List.append_assoc]
    rfl

def lastTracked (table : Bytes → Option ℚ) : FilterCall × ℚ → Bytes → Option ℚ
  | (.trackPacket packetHash, now) => Function.update table packetHash (some now)
  | _ => table

def tracked (calls : List (FilterCall × ℚ)) : Bytes → Option ℚ :=
  calls.foldl lastTracked fun _ => none

def blacklisting : FilterCall × ℚ → Option (Bytes × ℚ)
  | (.blacklist packetHash, now) => some (packetHash, now)
  | _ => none

def blacklistings (calls : List (FilterCall × ℚ)) : List (Bytes × ℚ) :=
  calls.filterMap blacklisting

def isCleanup (c : FilterCall × ℚ) : Bool := c.1 = .cleanupOldHashes

theorem tracked_concat (calls : List (FilterCall × ℚ)) (c : FilterCall × ℚ) :
    tracked (calls ++ [c]) = lastTracked (tracked calls) c := by
  rw [tracked, List.foldl_append]
  rfl

theorem blacklistings_concat (calls : List (FilterCall × ℚ)) (c : FilterCall × ℚ) :
    blacklistings (calls ++ [c]) = blacklistings calls ++ (blacklisting c).toList := by
  rw [blacklistings, List.filterMap_append]
  cases h : blacklisting c <;> simp [blacklistings, h]

theorem told_of_isCleanup {c : FilterCall × ℚ} (h : isCleanup c = true) :
    (∀ table, lastTracked table c = table) ∧ blacklisting c = none := by
  obtain ⟨call, now⟩ := c
  obtain rfl : call = .cleanupOldHashes := of_decide_eq_true h
  exact ⟨fun _ => rfl, rfl⟩

theorem tracked_filter (calls : List (FilterCall × ℚ)) :
    tracked (calls.filter fun c => !isCleanup c) = tracked calls := by
  induction calls using List.reverseRecOn with
  | nil => rfl
  | append_singleton calls c ih =>
    rw [tracked_concat, List.filter_append]
    cases hc : isCleanup c with
    | true => simp [hc, ih, (told_of_isCleanup hc).1]
    | false => simp [hc, tracked_concat, ih]

theorem blacklistings_filter (calls : List (FilterCall × ℚ)) :
    blacklistings (calls.filter fun c => !isCleanup c) = blacklistings calls := by
  induction calls using List.reverseRecOn with
  | nil => rfl
  | append_singleton calls c ih =>
    rw [blacklistings_concat, List.filter_append]
    cases hc : isCleanup c with
    | true => simp [hc, ih, (told_of_isCleanup hc).2]
    | false => simp [hc, blacklistings_concat, ih]

/-- The filter knows what it was told up to what is too old, and its blacklist up to what there
was no room for. -/
structure Keeps (f : PacketFilter) (calls : List (FilterCall × ℚ)) (now : ℚ) : Prop where
  hashes : SeenTable.Forgets f.windowSeconds now (tracked calls) f.packetHashes.get?
  blacklist : Recency.Tracks blacklistMaxEntries blacklistTtlSeconds now (blacklistings calls)
    f.blacklisted.entries
  size : f.blacklisted.size ≤ blacklistMaxEntries

variable {f : PacketFilter} {calls : List (FilterCall × ℚ)} {now later : ℚ}

theorem keeps_nil (windowSeconds now : ℚ) :
    Keeps { windowSeconds } [] now where
  hashes := SeenTable.forgets_refl _ _ _
  blacklist := Recency.tracks_nil _ _ _
  size := Nat.zero_le _

theorem Keeps.mono (h : f.Keeps calls now) (hle : now ≤ later) : f.Keeps calls later :=
  ⟨h.hashes.mono_now hle, h.blacklist.mono hle, h.size⟩

theorem Keeps.silent {c : FilterCall × ℚ} (h : f.Keeps calls now)
    (htracked : ∀ table, lastTracked table c = table) (hblacklisting : blacklisting c = none) :
    f.Keeps (calls ++ [c]) now where
  hashes := by
    rw [tracked_concat, htracked]
    exact h.hashes
  blacklist := by
    rw [blacklistings_concat, hblacklisting, Option.toList_none, List.append_nil]
    exact h.blacklist
  size := h.size

theorem Keeps.trackPacket (h : f.Keeps calls now) (packetHash : Bytes) :
    (f.trackPacket packetHash now).Keeps (calls ++ [(.trackPacket packetHash, now)]) now where
  hashes := by
    have hget : (f.trackPacket packetHash now).packetHashes.get? =
        Function.update f.packetHashes.get? packetHash (some now) := by
      ext1 k
      simp [PacketFilter.trackPacket, Function.update_apply]
    rw [hget, tracked_concat]
    exact h.hashes.note packetHash now
  blacklist := by
    have hsilent : blacklisting (.trackPacket packetHash, now) = none := rfl
    rw [blacklistings_concat, hsilent, Option.toList_none, List.append_nil]
    exact h.blacklist
  size := h.size

theorem entries_blacklist (f : PacketFilter) (packetHash : Bytes) (now : ℚ) :
    (f.blacklist packetHash now).blacklisted.entries =
      let entries := Recency.touch f.blacklisted.entries (packetHash, now)
      if blacklistMaxEntries < entries.length then entries.tail else entries := by
  have hset : (f.blacklisted.setLast packetHash now).entries =
      Recency.touch f.blacklisted.entries (packetHash, now) := Dict.entries_setLast _ _ _
  simp only [PacketFilter.blacklist, apply_ite Dict.entries, Dict.popFirst, Dict.size, hset,
    gt_iff_lt]

theorem Keeps.blacklisted (h : f.Keeps calls now) (packetHash : Bytes) :
    (f.blacklist packetHash now).Keeps (calls ++ [(.blacklist packetHash, now)]) now where
  hashes := by
    rw [tracked_concat]
    exact h.hashes
  blacklist := by
    have htouch := h.blacklist.touch (packetHash, now)
    rw [entries_blacklist, blacklistings_concat]
    dsimp only
    split
    · rename_i hfull
      exact htouch.tail hfull
    · exact htouch
  size := by
    have hsize := h.size
    have htouch := Recency.length_touch_le f.blacklisted.entries (packetHash, now)
    rw [Dict.size] at hsize ⊢
    rw [entries_blacklist]
    dsimp only
    split
    · rw [List.length_tail]
      omega
    · omega

theorem Keeps.sorted (h : f.Keeps calls now) (hclock : calls.Pairwise fun a b => a.2 ≤ b.2) :
    f.blacklisted.entries.Pairwise fun a b => a.2 ≤ b.2 := by
  have htold : (blacklistings calls).Pairwise fun a b => a.2 ≤ b.2 := by
    refine hclock.filterMap _ fun a a' hle b hb b' hb' => ?_
    rcases a with ⟨_ | _ | _ | _ | _, t⟩ <;> cases hb
    rcases a' with ⟨_ | _ | _ | _ | _, t'⟩ <;> cases hb'
    exact hle
  exact htold.sublist (h.blacklist.suffix.sublist.trans (Recency.latest_sublist _))

/-- Cleaning up removes what is too old from the tables, which for the blacklist is at its old
end. -/
theorem Keeps.cleanupOldHashes (h : f.Keeps calls now)
    (hclock : calls.Pairwise fun a b => a.2 ≤ b.2) :
    (f.cleanupOldHashes now).Keeps calls now where
  hashes := by
    refine h.hashes.trans fun k => ?_
    simp only [PacketFilter.cleanupOldHashes, Dict.get?_filter]
    cases hk : f.packetHashes.get? k with
    | none => exact Or.inl rfl
    | some seen =>
      by_cases hold : now - seen > f.windowSeconds
      · exact Or.inr ⟨by simp [Option.filter, hold], seen, rfl, hold⟩
      · exact Or.inl (by simp [Option.filter, hold])
  blacklist := by
    have hentries : (f.cleanupOldHashes now).blacklisted.entries =
        f.blacklisted.entries.dropWhile fun e => blacklistTtlSeconds < now - e.2 := by
      rw [← Recency.filter_not_expired _ _ (h.sorted hclock)]
      simp only [PacketFilter.cleanupOldHashes, Dict.filter, ← decide_not, gt_iff_lt, not_lt]
    rw [hentries]
    exact h.blacklist.expire
  size := (List.length_filter_le _ _).trans h.size

theorem Keeps.call {c : FilterCall × ℚ} (h : f.Keeps calls now) (hle : now ≤ c.2)
    (hclock : calls.Pairwise fun a b => a.2 ≤ b.2) : (f.call c).Keeps (calls ++ [c]) c.2 := by
  obtain ⟨c, later⟩ := c
  have hlater : f.Keeps calls later := h.mono hle
  cases c with
  | trackPacket packetHash => exact hlater.trackPacket packetHash
  | blacklist packetHash => exact hlater.blacklisted packetHash
  | cleanupOldHashes => exact (hlater.cleanupOldHashes hclock).silent (fun _ => rfl) rfl
  | isDuplicate packetHash | isBlacklisted packetHash => exact hlater.silent (fun _ => rfl) rfl

theorem keeps_afterCalls (windowSeconds : ℚ) (hclock : calls.Pairwise fun a b => a.2 ≤ b.2)
    (hnow : ∀ c ∈ calls, c.2 ≤ now) :
    (afterCalls { windowSeconds } calls).Keeps calls now := by
  induction calls using List.reverseRecOn generalizing now with
  | nil => exact keeps_nil windowSeconds now
  | append_singleton calls c ih =>
    obtain ⟨hclock, -, hlast⟩ := List.pairwise_append.mp hclock
    rw [afterCalls_concat]
    have hbefore := ih hclock fun d hd => hlast d hd c List.mem_cons_self
    exact (hbefore.call le_rfl hclock).mono (hnow c (by simp))

theorem windowSeconds_afterCalls (f : PacketFilter) (calls : List (FilterCall × ℚ)) :
    (f.afterCalls calls).windowSeconds = f.windowSeconds := by
  induction calls using List.reverseRecOn with
  | nil => rfl
  | append_singleton calls c ih =>
    rw [afterCalls_concat, ← ih]
    rcases c with ⟨_ | _ | _ | _ | _, t⟩ <;> rfl

theorem Keeps.isDuplicate_iff (h : f.Keeps calls now) (packetHash : Bytes) :
    f.isDuplicate packetHash now = true ↔
      ∃ seen, tracked calls packetHash = some seen ∧ now - seen < f.windowSeconds := by
  rw [← h.hashes.recent_iff packetHash, isDuplicate]
  cases hg : f.packetHashes.get? packetHash <;> simp

/-- The latest blacklisting of the hash is younger than the time to live, and fewer other hashes
than there is room for were blacklisted since. -/
def StillBlacklisted (calls : List (FilterCall × ℚ)) (packetHash : Bytes) (now : ℚ) : Prop :=
  ∃ before insertedAt since,
    blacklistings calls = before ++ (packetHash, insertedAt) :: since ∧
    packetHash ∉ since.map Prod.fst ∧ now - insertedAt < blacklistTtlSeconds ∧
    (since.map Prod.fst).toFinset.card < blacklistMaxEntries

theorem Keeps.isBlacklisted_iff (h : f.Keeps calls now) (packetHash : Bytes) :
    f.isBlacklisted packetHash now = true ↔ StillBlacklisted calls packetHash now := by
  have hget : f.isBlacklisted packetHash now = true ↔ ∃ insertedAt,
      (packetHash, insertedAt) ∈ f.blacklisted.entries ∧
        now - insertedAt < blacklistTtlSeconds := by
    simp only [← Dict.get?_eq_some_iff, isBlacklisted]
    cases f.blacklisted.get? packetHash with
    | none => simp
    | some insertedAt => simp only [Option.some.injEq, exists_eq_left', decide_eq_true_eq]
  rw [hget]
  constructor
  · rintro ⟨insertedAt, hmem, hage⟩
    obtain ⟨before, since, hsplit, hsince, hcard⟩ := h.blacklist.split_of_mem hmem
    exact ⟨before, insertedAt, since, hsplit, hsince, hage, hcard.trans_le h.size⟩
  · rintro ⟨before, insertedAt, since, hsplit, hsince, hage, hcard⟩
    exact ⟨insertedAt, h.blacklist.mem_of_split hsplit hsince hage.le hcard, hage⟩

theorem Keeps.answer_eq {g : PacketFilter} {kept : List (FilterCall × ℚ)} {c : FilterCall × ℚ}
    (h : f.Keeps calls c.2) (h' : g.Keeps kept c.2) (hwindow : f.windowSeconds = g.windowSeconds)
    (htracked : tracked calls = tracked kept)
    (hblacklistings : blacklistings calls = blacklistings kept) : f.answer c = g.answer c := by
  obtain ⟨c, later⟩ := c
  cases c with
  | trackPacket | blacklist | cleanupOldHashes => rfl
  | isDuplicate packetHash =>
    apply congrArg some
    rw [Bool.eq_iff_iff, h.isDuplicate_iff, h'.isDuplicate_iff, htracked, hwindow]
  | isBlacklisted packetHash =>
    apply congrArg some
    rw [Bool.eq_iff_iff, h.isBlacklisted_iff, h'.isBlacklisted_iff, StillBlacklisted,
      hblacklistings, ← StillBlacklisted]

theorem answers_filter (windowSeconds : ℚ) (hclock : calls.Pairwise fun a b => a.2 ≤ b.2) :
    answers { windowSeconds } (calls.filter fun c => !isCleanup c) =
      answers { windowSeconds } calls := by
  induction calls using List.reverseRecOn with
  | nil => rfl
  | append_singleton calls c ih =>
    obtain ⟨hclock, -, hlast⟩ := List.pairwise_append.mp hclock
    rw [answers_concat, List.filter_append, ← ih hclock]
    cases hc : isCleanup c with
    | true =>
      obtain ⟨call, now⟩ := c
      obtain rfl : call = .cleanupOldHashes := of_decide_eq_true hc
      simp [isCleanup, answer]
    | false =>
      have hbefore : ∀ d ∈ calls, d.2 ≤ c.2 := fun d hd => hlast d hd c List.mem_cons_self
      have hkeeps := keeps_afterCalls windowSeconds hclock hbefore
      have hkeeps' := keeps_afterCalls windowSeconds
        (hclock.sublist (List.filter_sublist (p := fun c => !isCleanup c)))
        fun d hd => hbefore d (List.mem_of_mem_filter hd)
      have hanswer := hkeeps'.answer_eq hkeeps
        (by rw [windowSeconds_afterCalls, windowSeconds_afterCalls])
        (tracked_filter calls) (blacklistings_filter calls)
      rw [List.filter_cons_of_pos (by simp [hc]), List.filter_nil, answers_concat, hanswer]

/-- Leaving out clean-ups changes no answer; a hash is blacklisted just as long as its latest entry
is young and not followed by too many others, and the blacklist stays within its bound. -/
theorem cleanup_invisible (windowSeconds : ℚ) (calls kept : List (FilterCall × ℚ))
    (hclock : calls.Pairwise fun a b => a.2 ≤ b.2) (hkept : kept.Sublist calls)
    (hcleanups : kept.filter (fun c => !isCleanup c) = calls.filter fun c => !isCleanup c) :
    answers { windowSeconds } kept =
        answers { windowSeconds } calls ∧
      (∀ packetHash now, (∀ c ∈ calls, c.2 ≤ now) →
        ((afterCalls { windowSeconds } calls).isBlacklisted packetHash now = true ↔
          StillBlacklisted calls packetHash now)) ∧
      (afterCalls { windowSeconds } calls).blacklisted.size ≤
        blacklistMaxEntries := by
  refine ⟨?_, ?_, ?_⟩
  · rw [← answers_filter windowSeconds (hclock.sublist hkept), hcleanups,
      answers_filter windowSeconds hclock]
  · intro packetHash now hnow
    exact (keeps_afterCalls windowSeconds hclock hnow).isBlacklisted_iff packetHash
  · rcases List.eq_nil_or_concat' calls with rfl | ⟨calls, c, rfl⟩
    · exact Nat.zero_le _
    · obtain ⟨-, -, hlast⟩ := List.pairwise_append.mp hclock
      have hbefore : ∀ d ∈ calls ++ [c], d.2 ≤ c.2 := by
        intro d hd
        rcases List.mem_append.mp hd with hd | hd
        · exact hlast d hd c List.mem_cons_self
        · rw [List.mem_singleton.mp hd]
      exact (keeps_afterCalls windowSeconds hclock hbefore).size

/-- An entry that a clean-up removes from its place is still reported once it was renewed. -/
theorem cleanup_invisible_renewed :
    let calls : List (FilterCall × ℚ) := [(.blacklist [1], 0), (.blacklist [2], 10),
      (.cleanupOldHashes, 305), (.isBlacklisted [1], 305), (.blacklist [1], 306),
      (.cleanupOldHashes, 320), (.isBlacklisted [1], 320), (.isBlacklisted [2], 320)]
    let kept := calls.eraseIdx 2
    answers { windowSeconds := 30 } kept = [false, true, false] ∧
      StillBlacklisted calls [1] 320 ∧ ¬StillBlacklisted calls [2] 320 := by
  intro calls kept
  have hclock : calls.Pairwise fun a b => a.2 ≤ b.2 := by decide +kernel
  obtain ⟨hanswers, hstill, -⟩ := cleanup_invisible 30 calls kept hclock
    (List.eraseIdx_sublist calls 2) (by decide +kernel)
  have hnow : ∀ c ∈ calls, c.2 ≤ 320 := by decide +kernel
  refine ⟨hanswers.trans (by decide +kernel), ?_, ?_⟩
  · exact (hstill [1] 320 hnow).mp (by decide +kernel)
  · rw [← hstill [2] 320 hnow]
    decide +kernel

end OpenHop.PacketFilter
