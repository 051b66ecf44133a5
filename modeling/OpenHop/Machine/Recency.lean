import Mathlib.Algebra.Order.Group.Defs
import Mathlib.Data.Finset.Card

/-! # Tables of recent keys

A table of limited size and time to live notes when each key was presented last. It forgets
a key once it is too old, or once enough other keys were presented since.
-/

namespace OpenHop.Recency

variable {κ T : Type*} [DecidableEq κ]

def touch (es : List (κ × T)) (e : κ × T) : List (κ × T) := es.filter (fun x => x.1 ≠ e.1) ++ [e]

/-- The latest presentation of each key, the oldest first. -/
def latest (history : List (κ × T)) : List (κ × T) := history.foldl touch []

variable {history es : List (κ × T)} {k : κ} {e : κ × T}

theorem latest_concat (history : List (κ × T)) (e : κ × T) :
    latest (history ++ [e]) = touch (latest history) e := by
  rw [latest, List.foldl_append]
  rfl

theorem latest_sublist (history : List (κ × T)) : (latest history).Sublist history := by
  induction history using List.reverseRecOn with
  | nil => exact List.Sublist.refl _
  | append_singleton history e ih =>
    rw [latest_concat]
    exact (List.filter_sublist.trans ih).append (List.Sublist.refl _)

theorem mem_keys_touch : k ∈ (touch es e).map Prod.fst ↔ k ∈ es.map Prod.fst ∨ k = e.1 := by
  simp only [touch, List.map_append, List.mem_append, List.map_cons, List.map_nil,
    List.mem_singleton, List.mem_map, List.mem_filter, decide_eq_true_eq]
  constructor
  · rintro (⟨x, ⟨hx, _⟩, rfl⟩ | rfl)
    · exact Or.inl ⟨x, hx, rfl⟩
    · exact Or.inr rfl
  · rintro (⟨x, hx, rfl⟩ | rfl)
    · by_cases hk : x.1 = e.1
      · exact Or.inr hk
      · exact Or.inl ⟨x, ⟨hx, hk⟩, rfl⟩
    · exact Or.inr rfl

theorem mem_keys_latest (history : List (κ × T)) :
    k ∈ (latest history).map Prod.fst ↔ k ∈ history.map Prod.fst := by
  induction history using List.reverseRecOn with
  | nil => rfl
  | append_singleton history e ih =>
    rw [latest_concat, mem_keys_touch, ih, List.map_append, List.mem_append]
    simp

theorem length_touch_le (es : List (κ × T)) (e : κ × T) :
    (touch es e).length ≤ es.length + 1 := by
  rw [touch, List.length_append]
  exact Nat.add_le_add_right (List.length_filter_le _ _) 1

theorem nodup_touch (h : (es.map Prod.fst).Nodup) (e : κ × T) :
    ((touch es e).map Prod.fst).Nodup := by
  rw [touch, List.map_append]
  refine List.nodup_append.mpr ⟨h.sublist (List.filter_sublist.map _), List.nodup_singleton _, ?_⟩
  rintro a ha b hb rfl
  obtain ⟨x, hx, rfl⟩ := List.mem_map.mp ha
  exact of_decide_eq_true (List.mem_filter.mp hx).2 (List.mem_singleton.mp hb)

theorem nodup_latest (history : List (κ × T)) : ((latest history).map Prod.fst).Nodup := by
  induction history using List.reverseRecOn with
  | nil => exact List.nodup_nil
  | append_singleton history e ih =>
    rw [latest_concat]
    exact nodup_touch ih e

theorem length_le_filter (h : (es.map Prod.fst).Nodup) (k : κ) :
    es.length ≤ (es.filter fun x => x.1 ≠ k).length + 1 := by
  have hkeys : (es.filter fun x => x.1 ≠ k).map Prod.fst = (es.map Prod.fst).erase k := by
    rw [h.erase_eq_filter, List.filter_map]
    congr 1
    apply List.filter_congr
    intro x _
    rw [Bool.eq_iff_iff]
    simp
  have hlength := congrArg List.length hkeys
  rw [List.length_map, List.length_erase, List.length_map] at hlength
  split at hlength <;> omega

theorem length_latest (history : List (κ × T)) :
    (latest history).length = (history.map Prod.fst).toFinset.card := by
  have hkeys : (history.map Prod.fst).toFinset = ((latest history).map Prod.fst).toFinset := by
    ext k
    rw [List.mem_toFinset, List.mem_toFinset, mem_keys_latest]
  rw [hkeys, List.toFinset_card_of_nodup (nodup_latest history), List.length_map]

theorem exists_last (h : k ∈ history.map Prod.fst) :
    ∃ before t since, history = before ++ (k, t) :: since ∧ k ∉ since.map Prod.fst := by
  induction history with
  | nil => cases h
  | cons e history ih =>
    by_cases hk : k ∈ history.map Prod.fst
    · obtain ⟨before, t, since, rfl, hsince⟩ := ih hk
      exact ⟨e :: before, t, since, rfl, hsince⟩
    · obtain rfl := (List.mem_cons.mp h).resolve_right hk
      exact ⟨[], e.2, history, rfl, hk⟩

theorem latest_split (before : List (κ × T)) (e : κ × T) {since : List (κ × T)}
    (h : e.1 ∉ since.map Prod.fst) :
    ∃ old, latest (before ++ e :: since) = old ++ e :: latest since := by
  induction since using List.reverseRecOn with
  | nil => exact ⟨_, latest_concat before e⟩
  | append_singleton since x ih =>
    rw [List.map_append, List.mem_append, not_or] at h
    have hne : e.1 ≠ x.1 := fun heq => h.2 (List.mem_singleton.mpr heq)
    obtain ⟨old, hold⟩ := ih h.1
    refine ⟨old.filter fun y => y.1 ≠ x.1, ?_⟩
    rw [← List.cons_append, ← List.append_assoc, latest_concat, hold, latest_concat]
    simp [touch, hne]

theorem last_unique {before before' since since' : List (κ × T)} {t t' : T}
    (heq : before ++ (k, t) :: since = before' ++ (k, t') :: since')
    (h : k ∉ since.map Prod.fst) (h' : k ∉ since'.map Prod.fst) : t = t' := by
  obtain ⟨old, hold⟩ := latest_split before (k, t) h
  obtain ⟨old', hold'⟩ := latest_split before' (k, t') h'
  have hmem : (k, t) ∈ latest (before ++ (k, t) :: since) := by simp [hold]
  have hmem' : (k, t') ∈ latest (before ++ (k, t) :: since) := by simp [heq, hold']
  exact congrArg Prod.snd (List.inj_on_of_nodup_map (nodup_latest _) hmem hmem' rfl)

theorem of_length_dropWhile_le {α : Type*} {p : α → Bool} {x : α} {c b : List α}
    (h : ((c ++ x :: b).dropWhile p).length ≤ b.length) : p x = true := by
  by_contra hx
  induction c with
  | nil =>
    rw [List.nil_append, List.dropWhile_cons_of_neg hx, List.length_cons] at h
    omega
  | cons y c ih =>
    rw [List.cons_append, List.dropWhile_cons] at h
    split at h
    · exact ih h
    · simp only [List.length_cons, List.length_append] at h
      omega

theorem suffix_of_length_lt {a b : List (κ × T)} (hes : es <:+ latest history)
    (h : latest history = a ++ e :: b) (hlt : b.length < es.length) : e :: b <:+ es :=
  List.suffix_of_suffix_length_le ⟨a, h.symm⟩ hes hlt

/-- The key was presented before, not longer than `ttl` ago, and fewer than `room` other keys
since. -/
def Recent [Sub T] [LE T] (room : ℕ) (ttl : T) (history : List (κ × T)) (k : κ) (now : T) : Prop :=
  ∃ before t since, history = before ++ (k, t) :: since ∧ k ∉ since.map Prod.fst ∧
    now - t ≤ ttl ∧ (since.map Prod.fst).toFinset.card < room

variable [AddCommGroup T] [LinearOrder T]

/-- The table is an end part of the latest presentations, and each that is missing from it is
expired or followed by enough others. -/
structure Tracks (room : ℕ) (ttl now : T) (history es : List (κ × T)) : Prop where
  suffix : es <:+ latest history
  missing : ∀ a e b, latest history = a ++ e :: b → es.length ≤ b.length →
    ttl < now - e.2 ∨ room ≤ b.length

variable {room : ℕ} {ttl now later : T}

theorem tracks_nil (room : ℕ) (ttl now : T) : Tracks room ttl now ([] : List (κ × T)) [] where
  suffix := List.suffix_refl _
  missing a e b h _ := by
    have hnil : ([] : List (κ × T)) = a ++ e :: b := h
    simp at hnil

theorem Tracks.touch (h : Tracks room ttl now history es) (e : κ × T) :
    Tracks room ttl now (history ++ [e]) (touch es e) := by
  refine ⟨?_, fun a x b hsplit hle => ?_⟩
  · obtain ⟨old, hold⟩ := h.suffix
    refine ⟨old.filter fun y => y.1 ≠ e.1, ?_⟩
    rw [latest_concat, ← hold, Recency.touch, Recency.touch, List.filter_append,
      List.append_assoc]
  · rw [latest_concat, Recency.touch] at hsplit
    rw [Recency.touch, List.length_append, List.length_singleton] at hle
    have hb : b ≠ [] := by
      rintro rfl
      exact absurd hle (Nat.not_succ_le_zero _)
    obtain ⟨b, y, rfl⟩ := (List.eq_nil_or_concat' b).resolve_left hb
    rw [← List.cons_append, ← List.append_assoc] at hsplit
    obtain ⟨hsplit, -⟩ := List.append_inj' hsplit rfl
    obtain ⟨A, rest, hlatest, rfl, hrest⟩ := List.filter_eq_append_iff.mp hsplit
    obtain ⟨C, B, rfl, hC, hx, rfl⟩ := List.filter_eq_cons_iff.mp hrest
    rw [← List.append_assoc] at hlatest
    rw [List.length_append, List.length_singleton] at hle ⊢
    have hmissing : es.length ≤ B.length := by
      by_contra hlt
      have hsuffix := suffix_of_length_lt h.suffix hlatest (not_le.mp hlt)
      have hfilter := (hsuffix.filter fun y => y.1 ≠ e.1).length_le
      rw [List.filter_cons_of_pos (by exact hx), List.length_cons] at hfilter
      omega
    have hnodup : (B.map Prod.fst).Nodup := by
      have hB : B <:+ latest history := ⟨A ++ C ++ [x], by rw [hlatest]; simp⟩
      exact (nodup_latest history).sublist (hB.sublist.map _)
    refine (h.missing _ x B hlatest hmissing).imp_right fun hroom => ?_
    exact hroom.trans (length_le_filter hnodup e.1)

theorem Tracks.tail (h : Tracks room ttl now history es) (hfull : room < es.length) :
    Tracks room ttl now history es.tail where
  suffix := (List.tail_suffix es).trans h.suffix
  missing a e b _ hle := by
    rw [List.length_tail] at hle
    exact Or.inr (by omega)

/-- What the table holds is the last presentation of its key, with fewer other keys since than the
table has entries. -/
theorem Tracks.split_of_mem (h : Tracks room ttl now history es) {t : T} (hmem : (k, t) ∈ es) :
    ∃ before since, history = before ++ (k, t) :: since ∧ k ∉ since.map Prod.fst ∧
      (since.map Prod.fst).toFinset.card < es.length := by
  have hk : k ∈ es.map Prod.fst := List.mem_map.mpr ⟨(k, t), hmem, rfl⟩
  have hpresented : k ∈ history.map Prod.fst :=
    (mem_keys_latest history).mp ((h.suffix.sublist.map _).subset hk)
  obtain ⟨before, u, since, rfl, hsince⟩ := exists_last hpresented
  obtain ⟨old, hold⟩ := latest_split before (k, u) hsince
  have hlt : (latest since).length < es.length := by
    by_contra hle
    have hold' : latest since <:+ latest (before ++ (k, u) :: since) :=
      ⟨old ++ [(k, u)], by rw [hold]; simp⟩
    have hsuffix := List.suffix_of_suffix_length_le h.suffix hold' (not_lt.mp hle)
    exact hsince ((mem_keys_latest since).mp ((hsuffix.sublist.map _).subset hk))
  have hsuffix := suffix_of_length_lt h.suffix hold hlt
  have hnodup := (nodup_latest _).sublist (h.suffix.sublist.map Prod.fst)
  have heq : (k, t) = (k, u) :=
    List.inj_on_of_nodup_map hnodup hmem (hsuffix.subset List.mem_cons_self) rfl
  obtain rfl : t = u := congrArg Prod.snd heq
  refine ⟨before, since, rfl, hsince, ?_⟩
  rw [← length_latest]
  exact hlt

/-- A last presentation that is neither expired nor followed by too many others is in the table. -/
theorem Tracks.mem_of_split (h : Tracks room ttl now history es) {before since : List (κ × T)}
    {t : T} (hsplit : history = before ++ (k, t) :: since) (hsince : k ∉ since.map Prod.fst)
    (hage : now - t ≤ ttl) (hcard : (since.map Prod.fst).toFinset.card < room) : (k, t) ∈ es := by
  subst hsplit
  obtain ⟨old, hold⟩ := latest_split before (k, t) hsince
  rw [← length_latest] at hcard
  by_cases hlt : (latest since).length < es.length
  · exact (suffix_of_length_lt h.suffix hold hlt).subset List.mem_cons_self
  · rcases h.missing _ _ _ hold (not_lt.mp hlt) with hexpired | hfull
    · exact absurd hage (not_le.mpr hexpired)
    · omega

/-- A table that holds no expired entries and not more than it has room for knows exactly the
recent keys. -/
theorem Tracks.mem_keys_iff (h : Tracks room ttl now history es)
    (hfresh : ∀ e ∈ es, now - e.2 ≤ ttl) (hroom : es.length ≤ room) :
    k ∈ es.map Prod.fst ↔ Recent room ttl history k now := by
  constructor
  · intro hk
    obtain ⟨⟨_, t⟩, hmem, rfl⟩ := List.mem_map.mp hk
    obtain ⟨before, since, hsplit, hsince, hcard⟩ := h.split_of_mem hmem
    exact ⟨before, t, since, hsplit, hsince, hfresh _ hmem, hcard.trans_le hroom⟩
  · rintro ⟨before, t, since, hsplit, hsince, hage, hcard⟩
    exact List.mem_map.mpr ⟨(k, t), h.mem_of_split hsplit hsince hage hcard, rfl⟩

theorem Tracks.expire (h : Tracks room ttl now history es) :
    Tracks room ttl now history (es.dropWhile fun e => ttl < now - e.2) := by
  refine ⟨(List.dropWhile_suffix _).trans h.suffix, fun a e b hsplit hlen => ?_⟩
  by_cases hlt : b.length < es.length
  · obtain ⟨c, rfl⟩ := suffix_of_length_lt h.suffix hsplit hlt
    have hgone := of_length_dropWhile_le hlen
    exact Or.inl (of_decide_eq_true hgone)
  · exact h.missing a e b hsplit (not_lt.mp hlt)

/-- What a table does when a key is presented: it drops what is expired, notes the key, and drops
the oldest entry if there is no room. -/
def present (room : ℕ) (ttl : T) (es : List (κ × T)) (e : κ × T) : List (κ × T) :=
  let es := touch (es.dropWhile fun x => ttl < e.2 - x.2) e
  if room < es.length then es.tail else es

theorem length_present_le (h : es.length ≤ room) (e : κ × T) :
    (present room ttl es e).length ≤ room := by
  have htouch : (touch (es.dropWhile fun x => ttl < e.2 - x.2) e).length ≤ es.length + 1 :=
    (length_touch_le _ e).trans (Nat.add_le_add_right (List.dropWhile_suffix _).length_le 1)
  unfold present
  dsimp only
  split
  · rw [List.length_tail]
    omega
  · omega

theorem Tracks.present (h : Tracks room ttl e.2 history es) :
    Tracks room ttl e.2 (history ++ [e]) (present room ttl es e) := by
  have htouch := h.expire.touch e
  unfold Recency.present
  dsimp only
  split
  · rename_i hfull
    exact htouch.tail hfull
  · exact htouch

theorem length_foldl_present_le (room : ℕ) (ttl : T) (history : List (κ × T)) :
    (history.foldl (Recency.present room ttl) []).length ≤ room := by
  induction history using List.reverseRecOn with
  | nil => exact Nat.zero_le room
  | append_singleton history e ih =>
    rw [List.foldl_append]
    exact length_present_le ih e

variable [IsOrderedAddMonoid T]

theorem Tracks.mono (h : Tracks room ttl now history es) (hle : now ≤ later) :
    Tracks room ttl later history es where
  suffix := h.suffix
  missing a e b hsplit hlen :=
    (h.missing a e b hsplit hlen).imp_left fun hold => hold.trans_le (sub_le_sub_right hle _)

omit [DecidableEq κ] in
theorem filter_not_expired (ttl later : T) (hsorted : es.Pairwise fun a b => a.2 ≤ b.2) :
    es.filter (fun e => later - e.2 ≤ ttl) = es.dropWhile fun e => ttl < later - e.2 := by
  induction es with
  | nil => rfl
  | cons x es ih =>
    obtain ⟨hx, hsorted⟩ := List.pairwise_cons.mp hsorted
    by_cases hold : ttl < later - x.2
    · rw [List.filter_cons_of_neg (by simpa only [decide_eq_true_eq, not_le] using hold),
        List.dropWhile_cons_of_pos (by exact decide_eq_true hold), ih hsorted]
    · rw [List.dropWhile_cons_of_neg (by simpa only [decide_eq_true_eq] using hold)]
      apply List.filter_eq_self.mpr
      intro e he
      have hle : x.2 ≤ e.2 := by
        rcases List.mem_cons.mp he with rfl | hmem
        · exact le_rfl
        · exact hx e hmem
      exact decide_eq_true ((sub_le_sub_left hle later).trans (not_lt.mp hold))

omit [DecidableEq κ] in
theorem not_expired_of_mem_dropWhile (hsorted : es.Pairwise fun a b => a.2 ≤ b.2)
    (he : e ∈ es.dropWhile fun e => ttl < later - e.2) : later - e.2 ≤ ttl := by
  rw [← filter_not_expired ttl later hsorted] at he
  exact of_decide_eq_true (List.mem_filter.mp he).2

/-- A table that starts empty tracks everything presented to it, as long as time does not go
backwards. -/
theorem tracks_foldl_present (room : ℕ) (ttl : T)
    (hsorted : history.Pairwise fun a b => a.2 ≤ b.2) (hnow : ∀ e ∈ history, e.2 ≤ now) :
    Tracks room ttl now history (history.foldl (Recency.present room ttl) []) := by
  induction history using List.reverseRecOn generalizing now with
  | nil => exact tracks_nil room ttl now
  | append_singleton history e ih =>
    obtain ⟨hsorted, -, hlast⟩ := List.pairwise_append.mp hsorted
    have htracks := ih hsorted fun x hx => hlast x hx e List.mem_cons_self
    rw [List.foldl_append]
    exact htracks.present.mono (hnow e (List.mem_append_right _ List.mem_cons_self))

theorem recent_of_presented {before since : List (κ × T)} {t : T}
    (hsorted : (before ++ (k, t) :: since).Pairwise fun a b => a.2 ≤ b.2) (hage : now - t ≤ ttl)
    (hroom : ((since.map Prod.fst).toFinset.erase k).card < room) :
    Recent room ttl (before ++ (k, t) :: since) k now := by
  by_cases hk : k ∈ since.map Prod.fst
  · obtain ⟨between, u, later, rfl, hlater⟩ := exists_last hk
    have hle : t ≤ u := by
      have htail := (List.pairwise_append.mp hsorted).2.1
      exact (List.pairwise_cons.mp htail).1 (k, u) (by simp)
    refine ⟨before ++ (k, t) :: between, u, later, by simp, hlater,
      (sub_le_sub_left hle now).trans hage, lt_of_le_of_lt (Finset.card_le_card ?_) hroom⟩
    intro x hx
    have hx' : x ∈ later.map Prod.fst := List.mem_toFinset.mp hx
    refine Finset.mem_erase.mpr ⟨fun hxk => hlater (hxk ▸ hx'), List.mem_toFinset.mpr ?_⟩
    rw [List.map_append, List.map_cons]
    exact List.mem_append_right _ (List.mem_cons_of_mem _ hx')
  · refine ⟨before, t, since, rfl, hk, hage, ?_⟩
    rwa [Finset.erase_eq_of_notMem (by simpa using hk)] at hroom

theorem mem_keys_foldl_present (room : ℕ) (ttl : T)
    (hsorted : (history ++ [(k, now)]).Pairwise fun a b => a.2 ≤ b.2) :
    k ∈ ((history.foldl (Recency.present room ttl) []).dropWhile
      fun e => ttl < now - e.2).map Prod.fst ↔ Recent room ttl history k now := by
  obtain ⟨hsorted, -, hlast⟩ := List.pairwise_append.mp hsorted
  have htracks := tracks_foldl_present room ttl hsorted
    fun e he => hlast e he (k, now) List.mem_cons_self
  have hes := hsorted.sublist (htracks.suffix.sublist.trans (latest_sublist history))
  apply htracks.expire.mem_keys_iff
  · intro e he
    exact not_expired_of_mem_dropWhile hes he
  · exact (List.dropWhile_suffix _).length_le.trans (length_foldl_present_le room ttl history)

/-- The key was presented, nothing presented since was late enough to find it expired, and fewer
than `room` other keys were presented since. -/
def Kept (room : ℕ) (ttl : T) (history : List (κ × T)) (k : κ) : Prop :=
  ∃ before t since, history = before ++ (k, t) :: since ∧ k ∉ since.map Prod.fst ∧
    (∀ e ∈ since, e.2 - t ≤ ttl) ∧ (since.map Prod.fst).toFinset.card < room

omit [IsOrderedAddMonoid T] in
theorem mem_present_self (hroom : 0 < room) (ttl : T) (es : List (κ × T)) (e : κ × T) :
    e ∈ Recency.present room ttl es e := by
  unfold Recency.present Recency.touch
  dsimp only
  split
  · rename_i hfull
    rw [List.length_append, List.length_singleton] at hfull
    rw [List.tail_append_of_ne_nil (List.ne_nil_of_length_pos (by omega))]
    exact List.mem_append_right _ List.mem_cons_self
  · exact List.mem_append_right _ List.mem_cons_self

theorem not_expired_of_mem_present (hsorted : es.Pairwise fun a b => a.2 ≤ b.2) {x : κ × T}
    (hx : x ∈ Recency.present room ttl es e) (hne : x.1 ≠ e.1) : e.2 - x.2 ≤ ttl := by
  have htouch : x ∈ Recency.touch (es.dropWhile fun y => ttl < e.2 - y.2) e := by
    unfold Recency.present at hx
    dsimp only at hx
    split at hx
    · exact List.mem_of_mem_tail hx
    · exact hx
  rcases List.mem_append.mp htouch with hold | hnew
  · exact not_expired_of_mem_dropWhile hsorted (List.mem_of_mem_filter hold)
  · exact absurd (congrArg Prod.fst (List.mem_singleton.mp hnew)) hne

theorem mem_keys_foldl_present_iff_kept (room : ℕ) (ttl : T)
    (hsorted : history.Pairwise fun a b => a.2 ≤ b.2) :
    k ∈ (history.foldl (Recency.present room ttl) []).map Prod.fst ↔ Kept room ttl history k := by
  rcases List.eq_nil_or_concat' history with rfl | ⟨history, e, rfl⟩
  · simp [Kept]
  obtain ⟨hbefore, -, hlast⟩ := List.pairwise_append.mp hsorted
  have hle : ∀ x ∈ history ++ [e], x.2 ≤ e.2 := by
    intro x hx
    rcases List.mem_append.mp hx with hx | hx
    · exact hlast x hx e List.mem_cons_self
    · rw [List.mem_singleton.mp hx]
  have htracks := tracks_foldl_present room ttl hsorted hle
  have hroom := length_foldl_present_le room ttl (history ++ [e])
  have hes := hbefore.sublist ((tracks_foldl_present room ttl hbefore
    fun x hx => hle x (List.mem_append_left _ hx)).suffix.sublist.trans (latest_sublist history))
  rw [List.foldl_append] at htracks hroom ⊢
  constructor
  · intro hk
    obtain ⟨⟨k, t⟩, hmem, rfl⟩ := List.mem_map.mp hk
    obtain ⟨before, since, hsplit, hsince, hcard⟩ := htracks.split_of_mem hmem
    refine ⟨before, t, since, hsplit, hsince, fun x hx => ?_, hcard.trans_le hroom⟩
    -- the last presentation is among those since, and it is the latest of them
    have hx' : x ∈ history ++ [e] := by
      rw [hsplit]
      exact List.mem_append_right _ (List.mem_cons_of_mem _ hx)
    have he : e ∈ since := by
      obtain ⟨since, y, rfl⟩ := (List.eq_nil_or_concat' since).resolve_left
        (List.ne_nil_of_mem hx)
      rw [← List.cons_append, ← List.append_assoc] at hsplit
      obtain rfl := List.singleton_injective (List.append_inj' hsplit rfl).2
      simp
    have hne : k ≠ e.1 := fun hke => hsince (hke ▸ List.mem_map.mpr ⟨e, he, rfl⟩)
    have hage : e.2 - t ≤ ttl := not_expired_of_mem_present hes hmem hne
    exact (sub_le_sub_right (hle x hx') t).trans hage
  · rintro ⟨before, t, since, hsplit, hsince, hage, hcard⟩
    rcases List.eq_nil_or_concat' since with rfl | ⟨since, y, rfl⟩
    · obtain rfl := List.singleton_injective (List.append_inj' hsplit rfl).2
      exact List.mem_map.mpr ⟨_, mem_present_self (by simpa using hcard) ttl _ _, rfl⟩
    · have he : y = e := by
        have hsplit' := hsplit
        rw [← List.cons_append, ← List.append_assoc] at hsplit'
        exact (List.singleton_injective (List.append_inj' hsplit' rfl).2).symm
      subst he
      exact List.mem_map.mpr ⟨(k, t),
        htracks.mem_of_split hsplit hsince (hage y (by simp)) hcard, rfl⟩

end OpenHop.Recency
