import OpenHop.Companion.AdvertEvents

/-! # Replayed adverts

Adverts are received, wait as events and are handled in any order, while the app may change
contacts in between. For each node the history gives the adverts handled since one was
applied to its contact, as long as the contact was neither removed nor edited.
-/

namespace OpenHop.Companion

structure AdvertConfig where
  handler : AdvertHandler
  publicKey : Bytes

/-- An advert as signed and the event that was published for it. -/
structure Received where
  advert : Advert
  event : NodeDiscovered

inductive Entry where
  /-- A handled advert, whether it was stored, and the callbacks. -/
  | advert (r : Received) (applied : Bool) (notes : List Notification)
  /-- The app replaced the contacts. -/
  | app (before after : ContactStore)

structure AdvertState where
  clock : ℕ
  prefs : AutoAddPrefs
  stores : Stores
  notifications : List Notification
  pending : List Received
  history : List Entry

/-- Any contacts and cached paths; the path cache has its default size. -/
def AdvertState.start (clock : ℕ) (prefs : AutoAddPrefs) (contacts : ContactStore)
    (paths : List AdvertPath) : AdvertState :=
  { clock, prefs, stores := { contacts, pathCache := { paths } }
    notifications := [], pending := [], history := [] }

/-- Receptions and handlings read the clock twice. -/
inductive AdvertAction where
  | receive (packet : Packet) (now stamp : ℕ)
  | handle (i now recvAt : ℕ)
  | app (prefs : AutoAddPrefs) (contacts : ContactStore)

def handlePending (cfg : AdvertConfig) (s : AdvertState) (i now recvAt : ℕ) : Option AdvertState :=
  match s.pending[i]? with
  | none => none
  | some r =>
    let o := handleMeshEvent cfg.publicKey s.prefs s.stores r.event now recvAt
    some
      { s with
        clock := recvAt
        stores := o.stores
        notifications := s.notifications ++ o.notes
        pending := s.pending.eraseIdx i
        history := s.history ++ [.advert r o.applied.isSome o.notes] }

def advertStep (cfg : AdvertConfig) (s : AdvertState) : AdvertAction → Option AdvertState
  | .receive packet now stamp =>
    if s.clock ≤ now ∧ now ≤ stamp then
      match cfg.handler.call packet now stamp with
      | some (advert, event) =>
        some { s with clock := stamp, pending := s.pending ++ [⟨advert, event⟩] }
      | none => some { s with clock := stamp }
    else none
  | .handle i now recvAt =>
    if s.clock ≤ now ∧ now ≤ recvAt then handlePending cfg s i now recvAt else none
  | .app prefs contacts =>
    some
      { s with
        prefs
        stores := { s.stores with contacts }
        history := s.history ++ [.app s.stores.contacts contacts] }

def advertRun (cfg : AdvertConfig) : AdvertState → List AdvertAction → Option AdvertState :=
  Machine.run (advertStep cfg)

/-- The adverts of the node `key` handled since one was applied to its contact, with whether each
was applied itself. An advert that evicts the contact or an edit by the app starts over. -/
def lifetimeStep (key : Bytes) (life : List (Received × Bool)) : Entry → List (Received × Bool)
  | .advert r applied notes =>
    if r.advert.pubkey = key then if applied || !life.isEmpty then life ++ [(r, applied)] else []
    else if .contactDeleted key ∈ notes then [] else life
  | .app before after => if before.getByKey key = after.getByKey key then life else []

def lifetime (key : Bytes) (history : List Entry) : List (Received × Bool) :=
  history.foldl (lifetimeStep key) []

/-- The contact `c` shows the advert `newest`, which was applied and is the newest of `life`. -/
structure Shows (life : List (Received × Bool)) (newest : Received) (c : Contact) : Prop where
  applied : (newest, true) ∈ life
  le_newest : ∀ p ∈ life, p.1.advert.timestamp ≤ newest.advert.timestamp
  name : c.name = newest.event.name
  advType : c.advType = newest.event.contactType
  gpsLat : c.gpsLat = newest.event.lat
  gpsLon : c.gpsLon = newest.event.lon

/-- What the replay guard is to ensure in a state, for the node `key`. -/
structure GuardHolds (cfg : AdvertConfig) (s : AdvertState) (key : Bytes) : Prop where
  ignored : ∀ (i now recvAt : ℕ) (r r' : Received) (t : AdvertState), s.pending[i]? = some r →
    r.advert.pubkey = key → (r', true) ∈ lifetime key s.history →
    r.advert.timestamp ≤ r'.advert.timestamp → advertStep cfg s (.handle i now recvAt) = some t →
    t.stores = s.stores ∧ t.notifications = s.notifications
  shows : lifetime key s.history ≠ [] → ∃ newest c,
    s.stores.contacts.getByKey key = some c ∧ Shows (lifetime key s.history) newest c

/-- An advert of the node `key` is not ahead of the local clock when it is received. -/
def Timely (cfg : AdvertConfig) (key : Bytes) : AdvertAction → Prop
  | .receive packet now stamp =>
    ∀ advert event, cfg.handler.call packet now stamp = some (advert, event) →
      advert.pubkey = key → advert.timestamp ≤ now
  | _ => True

/-- What the handler has checked. -/
structure Checked (r : Received) : Prop where
  publicKey : r.event.publicKey = r.advert.pubkey
  length : r.advert.pubkey.length = pubKeySize
  name : r.event.name ≠ []

/-- The event carries the signed timestamp. -/
structure Genuine (r : Received) (now : ℕ) : Prop where
  timestamp : r.event.advertTimestamp = r.advert.timestamp
  le_now : r.advert.timestamp ≤ now

section

variable {cfg : AdvertConfig} {r : Received} {now later : ℕ}

theorem Genuine.mono (h : Genuine r now) (hle : now ≤ later) : Genuine r later :=
  { h with le_now := h.le_now.trans hle }

theorem call_spec {packet : Packet} {now stamp : ℕ} {advert : Advert} {event : NodeDiscovered}
    {h : AdvertHandler} (hcall : h.call packet now stamp = some (advert, event)) :
    Checked ⟨advert, event⟩ ∧ (advert.timestamp ≤ now → Genuine ⟨advert, event⟩ now) := by
  unfold AdvertHandler.call at hcall
  dsimp only at hcall
  split at hcall
  · cases hcall
  split at hcall
  · cases hcall
  rename_i parsed hparse
  split at hcall
  · cases hcall
  split at hcall
  · cases hcall
  split at hcall
  · cases hcall
  rename_i decoded hdecode
  split at hcall
  · cases hcall
  rename_i name hname
  cases hcall
  exact ⟨⟨rfl, parseAdvertPayload_pubkey_length hparse,
    decodeAppdata_nodeName_ne_nil hdecode hname⟩,
    fun htimely => ⟨if_neg (not_lt.mpr htimely), htimely⟩⟩

theorem Checked.pubkey_ne_nil (h : Checked r) : r.advert.pubkey ≠ [] := by
  intro hnil
  have hlen := h.length
  rw [hnil] at hlen
  cases hlen

theorem Checked.publicKey_eq (h : Checked r) (now : ℕ) :
    (contactOf r.event now).publicKey = r.advert.pubkey := by
  rw [(contactOf_sameAdvert r.event now).publicKey, Contact.fromDict, h.publicKey]
  have hlen : r.advert.pubkey.length = 32 := h.length
  simp [List.rightpad, hlen, List.take_of_length_le]

theorem Genuine.timestamp_eq (h : Genuine r now) :
    (contactOf r.event now).lastAdvertTimestamp = r.advert.timestamp := by
  rw [(contactOf_sameAdvert r.event now).lastAdvertTimestamp, Contact.fromDict]
  simp only [h.timestamp]
  exact if_neg (not_lt.mpr h.le_now)

end

section

variable {cfg : AdvertConfig} {key : Bytes} {life : List (Received × Bool)}
  {contacts contacts' : ContactStore} {s t : AdvertState}

def Tracks (cfg : AdvertConfig) (key : Bytes) (contacts : ContactStore)
    (life : List (Received × Bool)) : Prop :=
  key ≠ cfg.publicKey ∧ key ≠ [] ∧ ∃ newest c, contacts.getByKey key = some c ∧
    Shows life newest c ∧ c.lastAdvertTimestamp = newest.advert.timestamp

theorem Tracks.ne_nil (h : Tracks cfg key contacts life) : life ≠ [] := by
  rintro rfl
  obtain ⟨_, _, _, _, _, hshows, _⟩ := h
  cases hshows.applied

theorem Tracks.of_getByKey (h : Tracks cfg key contacts life)
    (hget : contacts'.getByKey key = contacts.getByKey key) : Tracks cfg key contacts' life := by
  unfold Tracks
  rwa [hget]

theorem Tracks.of_applied {r : Received} {c : Contact} {now : ℕ} (hchecked : Checked r)
    (hr : Genuine r now) (hown : r.advert.pubkey ≠ cfg.publicKey)
    (hsame : SameAdvert c (contactOf r.event now))
    (hget : contacts'.getByKey r.advert.pubkey = some c)
    (hold : life = [] ∨ Tracks cfg r.advert.pubkey contacts life)
    (hnewer : ∀ old, contacts.getByKey r.advert.pubkey = some old →
      old.lastAdvertTimestamp < r.advert.timestamp) :
    Tracks cfg r.advert.pubkey contacts' (life ++ [(r, true)]) := by
  have hdict := contactOf_sameAdvert r.event now
  refine ⟨hown, hchecked.pubkey_ne_nil, r, c, hget, ⟨by simp, ?_, hsame.name.trans hdict.name,
    hsame.advType.trans hdict.advType, hsame.gpsLat.trans hdict.gpsLat,
    hsame.gpsLon.trans hdict.gpsLon⟩, hsame.lastAdvertTimestamp.trans hr.timestamp_eq⟩
  intro p hp
  rcases List.mem_append.mp hp with hp | hp
  · rcases hold with rfl | ⟨_, _, newest, old, hold, hshows, hts⟩
    · cases hp
    · have := hnewer old hold
      exact (hshows.le_newest p hp).trans (by omega)
  · rw [List.mem_singleton.mp hp]

theorem Tracks.of_ignored {r : Received} (h : Tracks cfg key contacts life)
    (holder : ∀ c, contacts.getByKey key = some c →
      r.advert.timestamp ≤ c.lastAdvertTimestamp) :
    Tracks cfg key contacts (life ++ [(r, false)]) := by
  obtain ⟨hkey, hne, newest, c, hget, hshows, hts⟩ := h
  refine ⟨hkey, hne, newest, c, hget, { hshows with applied := ?_, le_newest := ?_ }, hts⟩
  · exact List.mem_append_left _ hshows.applied
  · intro p hp
    rcases List.mem_append.mp hp with hp | hp
    · exact hshows.le_newest p hp
    · rw [List.mem_singleton.mp hp, ← hts]
      exact holder c hget

theorem isReplay_eq_true_iff {contact : Contact} : isReplay contacts contact = true ↔
    ∃ old, contacts.getByKey contact.publicKey = some old ∧
      contact.lastAdvertTimestamp ≤ old.lastAdvertTimestamp := by
  unfold isReplay
  split
  · rename_i old hold
    simp [hold]
  · rename_i hnone
    simp [hnone]

theorem handleMeshEvent_tracks_self {prefs : AutoAddPrefs} {st : Stores} {r : Received}
    {now recvAt : ℕ} {o : Outcome}
    (ho : handleMeshEvent cfg.publicKey prefs st r.event now recvAt = o)
    (hroom : 0 < st.pathCache.maxEntries) (hchecked : Checked r) (hr : Genuine r now)
    (hlife : life = [] ∨ Tracks cfg r.advert.pubkey st.contacts life) :
    lifetimeStep r.advert.pubkey life (.advert r o.applied.isSome o.notes) = [] ∨
      Tracks cfg r.advert.pubkey o.stores.contacts
        (lifetimeStep r.advert.pubkey life (.advert r o.applied.isSome o.notes)) := by
  have hkey := hchecked.publicKey_eq now
  simp only [lifetimeStep, if_true]
  by_cases hown : r.advert.pubkey = cfg.publicKey
  · rw [handleMeshEvent_own (hkey.trans hown)] at ho
    subst ho
    rcases hlife with rfl | htracks
    · exact .inl rfl
    · exact absurd hown htracks.1
  cases hreplay : isReplay st.contacts (contactOf r.event now) with
  | true =>
    rw [handleMeshEvent_replay hreplay] at ho
    subst ho
    rcases hlife with rfl | htracks
    · exact .inl rfl
    · right
      obtain ⟨old, hold, hle⟩ := isReplay_eq_true_iff.mp hreplay
      rw [hkey] at hold
      rw [hr.timestamp_eq] at hle
      rw [if_pos (by simpa using htracks.ne_nil)]
      refine htracks.of_ignored fun c hc => ?_
      rwa [Option.some.inj (hc.symm.trans hold)]
  | false =>
    have heffect := handleMeshEvent_effect cfg.publicKey prefs st r.event now recvAt
    rw [ho] at heffect
    cases heffect with
    | kept happlied hcontacts _ =>
      rcases hlife with rfl | ⟨_, _, newest, c, hget, _⟩
      · simp [happlied]
      · -- a newer advert of a known contact cannot be passed over
        have hknown := handleMeshEvent_known prefs recvAt hroom (by rwa [hkey] : _ ≠ cfg.publicKey)
          (by rw [hkey, hchecked.length]; decide)
          (by rw [(contactOf_sameAdvert r.event now).name]; exact hchecked.name)
          (by rw [hkey]; exact hget) hreplay
        rw [ho, happlied] at hknown
        cases hknown
    | stored c happlied hsame hget =>
      right
      rw [happlied]
      refine Tracks.of_applied hchecked hr hown hsame ?_ hlife fun old hold => ?_
      · rw [hget _ hchecked.pubkey_ne_nil, if_pos hkey.symm]
      · by_contra hle
        have : isReplay st.contacts (contactOf r.event now) = true :=
          isReplay_eq_true_iff.mpr ⟨old, by rwa [hkey], by rw [hr.timestamp_eq]; omega⟩
        rw [hreplay] at this
        cases this

theorem handleMeshEvent_tracks_other {prefs : AutoAddPrefs} {st : Stores} {r : Received}
    {now recvAt : ℕ} {o : Outcome} (hk : r.advert.pubkey ≠ key)
    (ho : handleMeshEvent cfg.publicKey prefs st r.event now recvAt = o)
    (hr : Checked r) (hlife : life = [] ∨ Tracks cfg key st.contacts life) :
    lifetimeStep key life (.advert r o.applied.isSome o.notes) = [] ∨
      Tracks cfg key o.stores.contacts
        (lifetimeStep key life (.advert r o.applied.isSome o.notes)) := by
  have heffect := handleMeshEvent_effect cfg.publicKey prefs st r.event now recvAt
  rw [ho] at heffect
  simp only [lifetimeStep, if_neg hk]
  split
  · exact .inl rfl
  rename_i hdeleted
  refine hlife.imp_right fun htracks => htracks.of_getByKey ?_
  cases heffect with
  | kept _ hcontacts _ => rw [hcontacts]
  | stored c _ _ hget =>
    rw [hget key htracks.2.1, if_neg (by rw [hr.publicKey_eq]; exact Ne.symm hk), if_neg hdeleted]

structure Inv (cfg : AdvertConfig) (key : Bytes) (s : AdvertState) : Prop where
  room : 0 < s.stores.pathCache.maxEntries
  checked : ∀ r ∈ s.pending, Checked r
  pending : ∀ r ∈ s.pending, r.advert.pubkey = key → Genuine r s.clock
  life : lifetime key s.history = [] ∨
    Tracks cfg key s.stores.contacts (lifetime key s.history)

theorem lifetime_append (history : List Entry) (e : Entry) :
    lifetime key (history ++ [e]) = lifetimeStep key (lifetime key history) e := by
  simp [lifetime]

theorem Inv.start (clock : ℕ) (prefs : AutoAddPrefs) (contacts : ContactStore)
    (paths : List AdvertPath) : Inv cfg key (.start clock prefs contacts paths) :=
  ⟨Nat.succ_pos 15, fun _ h => (nomatch h), fun _ h => (nomatch h), .inl rfl⟩

theorem Inv.handle {i now recvAt : ℕ} (hs : Inv cfg key s) (hnow : s.clock ≤ now)
    (hrecv : now ≤ recvAt) (h : handlePending cfg s i now recvAt = some t) : Inv cfg key t := by
  unfold handlePending at h
  split at h
  · cases h
  rename_i r hget
  cases h
  have hchecked := hs.checked r (List.mem_of_getElem? hget)
  refine ⟨?_, ?_, ?_, ?_⟩
  · rw [handleMeshEvent_maxEntries]
    exact hs.room
  · exact fun r' hr' => hs.checked r' (List.mem_of_mem_eraseIdx hr')
  · intro r' hr' hk
    exact (hs.pending r' (List.mem_of_mem_eraseIdx hr') hk).mono (hnow.trans hrecv)
  · rw [lifetime_append]
    by_cases hk : r.advert.pubkey = key
    · subst hk
      have hr : Genuine r now := (hs.pending r (List.mem_of_getElem? hget) rfl).mono hnow
      exact handleMeshEvent_tracks_self rfl hs.room hchecked hr hs.life
    · exact handleMeshEvent_tracks_other hk rfl hchecked hs.life

theorem Inv.step {a : AdvertAction} (hs : Inv cfg key s) (ha : Timely cfg key a)
    (h : advertStep cfg s a = some t) : Inv cfg key t := by
  cases a with
  | receive packet now stamp =>
    simp only [advertStep] at h
    split at h
    · rename_i hclock
      have hmono : ∀ r ∈ s.pending, r.advert.pubkey = key → Genuine r stamp := fun r hr hk =>
        (hs.pending r hr hk).mono (hclock.1.trans hclock.2)
      split at h
      · rename_i advert event hcall
        cases h
        obtain ⟨hchecked, hgenuine⟩ := call_spec hcall
        refine ⟨hs.room, fun r hr => ?_, fun r hr hk => ?_, hs.life⟩
        · rcases List.mem_append.mp hr with hr | hr
          · exact hs.checked r hr
          · exact List.mem_singleton.mp hr ▸ hchecked
        · rcases List.mem_append.mp hr with hr | hr
          · exact hmono r hr hk
          · cases List.mem_singleton.mp hr
            exact (hgenuine (ha advert event hcall hk)).mono hclock.2
      · cases h
        exact ⟨hs.room, hs.checked, hmono, hs.life⟩
    · cases h
  | handle i now recvAt =>
    simp only [advertStep] at h
    split at h
    · rename_i hclock
      exact hs.handle hclock.1 hclock.2 h
    · cases h
  | app prefs contacts =>
    cases h
    refine ⟨hs.room, hs.checked, hs.pending, ?_⟩
    rw [lifetime_append, lifetimeStep]
    split
    · rename_i hsame
      exact hs.life.imp_right fun htracks => htracks.of_getByKey hsame.symm
    · exact .inl rfl

theorem Inv.guardHolds (hs : Inv cfg key s) : GuardHolds cfg s key := by
  constructor
  · rintro i now recvAt r r' t hget rfl hr' hle hstep
    simp only [advertStep] at hstep
    split at hstep
    · rename_i hclock
      have hchecked := hs.checked r (List.mem_of_getElem? hget)
      have hr : Genuine r now := (hs.pending r (List.mem_of_getElem? hget) rfl).mono hclock.1
      rcases hs.life with hnil | ⟨_, _, newest, c, hc, hshows, hts⟩
      · rw [hnil] at hr'
        cases hr'
      have hbound := hshows.le_newest _ hr'
      have hreplay : isReplay s.stores.contacts (contactOf r.event now) = true := by
        refine isReplay_eq_true_iff.mpr ⟨c, by rw [hchecked.publicKey_eq]; exact hc, ?_⟩
        rw [hr.timestamp_eq, hts]
        exact hle.trans hbound
      simp only [handlePending, hget, handleMeshEvent_replay hreplay] at hstep
      cases hstep
      exact ⟨rfl, List.append_nil _⟩
    · cases hstep
  · intro hne
    rcases hs.life with hnil | ⟨_, _, newest, c, hc, hshows, _⟩
    · exact absurd hnil hne
    · exact ⟨newest, c, hc, hshows⟩

end

/-- While no advert of a node is ahead of the clock when it is received, the replay guard holds for
this node in every state reached. -/
theorem advertRun_guardHolds (cfg : AdvertConfig) (clock : ℕ) (prefs : AutoAddPrefs)
    (contacts : ContactStore) (paths : List AdvertPath) {actions : List AdvertAction}
    {s : AdvertState} (key : Bytes) (htimely : ∀ a ∈ actions, Timely cfg key a)
    (hrun : advertRun cfg (.start clock prefs contacts paths) actions = some s) :
    GuardHolds cfg s key := by
  refine Inv.guardHolds (Machine.run_invariant_of_mem (I := Inv cfg key) ?_
    (.start clock prefs contacts paths) hrun)
  intro s a ha t hs hstep
  exact hs.step (htimely a ha) hstep

/-! Two adverts of one node, on a companion that accepts every signature. -/

def nodeKey : Bytes := List.replicate 32 7

def openConfig : AdvertConfig := { handler := { verify := fun _ _ _ => true }, publicKey := [] }

def advertPacket (timestamp : ℕ) (letter : UInt8) : Packet :=
  let payload := nodeKey ++ Bytes.le 4 timestamp ++ List.replicate 64 0 ++ [0x81, letter]
  { header := 0x11, payload := payload, payloadLen := payload.length }

/-- Receive and handle an advert, then receive an older one. -/
def olderAfterNewer (newer older now later : ℕ) : List AdvertAction :=
  [.receive (advertPacket newer 66) now now, .handle 0 now now,
    .receive (advertPacket older 65) later later]

theorem timely_of_timestamp {cfg : AdvertConfig} {packet : Packet} {now stamp n : ℕ}
    (h : (cfg.handler.call packet now stamp).map (·.1.timestamp) = some n) (hle : n ≤ now) :
    Timely cfg nodeKey (.receive packet now stamp) := by
  intro advert event hcall _
  rw [hcall] at h
  exact (Option.some.inj h).trans_le hle

theorem olderAfterNewer_spec (newer older later recvAt : ℕ)
    (f : AdvertState → AdvertState → Bool) (b : Bool)
    (hlog : ((advertRun openConfig (.start 1000 {} {} [])
      (olderAfterNewer newer older 1000 later)).bind
      fun s => (advertStep openConfig s (.handle 0 later recvAt)).map fun t =>
        (s.pending[0]?.map fun r => (r.advert.pubkey, r.advert.timestamp),
          (lifetime nodeKey s.history)[0]?.map fun p => (p.1.advert.timestamp, p.2), f s t)) =
      some (some (nodeKey, older), some (newer, true), b)) :
    ∃ s t r r', advertRun openConfig (.start 1000 {} {} [])
        (olderAfterNewer newer older 1000 later) = some s ∧
      advertStep openConfig s (.handle 0 later recvAt) = some t ∧
      s.pending[0]? = some r ∧ r.advert.pubkey = nodeKey ∧ r.advert.timestamp = older ∧
      (r', true) ∈ lifetime nodeKey s.history ∧ r'.advert.timestamp = newer ∧ f s t = b := by
  obtain ⟨s, hrun, hlog⟩ := Option.bind_eq_some_iff.mp hlog
  obtain ⟨t, hstep, hlog⟩ := Option.map_eq_some_iff.mp hlog
  simp only [Prod.mk.injEq] at hlog
  obtain ⟨hpending, hlife, hf⟩ := hlog
  obtain ⟨r, hr, hwaits⟩ := Option.map_eq_some_iff.mp hpending
  obtain ⟨⟨r', applied⟩, hp, happlied⟩ := Option.map_eq_some_iff.mp hlife
  simp only [Prod.mk.injEq] at hwaits happlied
  obtain ⟨htime, rfl⟩ := happlied
  exact ⟨s, t, r, r', hrun, hstep, hr, hwaits.1, hwaits.2, List.mem_of_getElem? hp, htime, hf⟩

/-- The first advert is stored and the second one ignored. -/
theorem advertRun_guardHolds_ignored :
    ∃ s t, advertRun openConfig (.start 1000 {} {} [])
        (olderAfterNewer 900 800 1000 1600) = some s ∧
      s.notifications ≠ [] ∧ advertStep openConfig s (.handle 0 1600 1601) = some t ∧
      t.stores = s.stores ∧ t.notifications = s.notifications := by
  obtain ⟨s, t, r, r', hrun, hstep, hr, hkey, hold, hmem, hnew, hnotes⟩ :=
    olderAfterNewer_spec 900 800 1600 1601 (fun s _ => decide (s.notifications ≠ [])) true
      (by decide +kernel)
  have htimely : ∀ a ∈ olderAfterNewer 900 800 1000 1600, Timely openConfig nodeKey a := by
    simp only [olderAfterNewer, List.mem_cons, List.not_mem_nil, or_false]
    rintro a (rfl | rfl | rfl)
    · exact timely_of_timestamp (n := 900) (by decide +kernel) (by decide)
    · trivial
    · exact timely_of_timestamp (n := 800) (by decide +kernel) (by decide)
  have hguard := advertRun_guardHolds openConfig 1000 {} {} [] nodeKey htimely hrun
  obtain ⟨hstores, hsame⟩ := hguard.ignored 0 1600 1601 r r' t hr hkey hmem (by omega) hstep
  exact ⟨s, t, hrun, of_decide_eq_true hnotes, hstep, hstores, hsame⟩

/-- Both timestamps are ahead of the clock. The newer advert is stored under the clock's reading
1000, the older one is read as 1600 and passes for newer. -/
theorem advertRun_older_applied :
    ∃ s, advertRun openConfig (.start 1000 {} {} [])
        (olderAfterNewer 5000 4000 1000 1600) = some s ∧
      ¬ GuardHolds openConfig s nodeKey := by
  obtain ⟨s, t, r, r', hrun, hstep, hr, hkey, hold, hmem, hnew, hnotes⟩ :=
    olderAfterNewer_spec 5000 4000 1600 1600
      (fun s t => decide (t.notifications = s.notifications)) false (by decide +kernel)
  refine ⟨s, hrun, fun hguard => of_decide_eq_false hnotes ?_⟩
  exact (hguard.ignored 0 1600 1600 r r' t hr hkey hmem (by omega) hstep).2

end OpenHop.Companion
