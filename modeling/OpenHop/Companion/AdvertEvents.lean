import OpenHop.Companion.ContactStore
import OpenHop.Machine.Runs

/-! # The advert pipeline

A discovered node updates the path cache and the contact store and is notified to the app.
For a known contact an advert must be newer than the last one applied, or nothing happens at
all.
-/

namespace OpenHop.Companion

/-- The preferences that decide which new contacts are added. -/
structure AutoAddPrefs where
  manualAddContacts : ℕ := 0
  autoaddConfig : ℕ := 0
  autoaddMaxHops : ℕ := 0

/-- `_AUTOADD_TYPE_MAP` -/
def autoaddTypeBit : ℕ → ℕ
  | 1 => 0x02
  | 2 => 0x04
  | 3 => 0x08
  | 4 => 0x10
  | _ => 0

def AutoAddPrefs.shouldAutoAddContactType (prefs : AutoAddPrefs) (contactType : ℕ) : Bool :=
  if prefs.manualAddContacts &&& 1 = 0 then true
  else
    let typeBit := autoaddTypeBit contactType
    if typeBit ≠ 0 then prefs.autoaddConfig &&& typeBit ≠ 0 else false

def AutoAddPrefs.shouldOverwriteWhenFull (prefs : AutoAddPrefs) : Bool :=
  prefs.autoaddConfig &&& 0x01 ≠ 0

/-- The callbacks fired to the app. -/
inductive Notification where
  | advertReceived (contact : Contact)
  | nodeDiscovered (contact : Contact)
  | contactDeleted (key : Bytes)
  | contactsFull
  deriving DecidableEq

structure Stores where
  contacts : ContactStore := {}
  pathCache : PathCache := {}

/-- What an advert did: the contact if it was stored, the callbacks and the new stores. -/
structure Outcome where
  applied : Option Contact := none
  notes : List Notification := []
  stores : Stores

/-- An advert of a known contact keeps what the app and the routing know about it. -/
def mergeExisting (contact existing : Contact) : Contact :=
  { contact with
    outPathLen := existing.outPathLen
    outPath := existing.outPath
    flags := existing.flags
    syncSince := existing.syncSince
    lastAdvertPacket := contact.lastAdvertPacket <|> existing.lastAdvertPacket }

def addNew (prefs : AutoAddPrefs) (s : Stores) (contact : Contact) : Outcome :=
  if prefs.shouldOverwriteWhenFull ∧ s.contacts.isFull then
    let (ok, overwritten, contacts) := s.contacts.addOrOverwrite contact
    let notes :=
      if ok ∧ overwritten.getD [] ≠ [] then [.contactDeleted (overwritten.getD [])]
      else if ¬ ok then [.contactsFull] else []
    { applied := if ok then some contact else none, notes, stores := { s with contacts } }
  else
    let (added, contacts) := s.contacts.add contact
    let notes := if ¬ added ∧ contacts.isFull then [.contactsFull] else []
    { applied := if added then some contact else none, notes, stores := { s with contacts } }

def applyAdvertToStores (prefs : AutoAddPrefs) (s : Stores) (contact : Contact)
    (inboundPath : Bytes) (pathLenEncoded recvAt : ℕ) : Outcome :=
  if contact.publicKey.length < 7 ∨ contact.name = [] then { stores := s }
  else
    let (ok, pathCache) := s.pathCache.update
      { publicKeyPrefix := contact.publicKey.take 7
        name := contact.name
        pathLen := pathLenEncoded
        path := inboundPath
        recvTimestamp := recvAt }
    let s := { s with pathCache }
    if ¬ ok then { stores := s }
    else
      match s.contacts.getByKey contact.publicKey with
      | some existing =>
        let contact := mergeExisting contact existing
        { applied := some contact, stores := { s with contacts := (s.contacts.update contact).2 } }
      | none =>
        if ¬ prefs.shouldAutoAddContactType contact.advType then { stores := s }
        else if 0 < prefs.autoaddMaxHops
            ∧ prefs.autoaddMaxHops ≤ PathUtils.getPathHashCount pathLenEncoded then { stores := s }
        else addNew prefs s contact

/-- The contact an event describes: the advert's wire flags are not contact flags. -/
def contactOf (e : NodeDiscovered) (now : ℕ) : Contact :=
  let contact := { Contact.fromDict e now with flags := 0 }
  match e.rawAdvertPacket with
  | some (b :: raw) => { contact with lastAdvertPacket := some (b :: raw) }
  | _ => contact

def isReplay (s : ContactStore) (contact : Contact) : Bool :=
  match s.getByKey contact.publicKey with
  | some existing => decide (contact.lastAdvertTimestamp ≤ existing.lastAdvertTimestamp)
  | none => false

/-- The `NODE_DISCOVERED` branch of `_handle_mesh_event`, for a companion with key `own`. -/
def handleMeshEvent (own : Bytes) (prefs : AutoAddPrefs) (s : Stores) (e : NodeDiscovered)
    (now recvAt : ℕ) : Outcome :=
  let contact := contactOf e now
  if contact.publicKey = own then { stores := s }
  else if 7 ≤ contact.publicKey.length ∧ contact.name ≠ [] then
    if isReplay s.contacts contact then { stores := s }
    else
      let o := applyAdvertToStores prefs s contact e.inboundPath e.pathLenEncoded recvAt
      match o.applied with
      | some c => { o with notes := o.notes ++ [.advertReceived c, .nodeDiscovered c] }
      | none => { o with notes := o.notes ++ [.nodeDiscovered contact] }
  else { stores := s }

/-- The fields of a contact that an advert determines. -/
structure SameAdvert (c contact : Contact) : Prop where
  publicKey : c.publicKey = contact.publicKey
  name : c.name = contact.name
  advType : c.advType = contact.advType
  gpsLat : c.gpsLat = contact.gpsLat
  gpsLon : c.gpsLon = contact.gpsLon
  lastAdvertTimestamp : c.lastAdvertTimestamp = contact.lastAdvertTimestamp

/-- Either the contacts stay as they are, or the contact is stored and at most one other contact
goes, which the app is told. -/
inductive Effect (s : ContactStore) (contact : Contact) (o : Outcome) : Prop where
  | kept (happlied : o.applied = none) (hcontacts : o.stores.contacts = s)
      (hnotes : ∀ key, .contactDeleted key ∉ o.notes)
  | stored (c : Contact) (happlied : o.applied = some c) (hsame : SameAdvert c contact)
      (hget : ∀ key ≠ [], o.stores.contacts.getByKey key =
        if key = contact.publicKey then some c
        else if .contactDeleted key ∈ o.notes then none else s.getByKey key)

variable {own : Bytes} {prefs : AutoAddPrefs} {s : Stores} {contact : Contact}

theorem SameAdvert.refl (c : Contact) : SameAdvert c c := ⟨rfl, rfl, rfl, rfl, rfl, rfl⟩

theorem contactOf_sameAdvert (e : NodeDiscovered) (now : ℕ) :
    SameAdvert (contactOf e now) (Contact.fromDict e now) := by
  unfold contactOf
  dsimp only
  split <;> exact ⟨rfl, rfl, rfl, rfl, rfl, rfl⟩

theorem update_eq_put (s : ContactStore) (c : Contact) (h : (s.getByKey c.publicKey).isSome) :
    (s.update c).2 = s.put c := by
  have hc : s.contacts.contains c.publicKey = true := h
  simp [ContactStore.update, hc]

theorem addNew_effect {contacts : ContactStore} (pathCache : PathCache)
    (hnew : contacts.getByKey contact.publicKey = none) :
    Effect contacts contact (addNew prefs { contacts, pathCache } contact) := by
  have hc : contacts.contacts.contains contact.publicKey = false :=
    congrArg Option.isSome hnew
  unfold addNew
  split
  · rename_i hfull
    simp only [ContactStore.addOrOverwrite, hc, Bool.false_eq_true, if_false, hfull.2, if_true]
    cases hold : contacts.oldestKey with
    | none => exact .kept rfl rfl (by simp)
    | some old =>
      refine .stored contact rfl (.refl contact) fun key hkey => ?_
      by_cases hk : key = contact.publicKey
      · simp [hk]
      · by_cases ho : key = old
        · simp [hk, ← ho, hkey]
        · by_cases hnil : old = []
          · simp [hk, hnil, hkey]
          · simp [hk, ho, hnil]
  · simp only [ContactStore.add, hc, Bool.false_eq_true, if_false]
    split
    · refine .kept rfl rfl fun key => ?_
      simp only
      split <;> simp
    · refine .stored contact rfl (.refl contact) fun key _ => ?_
      simp

theorem applyAdvertToStores_effect (prefs : AutoAddPrefs) (s : Stores) (contact : Contact)
    (path : Bytes) (pathLen recvAt : ℕ) :
    Effect s.contacts contact (applyAdvertToStores prefs s contact path pathLen recvAt) := by
  have hkept (p : PathCache) : Effect s.contacts contact { stores := { s with pathCache := p } } :=
    .kept rfl rfl (by simp)
  unfold applyAdvertToStores
  dsimp only
  split
  · exact hkept s.pathCache
  split
  · exact hkept _
  split
  · rename_i existing hget
    refine .stored _ rfl ⟨rfl, rfl, rfl, rfl, rfl, rfl⟩ fun key _ => ?_
    rw [update_eq_put _ _ (by exact congrArg Option.isSome hget)]
    simp [mergeExisting]
  · rename_i hnew
    split
    · exact hkept _
    split
    · exact hkept _
    · exact addNew_effect _ hnew

theorem handleMeshEvent_replay {e : NodeDiscovered} {now recvAt : ℕ}
    (h : isReplay s.contacts (contactOf e now) = true) :
    handleMeshEvent own prefs s e now recvAt = { stores := s } := by
  simp only [handleMeshEvent, h, if_true, ite_self]

theorem handleMeshEvent_own {e : NodeDiscovered} {now recvAt : ℕ}
    (h : (contactOf e now).publicKey = own) :
    handleMeshEvent own prefs s e now recvAt = { stores := s } := by
  simp only [handleMeshEvent, h, if_true]

theorem handleMeshEvent_effect (own : Bytes) (prefs : AutoAddPrefs) (s : Stores)
    (e : NodeDiscovered) (now recvAt : ℕ) :
    Effect s.contacts (contactOf e now) (handleMeshEvent own prefs s e now recvAt) := by
  have hkept : Effect s.contacts (contactOf e now) { stores := s } := .kept rfl rfl (by simp)
  unfold handleMeshEvent
  dsimp only
  split
  · exact hkept
  split
  · split
    · exact hkept
    · have heffect := applyAdvertToStores_effect prefs s (contactOf e now) e.inboundPath
        e.pathLenEncoded recvAt
      cases heffect with
      | kept happlied hcontacts hnotes =>
        rw [happlied]
        exact .kept rfl hcontacts (by simpa using hnotes)
      | stored c happlied hsame hget =>
        rw [happlied]
        exact .stored c rfl hsame (by simpa using hget)
  · exact hkept

/-! A cache with room never fails, so a newer advert of a known contact is always stored. -/

theorem addNew_pathCache : (addNew prefs s contact).stores.pathCache = s.pathCache := by
  unfold addNew
  split <;> rfl

theorem applyAdvertToStores_pathCache (path : Bytes) (pathLen recvAt : ℕ) :
    (applyAdvertToStores prefs s contact path pathLen recvAt).stores.pathCache = s.pathCache ∨
      ∃ p : AdvertPath, p.path = path ∧
        (applyAdvertToStores prefs s contact path pathLen recvAt).stores.pathCache =
          (s.pathCache.update p).2 := by
  unfold applyAdvertToStores
  dsimp only
  split
  · exact Or.inl rfl
  refine Or.inr ⟨⟨contact.publicKey.take 7, contact.name, pathLen, path, recvAt⟩, rfl, ?_⟩
  split
  · rfl
  split
  · rfl
  split
  · rfl
  split
  · rfl
  · exact addNew_pathCache

theorem handleMeshEvent_pathCache (e : NodeDiscovered) (now recvAt : ℕ) :
    (handleMeshEvent own prefs s e now recvAt).stores.pathCache = s.pathCache ∨
      ∃ p : AdvertPath, p.path = e.inboundPath ∧
        (handleMeshEvent own prefs s e now recvAt).stores.pathCache = (s.pathCache.update p).2 := by
  unfold handleMeshEvent
  dsimp only
  split
  · exact Or.inl rfl
  split
  · split
    · exact Or.inl rfl
    · split <;> exact applyAdvertToStores_pathCache ..
  · exact Or.inl rfl

theorem handleMeshEvent_maxEntries (e : NodeDiscovered) (now recvAt : ℕ) :
    (handleMeshEvent own prefs s e now recvAt).stores.pathCache.maxEntries =
      s.pathCache.maxEntries := by
  rcases handleMeshEvent_pathCache e now recvAt with h | ⟨p, -, h⟩
  · rw [h]
  · rw [h, PathCache.update_maxEntries]

theorem applyAdvertToStores_known {existing : Contact} (prefs : AutoAddPrefs) (path : Bytes)
    (pathLen recvAt : ℕ) (hroom : 0 < s.pathCache.maxEntries)
    (hkey : 7 ≤ contact.publicKey.length) (hname : contact.name ≠ [])
    (hget : s.contacts.getByKey contact.publicKey = some existing) :
    (applyAdvertToStores prefs s contact path pathLen recvAt).applied.isSome := by
  unfold applyAdvertToStores
  rw [if_neg (by simp [hname, hkey])]
  simp [PathCache.update_ok hroom, hget]

theorem handleMeshEvent_known {e : NodeDiscovered} {now : ℕ} {existing : Contact}
    (prefs : AutoAddPrefs) (recvAt : ℕ) (hroom : 0 < s.pathCache.maxEntries)
    (hown : (contactOf e now).publicKey ≠ own)
    (hkey : 7 ≤ (contactOf e now).publicKey.length) (hname : (contactOf e now).name ≠ [])
    (hget : s.contacts.getByKey (contactOf e now).publicKey = some existing)
    (hnew : isReplay s.contacts (contactOf e now) = false) :
    (handleMeshEvent own prefs s e now recvAt).applied.isSome := by
  have happlied := applyAdvertToStores_known prefs e.inboundPath e.pathLenEncoded recvAt hroom hkey
    hname hget
  obtain ⟨c, hc⟩ := Option.isSome_iff_exists.mp happlied
  simp [handleMeshEvent, hown, hkey, hname, hnew, hc]

end OpenHop.Companion
