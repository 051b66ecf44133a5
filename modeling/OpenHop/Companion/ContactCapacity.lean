import OpenHop.Companion.ContactFrames
import OpenHop.Companion.ContactPolicy

/-! # The capacity of the contact store

Real and transient contacts share one dictionary, each kind with a bound of its own, and
only the type of a contact tells them apart.
-/

namespace OpenHop

namespace ContactStore

/-- The loop of `load_from`, which stops when the store is full. -/
def load (s : ContactStore) : List Contact → ContactStore
  | [] => s
  | c :: cs => if s.isFull then s else (s.put c).load cs

def clear (s : ContactStore) : ContactStore := { s with contacts := Dict.empty }

def loadFrom (s : ContactStore) (contacts : List Contact) : ContactStore := s.clear.load contacts

end ContactStore

/-- The blanks that `bytes.fromhex` skips. -/
def isBlank (ch : Char) : Bool := ch ∈ [' ', '\t', '\n', '\r', '\x0b', '\x0c']

def fromHex? : List Char → Option Bytes
  | [] => some []
  | [ch] => if isBlank ch then some [] else none
  | hi :: lo :: cs =>
    if isBlank hi then fromHex? (lo :: cs)
    else do
      let h ← PacketBuilder.hexDigit? hi
      let l ← PacketBuilder.hexDigit? lo
      return UInt8.ofNat (16 * h + l) :: (← fromHex? cs)

/-- Byte strings as a record holds them. -/
inductive RecordBytes where
  | hex (text : List Char)
  | raw (d : Bytes)
  | ints (ns : List ℕ)

namespace RecordBytes

def toKey? : RecordBytes → Option Bytes
  | .hex text => fromHex? text
  | .raw d => some d
  | .ints _ => none

def toPath? : RecordBytes → Option Bytes
  | .hex text => fromHex? text
  | .raw d => some d
  | .ints ns => if ∀ n ∈ ns, n < 256 then some (ns.map UInt8.ofNat) else none

def toAdvert? : RecordBytes → Option Bytes
  | .hex [] => none
  | .hex text => fromHex? text
  | .raw d => some d
  | .ints _ => none

end RecordBytes

/-- A contact as it was saved. -/
structure ContactRecord where
  publicKey : Option RecordBytes
  name : List Char := []
  advType : ℕ := 0
  flags : ℕ := 0
  outPath : RecordBytes := .raw []
  outPathLen : ℤ := -1
  lastAdvertTimestamp : ℕ := 0
  lastmod : ℕ := 0
  gpsLat : ℚ := 0
  gpsLon : ℚ := 0
  syncSince : ℕ := 0
  lastAdvertPacket : Option RecordBytes := none

def ContactRecord.toContact? (r : ContactRecord) : Option Contact := do
  let publicKey ← r.publicKey >>= RecordBytes.toKey?
  let outPath ← r.outPath.toPath?
  return {
    publicKey
    name := r.name
    advType := r.advType
    flags := r.flags
    outPathLen := if r.outPathLen = -1 ∨ r.outPathLen = 255 then -1 else r.outPathLen
    outPath
    lastAdvertTimestamp := r.lastAdvertTimestamp
    lastmod := r.lastmod
    gpsLat := r.gpsLat
    gpsLon := r.gpsLon
    syncSince := r.syncSince
    lastAdvertPacket := r.lastAdvertPacket >>= RecordBytes.toAdvert? }

namespace ContactStore

/-- The loop of `load_from_dicts`; an exception leaves what was loaded before it. -/
def loadRecords (s : ContactStore) : List ContactRecord → ContactStore
  | [] => s
  | r :: rs =>
    if s.isFull then s
    else
      match r.toContact? with
      | none => s
      | some c => (s.put c).loadRecords rs

def loadFromDicts (s : ContactStore) (records : List ContactRecord) : ContactStore :=
  s.clear.loadRecords records

def readable : List ContactRecord → List Contact
  | [] => []
  | r :: rs =>
    match r.toContact? with
    | none => []
    | some c => c :: readable rs

theorem loadFromDicts_eq (s : ContactStore) (rs : List ContactRecord) :
    s.loadFromDicts rs = s.loadFrom (readable rs) := by
  have hload (s : ContactStore) : s.loadRecords rs = s.load (readable rs) := by
    induction rs generalizing s with
    | nil => rfl
    | cons r rs ih =>
      unfold loadRecords readable
      cases r.toContact? with
      | none => exact ite_self s
      | some c =>
        unfold load
        split
        · rfl
        · exact ih (s.put c)
  exact hload _

end ContactStore

/-- The contacts of a companion with what its event handlers use besides. -/
structure CompanionContacts extends ContactServer where
  pathCache : PathCache := {}

/-- What changes the contacts. An advert comes with the preferences and the clock readings that
it is handled under. -/
inductive ContactEvent where
  | advert (own : Bytes) (prefs : Companion.AutoAddPrefs) (node : NodeDiscovered) (now recvAt : ℕ)
  | addUpdate (data : Bytes) (now later : ℕ)
  | anonRequest (key : Bytes) (now : ℕ)
  | remove (key : Bytes)
  | loadFrom (contacts : List Contact)
  | loadFromDicts (records : List ContactRecord)

/-- The part of `send_anon_req` that makes a contact for an unknown key. -/
def ContactStore.sendAnonReq (s : ContactStore) (key : Bytes) (now : ℕ) : ContactStore :=
  match s.getByKey key with
  | some _ => s
  | none =>
    (s.addTransient
      { publicKey := key, advType := advTypeNone, outPathLen := 0, lastmod := now }).2.2

namespace CompanionContacts

def init (maxContacts : ℕ) : CompanionContacts := { contacts := { maxContacts } }

def handleAdvert (s : CompanionContacts) (own : Bytes) (prefs : Companion.AutoAddPrefs)
    (node : NodeDiscovered) (now recvAt : ℕ) : Companion.Outcome :=
  Companion.handleMeshEvent own prefs { contacts := s.contacts, pathCache := s.pathCache } node now
    recvAt

def step (s : CompanionContacts) : ContactEvent → CompanionContacts
  | .advert own prefs node now recvAt =>
    let o := s.handleAdvert own prefs node now recvAt
    { s with contacts := o.stores.contacts, pathCache := o.stores.pathCache }
  | .addUpdate data now later =>
    { s with toContactServer := s.toContactServer.cmdAddUpdateContact data now later }
  | .anonRequest key now => { s with contacts := s.contacts.sendAnonReq key now }
  | .remove key => { s with contacts := s.contacts.remove key }
  | .loadFrom contacts => { s with contacts := s.contacts.loadFrom contacts }
  | .loadFromDicts records => { s with contacts := s.contacts.loadFromDicts records }

/-- The state after some events, from an empty store. -/
def run (maxContacts : ℕ) (events : List ContactEvent) : CompanionContacts :=
  events.foldl step (init maxContacts)

end CompanionContacts

namespace ContactStore

def isReal (c : Contact) : Bool := ¬ isTransient c

def realCount (s : ContactStore) : ℕ := s.contacts.count isReal

@[mk_iff]
structure WithinCapacity (s : ContactStore) : Prop where
  real : s.realCount ≤ s.maxContacts
  anon : s.anonCount ≤ maxAnonContacts

/-- The contact comes into a pool that is at its bound and where it does not replace another: a
transient contact under a key that is not held by one, or a real contact under the key of a
transient one. -/
def Crowds (s : ContactStore) (c : Contact) : Prop :=
  isTransient c = true ∧ (s.getByKey c.publicKey).any isTransient = false ∧
      maxAnonContacts ≤ s.anonCount ∨
    isTransient c = false ∧ (s.getByKey c.publicKey).any isTransient = true ∧
      s.maxContacts ≤ s.realCount

/-- The ways in which a contact gets into a store. -/
inductive Placed (s : ContactStore) (c : Contact) : ContactStore → Prop where
  | known (x : Contact) (hx : s.getByKey c.publicKey = some x) : Placed s c (s.put c)
  | room (hnew : s.getByKey c.publicKey = none) (hroom : s.isFull = false) : Placed s c (s.put c)
  | evicting (key : Bytes) (x : Contact) (hnew : s.getByKey c.publicKey = none)
      (hx : s.getByKey key = some x) (hreal : isReal x = true) : Placed s c ((s.remove key).put c)

variable {s s' : ContactStore} {c : Contact}

theorem anonCount_eq (s : ContactStore) : s.anonCount = s.contacts.count isTransient :=
  (List.countP_eq_length_filter ..).symm

theorem size_eq (s : ContactStore) : s.contacts.size = s.anonCount + s.realCount := by
  rw [anonCount_eq]
  exact Dict.size_eq_count s.contacts isTransient

theorem anonCount_put (s : ContactStore) (c : Contact) :
    (s.put c).anonCount + (s.getByKey c.publicKey).toList.countP isTransient =
      s.anonCount + [c].countP isTransient := by
  simp only [anonCount_eq]
  exact Dict.count_set ..

theorem realCount_put (s : ContactStore) (c : Contact) :
    (s.put c).realCount + (s.getByKey c.publicKey).toList.countP isReal =
      s.realCount + [c].countP isReal :=
  Dict.count_set ..

theorem anonCount_remove (s : ContactStore) (key : Bytes) :
    (s.remove key).anonCount + (s.getByKey key).toList.countP isTransient = s.anonCount := by
  simp only [anonCount_eq]
  exact Dict.count_erase ..

theorem realCount_remove (s : ContactStore) (key : Bytes) :
    (s.remove key).realCount + (s.getByKey key).toList.countP isReal = s.realCount :=
  Dict.count_erase ..

theorem isReal_eq (c : Contact) : isReal c = !isTransient c := by
  cases h : isTransient c <;> simp [isReal, h]

theorem Placed.withinCapacity_iff (h : Placed s c s') (hs : s.WithinCapacity) :
    s'.WithinCapacity ↔ ¬ s.Crowds c := by
  have hreal := hs.real
  have hanon := hs.anon
  have hsize := s.size_eq
  cases h with
  | known x hx =>
    have ha := anonCount_put s c
    have hr := realCount_put s c
    rw [withinCapacity_iff, show (s.put c).maxContacts = s.maxContacts from rfl, Crowds, hx]
    rw [hx] at ha hr
    cases hxt : isTransient x <;> cases hct : isTransient c <;>
      simp [isReal_eq, hxt, hct] at ha hr ⊢ <;> omega
  | room hnew hroom =>
    have ha := anonCount_put s c
    have hr := realCount_put s c
    have hlt : s.contacts.size < s.maxContacts := by simpa [isFull] using hroom
    rw [withinCapacity_iff, show (s.put c).maxContacts = s.maxContacts from rfl, Crowds, hnew]
    rw [hnew] at ha hr
    cases hct : isTransient c <;> simp [isReal_eq, hct] at ha hr ⊢ <;> omega
  | evicting key x hnew hx hxr =>
    have ha := anonCount_put (s.remove key) c
    have hr := realCount_put (s.remove key) c
    have ha' := anonCount_remove s key
    have hr' := realCount_remove s key
    have hxt : isTransient x = false := by simpa [isReal_eq] using hxr
    have hgone : (s.remove key).getByKey c.publicKey = none := by simp [hnew]
    rw [withinCapacity_iff, show ((s.remove key).put c).maxContacts = s.maxContacts from rfl,
      Crowds, hnew]
    rw [hgone] at ha hr
    rw [hx] at ha' hr'
    cases hct : isTransient c <;> simp [isReal_eq, hxt, hct] at ha hr ha' hr' ⊢ <;> omega

def Stored? (s : ContactStore) (c : Contact) (ok : Bool) (s' : ContactStore) : Prop :=
  if ok then Placed s c s' else s' = s

theorem add_stored? (s : ContactStore) (c : Contact) :
    s.Stored? c (s.add c).1 (s.add c).2 := by
  unfold add
  split
  · rename_i hknown
    obtain ⟨x, hx⟩ := Option.isSome_iff_exists.mp hknown
    exact .known x hx
  split
  · rfl
  · rename_i hnew hroom
    exact .room (getByKey_eq_none.mpr (eq_false_of_ne_true hnew)) (eq_false_of_ne_true hroom)

theorem isReal_of_foldl_older {entries : List (Bytes × Contact)} {start : ℕ × Option Bytes}
    {key : Bytes} (h : (entries.foldl older start).2 = some key) :
    start.2 = some key ∨ ∃ x, (key, x) ∈ entries ∧ isReal x = true := by
  induction entries generalizing start with
  | nil => exact .inl h
  | cons e entries ih =>
    obtain hstart | ⟨x, hx, hreal⟩ := ih h
    · rw [older_eq] at hstart
      split at hstart
      · rename_i hev
        obtain rfl := Option.some.inj hstart
        refine .inr ⟨e.2, List.mem_cons_self, ?_⟩
        have hev := hev.1
        simp only [isEvictable, decide_eq_true_eq] at hev
        simp [isReal, isTransient, hev.2]
      · exact .inl hstart
    · exact .inr ⟨x, List.mem_cons_of_mem e hx, hreal⟩

theorem addOrOverwrite_stored? (s : ContactStore) (c : Contact) :
    s.Stored? c (s.addOrOverwrite c).1 (s.addOrOverwrite c).2.2 := by
  unfold addOrOverwrite
  split
  · rename_i hknown
    obtain ⟨x, hx⟩ := Option.isSome_iff_exists.mp hknown
    have hput : s.update c = (true, s.put c) := by simp [update, hknown]
    rw [hput]
    exact .known x hx
  rename_i hnew
  have hnone : s.getByKey c.publicKey = none := getByKey_eq_none.mpr (eq_false_of_ne_true hnew)
  split
  · cases hold : s.oldestKey with
    | none => rfl
    | some key =>
      obtain hstart | ⟨x, hx, hreal⟩ := isReal_of_foldl_older hold
      · cases hstart
      · exact .evicting key x hnone (Dict.get?_of_mem hx) hreal
  · rename_i hroom
    exact .room hnone (eq_false_of_ne_true hroom)

theorem add_fst (s : ContactStore) (c : Contact) :
    (s.add c).1 = true ↔ (s.getByKey c.publicKey).isSome = true ∨ s.isFull = false := by
  unfold add
  split
  · rename_i hknown
    exact iff_of_true rfl (.inl hknown)
  · rename_i hnew
    have hnone : ¬ (s.getByKey c.publicKey).isSome = true := hnew
    cases hfull : s.isFull <;> simp [hnone]

theorem WithinCapacity.add (h : s.WithinCapacity) (c : Contact) :
    (s.add c).2.WithinCapacity ↔
      ¬ (((s.getByKey c.publicKey).isSome = true ∨ s.isFull = false) ∧ s.Crowds c) := by
  have hstored := s.add_stored? c
  rw [← add_fst]
  by_cases hok : (s.add c).1 = true
  · rw [Stored?, if_pos hok] at hstored
    simp only [hok, true_and, hstored.withinCapacity_iff h]
  · rw [Stored?, if_neg hok] at hstored
    rw [hstored]
    exact iff_of_true h fun hc => hok hc.1

theorem WithinCapacity.remove (h : s.WithinCapacity) (key : Bytes) :
    (s.remove key).WithinCapacity := by
  have ha := anonCount_remove s key
  have hr := realCount_remove s key
  constructor
  · exact le_trans (by omega) h.real
  · exact le_trans (by omega) h.anon

theorem WithinCapacity.addTransient (h : s.WithinCapacity)
    (hnew : s.getByKey c.publicKey = none) (hc : isTransient c = true) :
    (s.addTransient c).2.2.WithinCapacity := by
  have hanon := h.anon
  have hreal := h.real
  have hgrow {t : ContactStore} (ht : t.getByKey c.publicKey = none) :
      (t.put c).anonCount = t.anonCount + 1 ∧ (t.put c).realCount = t.realCount := by
    have ha := anonCount_put t c
    have hr := realCount_put t c
    rw [ht] at ha hr
    simpa [isReal_eq, hc] using And.intro ha hr
  obtain ⟨hlt, hadd⟩ | ⟨hfull, key, hold, hadd⟩ := addTransient_new hnew
  · obtain ⟨ha, hr⟩ := hgrow hnew
    rw [hadd]
    exact ⟨by rw [hr]; exact hreal, by rw [ha]; exact hlt⟩
  · obtain ⟨x, hx, hxt⟩ := hold.getByKey
    obtain ⟨ha, hr⟩ := hgrow (t := s.remove key) (by simp [hnew])
    have ha' := anonCount_remove s key
    have hr' := realCount_remove s key
    rw [hx] at ha' hr'
    simp only [Option.toList_some, isReal_eq, hxt, List.countP_singleton, if_true] at ha' hr'
    rw [hadd]
    exact ⟨by rw [hr]; exact le_trans (by omega) hreal, by rw [ha]; omega⟩

theorem WithinCapacity.sendAnonReq (h : s.WithinCapacity) (key : Bytes) (now : ℕ) :
    (s.sendAnonReq key now).WithinCapacity := by
  unfold ContactStore.sendAnonReq
  cases hget : s.getByKey key with
  | some x => exact h
  | none => exact h.addTransient hget rfl

@[simp] theorem maxContacts_load (s : ContactStore) (cs : List Contact) :
    (s.load cs).maxContacts = s.maxContacts := by
  induction cs generalizing s with
  | nil => rfl
  | cons c cs ih =>
    unfold load
    split
    · rfl
    · exact ih (s.put c)

theorem size_load_le {cs : List Contact} (h : s.contacts.size ≤ s.maxContacts) :
    (s.load cs).contacts.size ≤ s.maxContacts := by
  induction cs generalizing s with
  | nil => exact h
  | cons c cs ih =>
    unfold load
    split
    · exact h
    · rename_i hroom
      have hlt : s.contacts.size < s.maxContacts := by simpa [isFull] using hroom
      have hput : (s.put c).contacts.size ≤ s.contacts.size + 1 := by
        have hcount := Dict.count_set s.contacts (fun _ => true) c.publicKey c
        simp only [Dict.count, List.countP_true] at hcount
        exact le_trans (Nat.le_add_right _ _) (le_of_eq hcount)
      exact ih (s := s.put c) (le_trans hput hlt)

/-- The contacts of a list that a store with room for so many keys takes before it is full. -/
def takeKeys (room : ℕ) (keys : List Bytes) : List Contact → List Contact
  | [] => []
  | c :: cs =>
    if room ≤ keys.length then []
    else c :: takeKeys room (if c.publicKey ∈ keys then keys else keys ++ [c.publicKey]) cs

/-- Of the contacts with one key the last one. -/
def lastOfKeys (cs : List Contact) : List Contact :=
  cs.pwFilter fun c d => c.publicKey ≠ d.publicKey

/-- A list whose transient contacts do not all fit, as far as it is taken. -/
def LoadsTooMany (s : ContactStore) (cs : List Contact) : Prop :=
  maxAnonContacts < (lastOfKeys (takeKeys s.maxContacts [] cs)).countP isTransient

theorem load_eq_foldl (s : ContactStore) (cs : List Contact) :
    s.load cs = (takeKeys s.maxContacts s.contacts.keys cs).foldl put s := by
  induction cs generalizing s with
  | nil => rfl
  | cons c cs ih =>
    have hkeys : (s.put c).contacts.keys =
        if c.publicKey ∈ s.contacts.keys then s.contacts.keys
        else s.contacts.keys ++ [c.publicKey] := by
      by_cases h : c.publicKey ∈ s.contacts.keys
      · rw [if_pos h]
        exact Dict.keys_set_of_mem h c
      · rw [if_neg h]
        exact (Dict.map_fst_assign ..).trans (if_neg h)
    have hfull : s.isFull = true ↔ s.maxContacts ≤ s.contacts.keys.length := by
      rw [isFull, decide_eq_true_iff, Dict.size, Dict.keys, List.length_map]
    unfold load takeKeys
    by_cases h : s.maxContacts ≤ s.contacts.keys.length
    · rw [if_pos (hfull.mpr h), if_pos h]
      rfl
    · rw [if_neg (mt hfull.mp h), if_neg h, ih, hkeys]
      rfl

theorem getByKey_foldl_put (s : ContactStore) (cs : List Contact) (key : Bytes) :
    (cs.foldl put s).getByKey key =
      ((lastOfKeys cs).find? (·.publicKey = key) <|> s.getByKey key) := by
  induction cs generalizing s with
  | nil => rfl
  | cons c cs ih =>
    rw [List.foldl_cons, ih, getByKey_put]
    by_cases hlast : ∀ d ∈ lastOfKeys cs, c.publicKey ≠ d.publicKey
    · have hcons : lastOfKeys (c :: cs) = c :: lastOfKeys cs := List.pwFilter_cons_of_pos hlast
      rw [hcons, List.find?_cons]
      by_cases hkey : key = c.publicKey
      · subst hkey
        have hnone : (lastOfKeys cs).find? (·.publicKey = c.publicKey) = none :=
          List.find?_eq_none.mpr fun d hd => by simpa using (hlast d hd).symm
        simp [hnone]
      · simp [hkey, Ne.symm hkey]
    · have hcons : lastOfKeys (c :: cs) = lastOfKeys cs := List.pwFilter_cons_of_neg hlast
      rw [hcons]
      by_cases hkey : key = c.publicKey
      · subst hkey
        push Not at hlast
        obtain ⟨d, hd, heq⟩ := hlast
        have hsome : ((lastOfKeys cs).find? (·.publicKey = c.publicKey)).isSome :=
          List.find?_isSome.mpr ⟨d, hd, by simpa using heq.symm⟩
        obtain ⟨d, hd⟩ := Option.isSome_iff_exists.mp hsome
        simp [hd]
      · simp [hkey]

theorem find?_publicKey {cs : List Contact}
    (h : cs.Pairwise fun c d => c.publicKey ≠ d.publicKey) (c : Contact) :
    cs.find? (·.publicKey = c.publicKey) = some c ↔ c ∈ cs := by
  refine ⟨List.mem_of_find?_eq_some, fun hc => ?_⟩
  induction h with
  | nil => cases hc
  | cons hd _ ih =>
    rcases List.mem_cons.mp hc with rfl | hc
    · simp
    · rw [List.find?_cons_of_neg (by simpa using hd c hc)]
      exact ih hc

theorem keyed_foldl_put {s : ContactStore} (hs : s.Keyed) (cs : List Contact) :
    (cs.foldl put s).Keyed := by
  induction cs generalizing s with
  | nil => exact hs
  | cons c cs ih => exact ih (hs.put c)

/-- A store that was filled with a list holds the last contact of each key. -/
theorem values_foldl_put_perm (s : ContactStore) (cs : List Contact) :
    (cs.foldl put s.clear).contacts.values.Perm (lastOfKeys cs) := by
  have hkeyed := keyed_foldl_put (s := s.clear) (fun _ _ h => by cases h) cs
  have hdistinct : (lastOfKeys cs).Pairwise fun c d => c.publicKey ≠ d.publicKey :=
    List.pairwise_pwFilter cs
  refine (List.perm_ext_iff_of_nodup ?_ (hdistinct.imp fun h heq => h (congrArg _ heq))).mpr ?_
  · refine List.Nodup.of_map (·.publicKey) ?_
    rw [hkeyed.publicKeys]
    exact (cs.foldl put s.clear).contacts.nodup
  · intro c
    have hget := getByKey_foldl_put s.clear cs c.publicKey
    have hclear : s.clear.getByKey c.publicKey = none := rfl
    simp only [hclear, Option.orElse_eq_orElse, Option.orElse_eq_or, Option.or_none] at hget
    rw [← find?_publicKey hdistinct, ← hget]
    constructor
    · intro hc
      obtain ⟨⟨key, _⟩, he, rfl⟩ := List.mem_map.mp hc
      have hentry := Dict.get?_of_mem he
      rwa [← hkeyed _ _ hentry] at hentry
    · intro hc
      exact List.mem_map.mpr ⟨_, Dict.get?_eq_some_iff.mp hc, rfl⟩

theorem anonCount_loadFrom (s : ContactStore) (cs : List Contact) :
    (s.loadFrom cs).anonCount =
      (lastOfKeys (takeKeys s.maxContacts [] cs)).countP isTransient := by
  rw [anonCount_eq, loadFrom, load_eq_foldl, ← (values_foldl_put_perm s _).countP_eq, Dict.values,
    List.countP_map]
  rfl

theorem withinCapacity_loadFrom (s : ContactStore) (cs : List Contact) :
    (s.loadFrom cs).WithinCapacity ↔ ¬ s.LoadsTooMany cs := by
  have hsize : (s.loadFrom cs).contacts.size ≤ s.maxContacts :=
    size_load_le (s := s.clear) (Nat.zero_le _)
  have hmax : (s.loadFrom cs).maxContacts = s.maxContacts := maxContacts_load s.clear cs
  rw [size_eq] at hsize
  rw [withinCapacity_iff, hmax, LoadsTooMany, ← anonCount_loadFrom, not_lt]
  exact and_iff_right (by omega)

theorem Crowds.congr {c d : Contact} (hkey : c.publicKey = d.publicKey)
    (htype : c.advType = d.advType) : s.Crowds c ↔ s.Crowds d := by
  simp only [Crowds, isTransient, hkey, htype]

theorem WithinCapacity.addUpdateContact (h : s.WithinCapacity) (c : Contact) (now : ℕ) :
    (s.addUpdateContact c now).2.WithinCapacity ↔
      ¬ (((s.getByKey c.publicKey).isSome = true ∨ s.isFull = false) ∧ s.Crowds c) := by
  have hkey : (c.dated now).publicKey = c.publicKey := by
    unfold Contact.dated
    split <;> rfl
  have htype : (c.dated now).advType = c.advType := by
    unfold Contact.dated
    split <;> rfl
  rw [ContactStore.addUpdateContact, h.add, hkey, Crowds.congr hkey htype]

/-- There is a contact that may be evicted, modified before the time the search starts from. -/
def HasEvictable (s : ContactStore) : Prop :=
  ∃ e ∈ s.contacts.entries, isEvictable e.2 = true ∧ e.2.lastmod < 0xFFFFFFFF

theorem isSome_foldl_older (entries : List (Bytes × Contact)) (start : ℕ × Option Bytes) :
    (entries.foldl older start).2.isSome = true ↔
      start.2.isSome = true ∨
        ∃ e ∈ entries, isEvictable e.2 = true ∧ e.2.lastmod < start.1 := by
  induction entries generalizing start with
  | nil => simp
  | cons e entries ih =>
    rw [List.foldl_cons, ih, older_eq]
    by_cases hev : isEvictable e.2 = true ∧ e.2.lastmod < start.1
    · simp [hev]
    · simp [hev]

theorem oldestKey_isSome (s : ContactStore) : s.oldestKey.isSome = true ↔ s.HasEvictable := by
  rw [oldestKey, isSome_foldl_older]
  simp [HasEvictable]

end ContactStore

namespace Companion

variable {s : Stores} {contact : Contact}

/-- What an advert did to the contacts: it was applied and its contact got in, or nothing. -/
def Applied (s : ContactStore) (o : Outcome) : Prop :=
  match o.applied with
  | none => o.stores.contacts = s
  | some c => s.Placed c o.stores.contacts

theorem addNew_applied (prefs : AutoAddPrefs) (s : Stores) (contact : Contact) :
    Applied s.contacts (addNew prefs s contact) := by
  unfold addNew
  split
  · have h := s.contacts.addOrOverwrite_stored? contact
    revert h
    rcases s.contacts.addOrOverwrite contact with ⟨_ | _, overwritten, contacts⟩ <;> exact id
  · have h := s.contacts.add_stored? contact
    revert h
    rcases s.contacts.add contact with ⟨_ | _, contacts⟩ <;> exact id

theorem applyAdvertToStores_applied (prefs : AutoAddPrefs) (s : Stores) (contact : Contact)
    (path : Bytes) (pathLen recvAt : ℕ) :
    Applied s.contacts (applyAdvertToStores prefs s contact path pathLen recvAt) := by
  unfold applyAdvertToStores
  dsimp only
  split
  · rfl
  split
  · rfl
  split
  · rename_i existing hget
    show s.contacts.Placed _ _
    rw [update_eq_put _ _ (by exact congrArg Option.isSome hget)]
    exact .known existing hget
  split
  · rfl
  split
  · rfl
  · exact addNew_applied prefs _ contact

theorem handleMeshEvent_applied (own : Bytes) (prefs : AutoAddPrefs) (s : Stores)
    (node : NodeDiscovered) (now recvAt : ℕ) :
    Applied s.contacts (handleMeshEvent own prefs s node now recvAt) := by
  unfold handleMeshEvent
  dsimp only
  split
  · rfl
  split
  · split
    · rfl
    · have h := applyAdvertToStores_applied prefs s (contactOf node now) node.inboundPath
        node.pathLenEncoded recvAt
      unfold Applied at h ⊢
      cases happlied : (applyAdvertToStores prefs s (contactOf node now) node.inboundPath
        node.pathLenEncoded recvAt).applied <;> simpa only [happlied] using h
  · rfl

/-- An unknown contact gets in: its type and distance are wanted, and there is a place for it. -/
def AdmitsNew (prefs : AutoAddPrefs) (s : ContactStore) (advType pathLenEncoded : ℕ) : Prop :=
  prefs.shouldAutoAddContactType advType = true ∧
    ¬ (0 < prefs.autoaddMaxHops ∧
      prefs.autoaddMaxHops ≤ PathUtils.getPathHashCount pathLenEncoded) ∧
    (s.isFull = false ∨ prefs.shouldOverwriteWhenFull = true ∧ s.HasEvictable)

/-- An advert gets in: it is another node's, has a name, and is newer than the last one of its
contact or is admitted as a new one. -/
def Accepts (own : Bytes) (prefs : AutoAddPrefs) (s : ContactStore) (node : NodeDiscovered)
    (now : ℕ) : Prop :=
  let contact := contactOf node now
  contact.publicKey ≠ own ∧ contact.name ≠ [] ∧
    match s.getByKey contact.publicKey with
    | some existing => existing.lastAdvertTimestamp < contact.lastAdvertTimestamp
    | none => AdmitsNew prefs s contact.advType node.pathLenEncoded

theorem addNew_isSome (prefs : AutoAddPrefs) (hnew : s.contacts.getByKey contact.publicKey = none) :
    (addNew prefs s contact).applied.isSome = true ↔
      s.contacts.isFull = false ∨
        prefs.shouldOverwriteWhenFull = true ∧ s.contacts.HasEvictable := by
  have hc : s.contacts.contacts.contains contact.publicKey = false :=
    congrArg Option.isSome hnew
  rw [← ContactStore.oldestKey_isSome]
  unfold addNew
  cases hfull : s.contacts.isFull with
  | false => simp [ContactStore.add, hc, hfull]
  | true =>
    cases hover : prefs.shouldOverwriteWhenFull with
    | false => simp [ContactStore.add, hc, hfull]
    | true =>
      cases hold : s.contacts.oldestKey <;>
        simp [ContactStore.addOrOverwrite, hc, hfull, hold]

theorem applyAdvertToStores_isSome (prefs : AutoAddPrefs) (path : Bytes) (pathLen recvAt : ℕ)
    (hkey : 7 ≤ contact.publicKey.length) (hname : contact.name ≠ [])
    (hroom : 0 < s.pathCache.maxEntries) :
    (applyAdvertToStores prefs s contact path pathLen recvAt).applied.isSome = true ↔
      match s.contacts.getByKey contact.publicKey with
      | some _ => True
      | none => AdmitsNew prefs s.contacts contact.advType pathLen := by
  unfold applyAdvertToStores
  rw [if_neg (by simp [hname]; omega)]
  dsimp only
  rw [if_neg (by simp [PathCache.update_ok hroom])]
  cases hget : s.contacts.getByKey contact.publicKey with
  | some existing => simp
  | none =>
    dsimp only
    rw [AdmitsNew]
    by_cases htype : prefs.shouldAutoAddContactType contact.advType = true
    · by_cases hfar : 0 < prefs.autoaddMaxHops ∧
          prefs.autoaddMaxHops ≤ PathUtils.getPathHashCount pathLen
      · simp [htype, hfar]
      · rw [if_neg (by simpa using htype), if_neg hfar]
        simp only [htype, hfar, not_false_eq_true, true_and]
        exact addNew_isSome prefs hget
    · simp [htype]

theorem handleMeshEvent_isSome (own : Bytes) (prefs : AutoAddPrefs) (node : NodeDiscovered)
    (now recvAt : ℕ) (hroom : 0 < s.pathCache.maxEntries) :
    (handleMeshEvent own prefs s node now recvAt).applied.isSome = true ↔
      Accepts own prefs s.contacts node now := by
  have hlen : 7 ≤ (contactOf node now).publicKey.length := by
    rw [(contactOf_sameAdvert node now).publicKey]
    simp [Contact.fromDict]
  unfold Accepts
  dsimp only
  by_cases hown : (contactOf node now).publicKey = own
  · rw [handleMeshEvent_own hown]
    simp [hown]
  by_cases hname : (contactOf node now).name = []
  · simp [handleMeshEvent, hown, hname]
  simp only [hown, hname, ne_eq, not_false_eq_true, true_and]
  cases hreplay : isReplay s.contacts (contactOf node now) with
  | true =>
    rw [handleMeshEvent_replay hreplay]
    unfold isReplay at hreplay
    split at hreplay
    · rename_i hget
      simpa [hget] using hreplay
    · cases hreplay
  | false =>
    have happlied : (handleMeshEvent own prefs s node now recvAt).applied =
        (applyAdvertToStores prefs s (contactOf node now) node.inboundPath node.pathLenEncoded
          recvAt).applied := by
      simp only [handleMeshEvent, hown, hlen, hname, hreplay, Bool.false_eq_true, if_false, ne_eq,
        not_false_eq_true, and_self, if_true]
      split <;> rfl
    rw [happlied, applyAdvertToStores_isSome prefs _ _ recvAt hlen hname hroom]
    unfold isReplay at hreplay
    cases hget : s.contacts.getByKey (contactOf node now).publicKey with
    | none => exact Iff.rfl
    | some old => simpa [hget] using hreplay

end Companion

namespace CompanionContacts

variable {s : CompanionContacts}

/-- The event brings a contact into a pool that is at its bound, or it is a load with too many
transient contacts. -/
def Overflows (s : CompanionContacts) : ContactEvent → Prop
  | .advert own prefs node now _ =>
    Companion.Accepts own prefs s.contacts node now ∧
      s.contacts.Crowds (Companion.contactOf node now)
  | .addUpdate data now _ =>
    let c := Contact.ofFrame data now
    36 ≤ data.length ∧ ((s.contacts.getByKey c.publicKey).isSome = true ∨
      s.contacts.isFull = false) ∧ s.contacts.Crowds c
  | .anonRequest _ _ => False
  | .remove _ => False
  | .loadFrom contacts => s.contacts.LoadsTooMany contacts
  | .loadFromDicts records => s.contacts.LoadsTooMany (ContactStore.readable records)

theorem withinCapacity_advert (hroom : 0 < s.pathCache.maxEntries)
    (hs : s.contacts.WithinCapacity) (own : Bytes) (prefs : Companion.AutoAddPrefs)
    (node : NodeDiscovered) (now recvAt : ℕ) :
    (s.step (.advert own prefs node now recvAt)).contacts.WithinCapacity ↔
      ¬ s.Overflows (.advert own prefs node now recvAt) := by
  let st : Companion.Stores := { contacts := s.contacts, pathCache := s.pathCache }
  have haccepts := Companion.handleMeshEvent_isSome (s := st) own prefs node now recvAt hroom
  have happlied := Companion.handleMeshEvent_applied own prefs st node now recvAt
  show (Companion.handleMeshEvent own prefs st node now recvAt).stores.contacts.WithinCapacity ↔
    ¬ (Companion.Accepts own prefs s.contacts node now ∧ _)
  rw [← haccepts]
  cases Companion.handleMeshEvent_effect own prefs st node now recvAt with
  | kept hnone hcontacts _ =>
    rw [hcontacts, hnone]
    exact iff_of_true hs nofun
  | stored c hsome hsame _ =>
    rw [Companion.Applied, hsome] at happlied
    rw [hsome, happlied.withinCapacity_iff hs,
      ContactStore.Crowds.congr hsame.publicKey hsame.advType]
    simp [st]

theorem withinCapacity_step_iff (hroom : 0 < s.pathCache.maxEntries)
    (hs : s.contacts.WithinCapacity) (e : ContactEvent) :
    (s.step e).contacts.WithinCapacity ↔ ¬ s.Overflows e := by
  cases e with
  | advert own prefs node now recvAt => exact withinCapacity_advert hroom hs ..
  | addUpdate data now later =>
    show (s.toContactServer.cmdAddUpdateContact data now later).contacts.WithinCapacity ↔ _
    by_cases hlen : data.length < 36
    · rw [s.toContactServer.contacts_short now later hlen]
      exact iff_of_true hs fun h => absurd h.1 (by omega)
    · have hlong : 36 ≤ data.length := by omega
      rw [s.toContactServer.contacts_long now later hlong, hs.addUpdateContact]
      simp only [Overflows, hlong, true_and]
  | anonRequest key now => exact iff_of_true (hs.sendAnonReq key now) id
  | remove key => exact iff_of_true (hs.remove key) id
  | loadFrom contacts => exact s.contacts.withinCapacity_loadFrom contacts
  | loadFromDicts records =>
    show (s.contacts.loadFromDicts records).WithinCapacity ↔ _
    rw [ContactStore.loadFromDicts_eq]
    exact s.contacts.withinCapacity_loadFrom (ContactStore.readable records)

theorem withinCapacity_init (maxContacts : ℕ) : (run maxContacts []).contacts.WithinCapacity :=
  ⟨Nat.zero_le _, Nat.zero_le _⟩

theorem maxEntries_run (maxContacts : ℕ) (events : List ContactEvent) :
    (run maxContacts events).pathCache.maxEntries = 16 := by
  have hstep (s : CompanionContacts) (e : ContactEvent) :
      (s.step e).pathCache.maxEntries = s.pathCache.maxEntries := by
    cases e with
    | advert own prefs node now recvAt => exact Companion.handleMeshEvent_maxEntries ..
    | addUpdate | anonRequest | remove | loadFrom | loadFromDicts => rfl
  induction events using List.reverseRecOn with
  | nil => rfl
  | append_singleton events e ih =>
    rw [run, List.foldl_append]
    exact (hstep _ e).trans ih

/-- The bounds hold throughout a run exactly if none of its events overflows. -/
theorem withinCapacity_run_iff (maxContacts : ℕ) (events : List ContactEvent) :
    (∀ es, es <+: events → (run maxContacts es).contacts.WithinCapacity) ↔
      ∀ es e, es ++ [e] <+: events → ¬ (run maxContacts es).Overflows e :=
  Machine.forall_prefix_foldl_iff_of
    (I := fun s : CompanionContacts => s.contacts.WithinCapacity)
    (J := fun s : CompanionContacts => s.pathCache.maxEntries = 16)
    (fun _ e hroom _ hs => withinCapacity_step_iff (hroom ▸ by decide) hs e)
    (withinCapacity_init maxContacts) fun es _ => maxEntries_run maxContacts es

/-- A chat node heard for the first time. -/
def chatAdvert (key : Bytes) : ContactEvent :=
  .advert [] {}
    { publicKey := key, name := ['n'], contactType := 1, flags := 0x81, lat := 0, lon := 0
      advertTimestamp := 5, timestamp := 5, inboundPath := [], pathLenEncoded := 0
      rawAdvertPacket := none } 10 10

/-- A node that was asked anonymously and then heard joins the one contact there is room for. -/
theorem not_withinCapacity_promoted :
    ¬ (run 1 [chatAdvert (List.replicate 32 1), .anonRequest (List.replicate 32 2) 6,
      chatAdvert (List.replicate 32 2)]).contacts.WithinCapacity := by
  intro h
  have hreal := h.real
  revert hreal
  decide +kernel

end CompanionContacts

end OpenHop
