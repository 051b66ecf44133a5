import Mathlib.Data.List.MinMax
import OpenHop.Data.Dict
import OpenHop.Node.AdvertHandler
import OpenHop.Protocol.Contact

/-! # Contacts and advert paths

The contact store maps public keys to contacts and has a capacity; adding to a
full store either fails or evicts the contact that was modified longest ago. The
path cache remembers the last few advertisers heard.
-/

namespace OpenHop

/-- `ADV_TYPE_NONE`, the type of transient contacts. -/
def advTypeNone : ℕ := 0

namespace Contact

/-- `Contact.from_dict` on the data of a discovered node. -/
def fromDict (d : NodeDiscovered) (now : ℕ) : Contact :=
  { publicKey := (d.publicKey.take 32).rightpad 32 0
    name := d.name
    advType := d.contactType
    flags := d.flags
    lastAdvertTimestamp := if d.advertTimestamp > now then now else d.advertTimestamp
    lastmod := d.timestamp
    gpsLat := d.lat
    gpsLon := d.lon }

end Contact

structure ContactStore where
  contacts : Dict Bytes Contact := Dict.empty
  maxContacts : ℕ := 1000

namespace ContactStore

def getByKey (s : ContactStore) (key : Bytes) : Option Contact := s.contacts.get? key

def isFull (s : ContactStore) : Bool := decide (s.maxContacts ≤ s.contacts.size)

def put (s : ContactStore) (c : Contact) : ContactStore :=
  { s with contacts := s.contacts.set c.publicKey c }

def remove (s : ContactStore) (key : Bytes) : ContactStore :=
  { s with contacts := s.contacts.erase key }

def add (s : ContactStore) (c : Contact) : Bool × ContactStore :=
  if s.contacts.contains c.publicKey then (true, s.put c)
  else if s.isFull then (false, s)
  else (true, s.put c)

def update (s : ContactStore) (c : Contact) : Bool × ContactStore :=
  if ¬ s.contacts.contains c.publicKey then s.add c else (true, s.put c)

/-- One step of the search for the oldest contact that may be evicted: neither a favourite nor
transient, and modified before the oldest found so far. -/
def older (oldest : ℕ × Option Bytes) (e : Bytes × Contact) : ℕ × Option Bytes :=
  if e.2.flags &&& 0x01 = 0 ∧ e.2.advType ≠ advTypeNone ∧ e.2.lastmod < oldest.1
  then (e.2.lastmod, some e.1) else oldest

def oldestKey (s : ContactStore) : Option Bytes :=
  (s.contacts.entries.foldl older (0xFFFFFFFF, none)).2

def addOrOverwrite (s : ContactStore) (c : Contact) : Bool × Option Bytes × ContactStore :=
  if s.contacts.contains c.publicKey then
    let (ok, s) := s.update c
    (ok, none, s)
  else if s.isFull then
    match s.oldestKey with
    | none => (false, none, s)
    | some key => (true, some key, (s.remove key).put c)
  else (true, none, s.put c)

/-- `MAX_ANON_CONTACTS` -/
def maxAnonContacts : ℕ := 8

/-- The transient contact that was modified longest ago, the first of several. -/
def oldestAnon (s : ContactStore) : Option Bytes :=
  ((s.contacts.entries.filter fun e => e.2.advType = advTypeNone).argmin (·.2.lastmod)).map
    Prod.fst

/-- A transient contact takes the slot of another one if their number is reached. -/
def addTransient (s : ContactStore) (c : Contact) : Bool × Option Bytes × ContactStore :=
  if s.contacts.contains c.publicKey then
    let (ok, s) := s.update c
    (ok, none, s)
  else if maxAnonContacts ≤ (s.contacts.entries.filter fun e => e.2.advType = advTypeNone).length
  then
    match s.oldestAnon with
    | none => (true, none, s.put c)
    | some key => (true, some key, (s.remove key).put c)
  else (true, none, s.put c)

variable (s : ContactStore) (c : Contact) (key : Bytes)

@[simp]
theorem getByKey_put : (s.put c).getByKey key =
    if key = c.publicKey then some c else s.getByKey key :=
  Dict.get?_set ..

@[simp]
theorem getByKey_remove (k : Bytes) : (s.remove k).getByKey key =
    if key = k then none else s.getByKey key :=
  Dict.get?_erase ..

def Keyed : Prop := ∀ key contact, s.getByKey key = some contact → contact.publicKey = key

variable {s}

theorem Keyed.put (h : s.Keyed) (c : Contact) : (s.put c).Keyed := by
  intro key contact hget
  rw [getByKey_put] at hget
  split at hget
  · rename_i hkey
    cases hget
    exact hkey.symm
  · exact h key contact hget

theorem Keyed.publicKeys (h : s.Keyed) :
    s.contacts.values.map (·.publicKey) = s.contacts.keys := by
  rw [Dict.values, Dict.keys, List.map_map]
  exact List.map_congr_left fun e he => h e.1 e.2 (Dict.get?_of_mem he)

end ContactStore

/-- What the handlers see of a contact, copied from it. `lastTimestamp` is the attribute that the
request handler sets. -/
structure ContactProxy where
  contact : Contact
  publicKey : Bytes := contact.publicKey
  name : List Char := contact.name
  type : ℕ := contact.advType
  flags : ℕ := contact.flags
  outPath : Bytes := contact.outPath
  outPathLen : ℤ := contact.outPathLen
  syncSince : ℕ := contact.syncSince
  lastAdvertTimestamp : ℕ := contact.lastAdvertTimestamp
  lastmod : ℕ := contact.lastmod
  gpsLat : ℚ := contact.gpsLat
  gpsLon : ℚ := contact.gpsLon
  lastTimestamp : Option ℕ := none
  deriving DecidableEq

/-- The operations that change the contacts. -/
inductive StoreOp where
  | add (c : Contact)
  | update (c : Contact)
  | addOrOverwrite (c : Contact)
  | addTransient (c : Contact)
  | remove (key : Bytes)
  | clear

namespace StoreOp

def key? : StoreOp → Option Bytes
  | .add c | .update c | .addOrOverwrite c | .addTransient c => some c.publicKey
  | .remove _ | .clear => none

/-- Success, the key of an evicted contact and the contacts after an operation. -/
def run (s : ContactStore) : StoreOp → Bool × Option Bytes × ContactStore
  | .add c => ((s.add c).1, none, (s.add c).2)
  | .update c => ((s.update c).1, none, (s.update c).2)
  | .addOrOverwrite c => s.addOrOverwrite c
  | .addTransient c => s.addTransient c
  | .remove key => (s.contacts.contains key, some key, s.remove key)
  | .clear => (true, none, { s with contacts := Dict.empty })

end StoreOp

/-- A dictionary by contact key after an operation with a given success and evicted key. -/
def StoreOp.follow {ν : Type} (make : Contact → ν) (d : Dict Bytes ν) (ok : Bool)
    (evicted : Option Bytes) : StoreOp → Dict Bytes ν
  | .add c | .update c | .addOrOverwrite c | .addTransient c =>
    if ok then (evict d evicted).set c.publicKey (make c) else evict d evicted
  | .remove key => d.erase key
  | .clear => Dict.empty
where
  evict (d : Dict Bytes ν) : Option Bytes → Dict Bytes ν
    | some key => d.erase key
    | none => d

def Stored (s : ContactStore) (c : Contact) (r : Bool × Option Bytes × ContactStore) : Prop :=
  r = (true, none, s.put c) ∨ r = (false, none, s) ∨
    ∃ key, r = (true, some key, (s.remove key).put c)

theorem ContactStore.add_stored (s : ContactStore) (c : Contact) :
    Stored s c ((s.add c).1, none, (s.add c).2) := by
  unfold add
  split_ifs
  · exact Or.inl rfl
  · exact Or.inr (Or.inl rfl)
  · exact Or.inl rfl

theorem ContactStore.update_stored (s : ContactStore) (c : Contact) :
    Stored s c ((s.update c).1, none, (s.update c).2) := by
  unfold update
  split
  · exact add_stored s c
  · exact Or.inl rfl

theorem ContactStore.addOrOverwrite_stored (s : ContactStore) (c : Contact) :
    Stored s c (s.addOrOverwrite c) := by
  unfold addOrOverwrite
  split
  · exact update_stored s c
  · split
    · split
      · exact Or.inr (Or.inl rfl)
      · exact Or.inr (Or.inr ⟨_, rfl⟩)
    · exact Or.inl rfl

theorem ContactStore.addTransient_stored (s : ContactStore) (c : Contact) :
    Stored s c (s.addTransient c) := by
  unfold addTransient
  split
  · exact update_stored s c
  · split
    · split
      · exact Or.inl rfl
      · exact Or.inr (Or.inr ⟨_, rfl⟩)
    · exact Or.inl rfl

theorem StoreOp.contacts_run (s : ContactStore) (op : StoreOp) :
    (op.run s).2.2.contacts = op.follow id s.contacts (op.run s).1 (op.run s).2.1 := by
  have hstored : ∀ c r, Stored s c r → r.2.2.contacts =
      if r.1 then (follow.evict s.contacts r.2.1).set c.publicKey c
      else follow.evict s.contacts r.2.1 := by
    rintro c r (rfl | rfl | ⟨key, rfl⟩) <;> rfl
  cases op with
  | add c => exact hstored c _ (s.add_stored c)
  | update c => exact hstored c _ (s.update_stored c)
  | addOrOverwrite c => exact hstored c _ (s.addOrOverwrite_stored c)
  | addTransient c => exact hstored c _ (s.addTransient_stored c)
  | remove key => rfl
  | clear => rfl

section

variable {ν : Type} {make : Contact → ν} {d : Dict Bytes ν} {ok : Bool} {evicted : Option Bytes}

theorem StoreOp.get?_follow (op : StoreOp) (key : Bytes) :
    (op.follow make d ok evicted).get? key =
      match op with
      | .add c | .update c | .addOrOverwrite c | .addTransient c =>
        if ok ∧ key = c.publicKey then some (make c)
        else if evicted = some key then none else d.get? key
      | .remove k => if key = k then none else d.get? key
      | .clear => none := by
  have hevict : (follow.evict d evicted).get? key =
      if evicted = some key then none else d.get? key := by
    cases evicted with
    | none => rfl
    | some k => simp only [follow.evict, Dict.get?_erase, Option.some.injEq, eq_comm]
  cases op with
  | add c | update c | addOrOverwrite c | addTransient c =>
    simp only [follow]
    cases ok with
    | true => simp only [if_true, Dict.get?_set, hevict, true_and]
    | false => simp only [Bool.false_eq_true, if_false, hevict, false_and]
  | remove k => exact Dict.get?_erase ..
  | clear => rfl

theorem StoreOp.get?_follow_of_ne {op : StoreOp} {key : Bytes} (h : op.key? ≠ some key) :
    (op.follow make d ok evicted).get? key = d.get? key ∨
      (op.follow make d ok evicted).get? key = none := by
  rw [get?_follow]
  cases op with
  | add c | update c | addOrOverwrite c | addTransient c =>
    have hne : ¬ (ok ∧ key = c.publicKey) := fun hk => h (congrArg some hk.2.symm)
    dsimp only
    rw [if_neg hne]
    exact (ite_eq_or_eq _ _ _).symm
  | remove k => exact (ite_eq_or_eq _ _ _).symm
  | clear => exact Or.inr rfl

end

/-- The store with its proxies: each contact has one that shows it, and there are no others. -/
structure ProxyStore extends ContactStore where
  proxies : Dict Bytes ContactProxy := Dict.empty
  inSync : ∀ key, (proxies.get? key).map (fun p => { p with lastTimestamp := none }) =
    (contacts.get? key).map fun c => { contact := c }

namespace ProxyStore

def init (maxContacts : ℕ) : ProxyStore := { maxContacts, inSync := fun _ => rfl }

def put (s : ProxyStore) (c : Contact) : ProxyStore where
  toContactStore := s.toContactStore.put c
  proxies := s.proxies.set c.publicKey { contact := c }
  inSync key := by
    dsimp only [ContactStore.put]
    rw [Dict.get?_set, Dict.get?_set]
    split
    · rfl
    · exact s.inSync key

def remove (s : ProxyStore) (key : Bytes) : ProxyStore where
  toContactStore := s.toContactStore.remove key
  proxies := s.proxies.erase key
  inSync k := by
    dsimp only [ContactStore.remove]
    rw [Dict.get?_erase, Dict.get?_erase]
    split
    · rfl
    · exact s.inSync k

def clear (s : ProxyStore) : ProxyStore where
  maxContacts := s.maxContacts
  inSync _ := rfl

def add (s : ProxyStore) (c : Contact) : Bool × ProxyStore :=
  if s.contacts.contains c.publicKey then (true, s.put c)
  else if s.isFull then (false, s)
  else (true, s.put c)

def update (s : ProxyStore) (c : Contact) : Bool × ProxyStore :=
  if ¬ s.contacts.contains c.publicKey then s.add c else (true, s.put c)

def addOrOverwrite (s : ProxyStore) (c : Contact) : Bool × Option Bytes × ProxyStore :=
  if s.contacts.contains c.publicKey then
    let (ok, s) := s.update c
    (ok, none, s)
  else if s.isFull then
    match s.oldestKey with
    | none => (false, none, s)
    | some key => (true, some key, (s.remove key).put c)
  else (true, none, s.put c)

def addTransient (s : ProxyStore) (c : Contact) : Bool × Option Bytes × ProxyStore :=
  if s.contacts.contains c.publicKey then
    let (ok, s) := s.update c
    (ok, none, s)
  else if ContactStore.maxAnonContacts ≤
    (s.contacts.entries.filter fun e => e.2.advType = advTypeNone).length
  then
    match s.oldestAnon with
    | none => (true, none, s.put c)
    | some key => (true, some key, (s.remove key).put c)
  else (true, none, s.put c)

def apply (s : ProxyStore) : StoreOp → ProxyStore
  | .add c => (s.add c).2
  | .update c => (s.update c).2
  | .addOrOverwrite c => (s.addOrOverwrite c).2.2
  | .addTransient c => (s.addTransient c).2.2
  | .remove key => s.remove key
  | .clear => s.clear

/-- What an operation does to the contacts with their proxies, and to the contacts alone. -/
inductive Mirrors (s : ProxyStore) (c : Contact) :
    Bool × Option Bytes × ProxyStore → Bool × Option Bytes × ContactStore → Prop where
  | put : Mirrors s c (true, none, s.put c) (true, none, s.toContactStore.put c)
  | refused : Mirrors s c (false, none, s) (false, none, s.toContactStore)
  | replaced (key : Bytes) : Mirrors s c (true, some key, (s.remove key).put c)
      (true, some key, (s.toContactStore.remove key).put c)

variable (s : ProxyStore) (c : Contact)

theorem Mirrors.eq {s : ProxyStore} {c : Contact} {r : Bool × Option Bytes × ContactStore}
    {r' : Bool × Option Bytes × ProxyStore} (h : Mirrors s c r' r) : r' = (r.1, r.2.1,
      if r.1 then (r.2.1.elim s s.remove).put c else s) := by
  cases h <;> rfl

theorem add_mirrors :
    Mirrors s c ((s.add c).1, none, (s.add c).2)
      ((s.toContactStore.add c).1, none, (s.toContactStore.add c).2) := by
  unfold add ContactStore.add
  split_ifs
  · exact .put
  · exact .refused
  · exact .put

theorem update_mirrors :
    Mirrors s c ((s.update c).1, none, (s.update c).2)
      ((s.toContactStore.update c).1, none, (s.toContactStore.update c).2) := by
  unfold update ContactStore.update
  split
  · exact s.add_mirrors c
  · exact .put

theorem addOrOverwrite_mirrors :
    Mirrors s c (s.addOrOverwrite c) (s.toContactStore.addOrOverwrite c) := by
  unfold addOrOverwrite ContactStore.addOrOverwrite
  split
  · exact s.update_mirrors c
  split
  · cases s.oldestKey with
    | none => exact .refused
    | some key => exact .replaced key
  · exact .put

theorem addTransient_mirrors :
    Mirrors s c (s.addTransient c) (s.toContactStore.addTransient c) := by
  unfold addTransient ContactStore.addTransient
  split
  · exact s.update_mirrors c
  split
  · cases s.oldestAnon with
    | none => exact .put
    | some key => exact .replaced key
  · exact .put

/-- The proxies follow the contacts. -/
theorem apply_spec (op : StoreOp) :
    (s.apply op).toContactStore = (op.run s.toContactStore).2.2 ∧
      (s.apply op).proxies = op.follow (fun c => { contact := c }) s.proxies
        (op.run s.toContactStore).1 (op.run s.toContactStore).2.1 := by
  have hmirrors : ∀ c r r', Mirrors s c r' r → r'.2.2.toContactStore = r.2.2 ∧
      r'.2.2.proxies =
        if r.1 then (StoreOp.follow.evict s.proxies r.2.1).set c.publicKey { contact := c }
        else StoreOp.follow.evict s.proxies r.2.1 := by
    rintro c r r' (_ | _ | _) <;> exact ⟨rfl, rfl⟩
  cases op with
  | add c => exact hmirrors c _ _ (s.add_mirrors c)
  | update c => exact hmirrors c _ _ (s.update_mirrors c)
  | addOrOverwrite c => exact hmirrors c _ _ (s.addOrOverwrite_mirrors c)
  | addTransient c => exact hmirrors c _ _ (s.addTransient_mirrors c)
  | remove key => exact ⟨rfl, rfl⟩
  | clear => exact ⟨rfl, rfl⟩

end ProxyStore

structure AdvertPath where
  publicKeyPrefix : Bytes
  name : List Char := []
  pathLen : ℕ := 0
  path : Bytes := []
  recvTimestamp : ℕ := 0
  deriving DecidableEq

structure PathCache where
  paths : List AdvertPath := []
  maxEntries : ℕ := 16
  deriving DecidableEq

/-- The new cache, and whether the update went through: a cache with no room at all has nothing
to evict. -/
def PathCache.update (c : PathCache) (p : AdvertPath) : Bool × PathCache :=
  let paths := c.paths.eraseP (·.publicKeyPrefix == p.publicKeyPrefix)
  if c.maxEntries ≤ paths.length then
    match paths with
    | [] => (false, { c with paths := [] })
    | _ :: paths => (true, { c with paths := paths ++ [p] })
  else (true, { c with paths := paths ++ [p] })

@[simp]
theorem PathCache.update_maxEntries (c : PathCache) (p : AdvertPath) :
    (c.update p).2.maxEntries = c.maxEntries := by
  unfold PathCache.update
  dsimp only
  split
  · split <;> rfl
  · rfl

theorem PathCache.update_ok {c : PathCache} (h : 0 < c.maxEntries) (p : AdvertPath) :
    (c.update p).1 = true := by
  unfold PathCache.update
  dsimp only
  split
  · rename_i hfull
    split
    · rename_i hnil
      rw [hnil] at hfull
      exact absurd hfull (not_le.mpr h)
    · rfl
  · rfl

theorem PathCache.mem_update {c : PathCache} {p found : AdvertPath}
    (h : found ∈ (c.update p).2.paths) : found ∈ c.paths ∨ found = p := by
  have herased : ∀ {paths : List AdvertPath},
      paths ⊆ c.paths.eraseP (·.publicKeyPrefix == p.publicKeyPrefix) →
      found ∈ paths ++ [p] → found ∈ c.paths ∨ found = p := by
    intro paths hsub hmem
    rcases List.mem_append.mp hmem with hmem | hmem
    · exact Or.inl (List.mem_of_mem_eraseP (hsub hmem))
    · exact Or.inr (List.mem_singleton.mp hmem)
  unfold PathCache.update at h
  dsimp only at h
  split at h
  · split at h
    · cases h
    · rename_i hpaths
      refine herased ?_ h
      rw [hpaths]
      exact List.subset_cons_self ..
  · exact herased (List.Subset.refl _) h

end OpenHop
