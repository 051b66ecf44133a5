import OpenHop.Companion.Commands
import OpenHop.Protocol.RequestPacket

/-! # The stored paths

A contact is stored with a path and the length that says how to read it. The app, path
returns, resets and adverts write the pair.
-/

namespace OpenHop

namespace Contact

/-- No path is known, or the length is a valid one that counts the bytes of the path. -/
def PathConsistent (contact : Contact) : Prop :=
  contact.outPathLen = -1 ∧ contact.outPath = [] ∨
    PathUtils.isValidPathLenInt contact.outPathLen = true ∧
      PathUtils.getPathByteLenInt contact.outPathLen = contact.outPath.length

theorem pathConsistent_iff {contact : Contact} {l : ℕ} (h : contact.outPathLen = l) :
    contact.PathConsistent ↔
      PathUtils.isValidPathLen l = true ∧ PathUtils.getPathByteLen l = contact.outPath.length := by
  rw [PathConsistent, h, PathUtils.isValidPathLenInt_natCast, PathUtils.getPathByteLenInt_natCast,
    Nat.cast_inj, or_iff_right]
  rintro ⟨hneg, -⟩
  omega

theorem PathConsistent.congr {contact other : Contact} (h : other.PathConsistent)
    (hlen : contact.outPathLen = other.outPathLen) (hpath : contact.outPath = other.outPath) :
    contact.PathConsistent := by
  unfold PathConsistent
  rw [hlen, hpath]
  exact h

/-- The record says that no path is known, or its length byte is a valid one and it goes on at least
as far as the path. -/
def RecordPath (data : Bytes) : Prop :=
  (data.getD 34 0).toNat = outPathUnknown ∨
    PathUtils.isValidPathLen (data.getD 34 0).toNat = true ∧
      35 + PathUtils.getPathByteLen (data.getD 34 0).toNat ≤ data.length

instance (data : Bytes) : Decidable (RecordPath data) := instDecidableOr

theorem ofFrame_pathConsistent_iff {data : Bytes} (hlong : 36 ≤ data.length) (now : ℕ) :
    (ofFrame data now).PathConsistent ↔ RecordPath data := by
  unfold RecordPath
  generalize hl : (data.getD 34 0).toNat = l
  by_cases hunknown : l = outPathUnknown
  · refine iff_of_true (Or.inl ⟨?_, ?_⟩) (Or.inl hunknown)
    · simp only [ofFrame, hl, if_pos hunknown]
    · simp only [ofFrame, hl, if_pos hunknown]
      rw [if_neg (by decide), List.take_zero]
  · have hlen : (ofFrame data now).outPathLen = l := by
      simp only [ofFrame, hl, if_neg hunknown]
    have hpath : (ofFrame data now).outPath.length =
        min (PathUtils.getPathByteLen l) (min 64 (data.length - 35)) := by
      simp only [ofFrame, hl, if_neg hunknown, Int.natCast_nonneg, if_true, List.length_take,
        List.length_drop, maxPathSize]
    rw [pathConsistent_iff hlen, hpath, or_iff_right hunknown]
    refine and_congr_right fun hvalid => ?_
    have hmax := ((PathUtils.isValidPathLen_iff l).mp hvalid).2
    simp only [maxPathSize] at hmax
    omega

theorem dated_pathConsistent_iff {contact : Contact} {now : ℕ} :
    (contact.dated now).PathConsistent ↔ contact.PathConsistent := by
  unfold dated
  split
  · exact Iff.rfl
  · exact Iff.rfl

end Contact

namespace ContactStore

/-- Every stored path is consistent. -/
def PathsConsistent (s : ContactStore) : Prop :=
  ∀ key contact, s.getByKey key = some contact → contact.PathConsistent

variable {s s' : ContactStore} {contact : Contact}

theorem pathsConsistent_put_iff (hs : s.PathsConsistent) :
    (s.put contact).PathsConsistent ↔ contact.PathConsistent := by
  constructor
  · intro h
    exact h contact.publicKey contact (by rw [getByKey_put, if_pos rfl])
  · intro h key other hget
    rw [getByKey_put] at hget
    split at hget
    · cases hget
      exact h
    · exact hs key other hget

theorem PathsConsistent.remove (hs : s.PathsConsistent) (key : Bytes) :
    (s.remove key).PathsConsistent := by
  intro k other hget
  rw [getByKey_remove] at hget
  split at hget
  · cases hget
  · exact hs k other hget

theorem PathsConsistent.stored (hs : s.PathsConsistent) (hc : contact.PathConsistent)
    {r : Bool × Option Bytes × ContactStore} (h : Stored s contact r) :
    r.2.2.PathsConsistent := by
  rcases h with rfl | rfl | ⟨key, rfl⟩
  · exact (pathsConsistent_put_iff hs).mpr hc
  · exact hs
  · exact (pathsConsistent_put_iff (hs.remove key)).mpr hc

theorem PathsConsistent.resetPath (hs : s.PathsConsistent) (key : Bytes) :
    (s.resetPath key).2.PathsConsistent := by
  unfold ContactStore.resetPath
  split
  · exact hs
  · exact hs.stored (Or.inl ⟨rfl, rfl⟩) (s.update_stored _)

theorem PathsConsistent.sendAnonReq (hs : s.PathsConsistent) (key : Bytes) (now : ℕ) :
    (s.sendAnonReq key now).PathsConsistent := by
  unfold ContactStore.sendAnonReq
  split
  · exact hs
  · exact hs.stored (Or.inr ⟨rfl, rfl⟩) (s.addTransient_stored _)

theorem PathsConsistent.onContactPathUpdated (hs : s.PathsConsistent)
    (hc : contact.PathConsistent) (pub : Bytes) :
    (s.onContactPathUpdated pub contact.outPathLen contact.outPath).PathsConsistent := by
  unfold ContactStore.onContactPathUpdated
  split
  · exact hs
  · rename_i stored _
    have hnew : Contact.PathConsistent { stored with
        outPathLen := contact.outPathLen, outPath := contact.outPath } := hc.congr rfl rfl
    exact hs.stored hnew (s.update_stored _)

end ContactStore

namespace ProtocolResponses

variable {Seed : Type} {c : Crypto Seed} {h : ProtocolResponses Seed} {pkt : Packet}
  {decrypted secret : Bytes} {contact : Contact} {response : Option Bytes}

theorem outPathOf_spec (hopen : responsePayload payloadTypePath decrypted = some response) :
    PathUtils.isValidPathLen (decrypted.headD 0).toNat = true ∧
      PathUtils.getPathByteLen (decrypted.headD 0).toNat = (outPathOf decrypted).length := by
  unfold responsePayload at hopen
  rw [if_pos rfl] at hopen
  cases decrypted with
  | nil => cases hopen
  | cons b rest =>
    dsimp only at hopen
    split at hopen
    · cases hopen
    rename_i hvalid
    split at hopen
    · cases hopen
    rename_i hlong
    rw [not_not] at hvalid
    rw [outPathOf, List.headD_cons, List.drop_succ_cons, List.drop_zero, List.length_take]
    rw [List.length_cons] at hlong
    exact ⟨hvalid, by omega⟩

theorem responsePayload_of_openResponse
    (hopen : h.openResponse c pkt = some (contact, secret, decrypted, response)) :
    responsePayload pkt.getPayloadType decrypted = some response := by
  unfold openResponse at hopen
  split at hopen
  · cases hopen
  split at hopen
  · split at hopen
    · cases hopen
    · unfold decryptProtocolResponse at hopen
      dsimp only at hopen
      split at hopen
      · cases hopen
      split at hopen
      · cases hopen
      · obtain ⟨opened, -, hfound⟩ := List.exists_of_findSome?_eq_some hopen
        obtain ⟨payload, hpayload, heq⟩ := Option.map_eq_some_iff.mp hfound
        cases heq
        exact hpayload
  · cases hopen

theorem pathConsistent_of_open {stored : Contact} (hpath : pkt.getPayloadType = payloadTypePath)
    (hopen : h.openResponse c pkt = some (contact, secret, decrypted, response))
    (hlen : stored.outPathLen = (decrypted.headD 0).toNat)
    (hbytes : stored.outPath = outPathOf decrypted) : stored.PathConsistent := by
  have hresponse := responsePayload_of_openResponse hopen
  rw [hpath] at hresponse
  rw [Contact.pathConsistent_iff hlen, hbytes]
  exact outPathOf_spec hresponse

theorem ofPath_of_mem_deliver {now : ℚ} {contactPubkey : Bytes} {e : ResponseEvent}
    (he : e ∈ (h.deliver now pkt contactPubkey decrypted response).2) : ofPath e = false := by
  cases response with
  | none => cases he
  | some payload =>
    simp only [deliver, onBinaryResponse] at he
    split at he
    · cases he
    split at he
    · cases List.mem_singleton.mp he
      rfl
    split at he
    · cases he
    split at he
    · cases List.mem_singleton.mp he
      rfl
    · cases List.mem_singleton.mp he
      rfl

theorem pathConsistent_of_call {now : ℚ} {noise : Bytes} {updated : Contact}
    (hmem : .contactPathUpdated updated ∈ (h.call c now noise pkt).2.1) :
    updated.PathConsistent := by
  unfold call at hmem
  split at hmem
  · cases hmem
  · rename_i contact secret decrypted payload hopen
    dsimp only at hmem
    rcases List.mem_append.mp hmem with hlearned | hdelivered
    · unfold learnPath at hlearned
      split at hlearned
      · rename_i hpath
        dsimp only at hlearned
        rcases List.mem_append.mp hlearned with hupdated | hreciprocal
        · unfold updateContactPath at hupdated
          split at hupdated
          · cases hupdated
          · cases List.mem_singleton.mp hupdated
            exact pathConsistent_of_open hpath hopen rfl rfl
        · obtain ⟨reply, -, heq⟩ := Option.map_eq_some_iff.mp (Option.mem_toList.mp hreciprocal)
          cases heq
      · cases hlearned
    · cases ofPath_of_mem_deliver hdelivered

theorem PathsConsistent.call (hs : h.contacts.PathsConsistent) (now : ℚ) (noise : Bytes) :
    (h.call c now noise pkt).1.contacts.PathsConsistent := by
  rcases h.call_contacts (c := c) now noise pkt with hsame | ⟨contact, secret, decrypted, response,
    stored, hpath, hopen, -, hupdate⟩
  · rw [hsame]
    exact hs
  · rw [hupdate]
    exact hs.stored (pathConsistent_of_open hpath hopen rfl rfl) (h.contacts.update_stored _)

end ProtocolResponses

namespace Companion

variable {s : Stores} {contact : Contact}

theorem contactOf_pathConsistent (e : NodeDiscovered) (now : ℕ) :
    (contactOf e now).PathConsistent := by
  unfold contactOf
  dsimp only
  split <;> exact Or.inl ⟨rfl, rfl⟩

theorem addNew_pathsConsistent {contacts : ContactStore} (hs : contacts.PathsConsistent)
    (hc : contact.PathConsistent) (prefs : AutoAddPrefs) (pathCache : PathCache) :
    (addNew prefs { contacts, pathCache } contact).stores.contacts.PathsConsistent := by
  unfold addNew
  split
  · exact hs.stored hc (contacts.addOrOverwrite_stored contact)
  · exact hs.stored hc (contacts.add_stored contact)

theorem applyAdvertToStores_pathsConsistent (hs : s.contacts.PathsConsistent)
    (hc : contact.PathConsistent) (prefs : AutoAddPrefs) (path : Bytes) (pathLen recvAt : ℕ) :
    (applyAdvertToStores prefs s contact path pathLen
      recvAt).stores.contacts.PathsConsistent := by
  unfold applyAdvertToStores
  dsimp only
  split
  · exact hs
  split
  · exact hs
  split
  · rename_i existing hget
    have hmerged : (mergeExisting contact existing).PathConsistent :=
      (hs _ existing hget).congr rfl rfl
    exact hs.stored hmerged (s.contacts.update_stored _)
  split
  · exact hs
  split
  · exact hs
  · exact addNew_pathsConsistent hs hc prefs _

theorem handleMeshEvent_pathsConsistent (hs : s.contacts.PathsConsistent) (own : Bytes)
    (prefs : AutoAddPrefs) (e : NodeDiscovered) (now recvAt : ℕ) :
    (handleMeshEvent own prefs s e now recvAt).stores.contacts.PathsConsistent := by
  have happly := applyAdvertToStores_pathsConsistent hs (contactOf_pathConsistent e now) prefs
    e.inboundPath e.pathLenEncoded recvAt
  unfold handleMeshEvent
  dsimp only
  split
  · exact hs
  split
  · split
    · exact hs
    · split <;> exact happly
  · exact hs

end Companion

namespace CompanionNode

variable {Seed : Type} {c : Crypto Seed} {n : CompanionNode Seed}

/-- The app stores a record whose path is not what its length byte says. -/
def Corrupts (n : CompanionNode Seed) : Event → Prop
  | .command .addUpdateContact data _ _ =>
    36 ≤ data.length ∧
      (n.contacts.contacts.contains (data.take 32) = true ∨ n.contacts.isFull = false) ∧
      ¬ Contact.RecordPath data
  | _ => False

theorem pathsConsistent_addUpdateContact_iff {s : ContactStore} (hs : s.PathsConsistent)
    {data : Bytes} (hlong : 36 ≤ data.length) (now later : ℕ) :
    (s.addUpdateContact (.ofFrame data now) later).2.PathsConsistent ↔
      ¬ ((s.contacts.contains (data.take 32) = true ∨ s.isFull = false) ∧
        ¬ Contact.RecordPath data) := by
  have hkey : ((Contact.ofFrame data now).dated later).publicKey = data.take 32 := by
    unfold Contact.dated
    split <;> rfl
  have hput : (s.put ((Contact.ofFrame data now).dated later)).PathsConsistent ↔
      Contact.RecordPath data := by
    rw [ContactStore.pathsConsistent_put_iff hs, Contact.dated_pathConsistent_iff,
      Contact.ofFrame_pathConsistent_iff hlong]
  unfold ContactStore.addUpdateContact ContactStore.add
  rw [hkey]
  split
  · rename_i hknown
    rw [hput, not_and_not_right]
    exact ⟨fun h _ => h, fun h => h (Or.inl hknown)⟩
  split
  · rename_i hnew hfull
    refine iff_of_true hs ?_
    rintro ⟨hknown | hroom, -⟩
    · exact hnew hknown
    · rw [hfull] at hroom
      cases hroom
  · rename_i hnew hroom
    rw [hput, not_and_not_right]
    exact ⟨fun h _ => h, fun h => h (Or.inr (Bool.eq_false_of_not_eq_true hroom))⟩

theorem pathsUpdated_pathsConsistent {s : ContactStore} {events : List ResponseEvent}
    (hs : s.PathsConsistent)
    (hevents : ∀ contact, .contactPathUpdated contact ∈ events → contact.PathConsistent) :
    (pathsUpdated s events).PathsConsistent := by
  induction events generalizing s with
  | nil => exact hs
  | cons e events ih =>
    have hrest : ∀ contact, .contactPathUpdated contact ∈ events → contact.PathConsistent :=
      fun contact hmem => hevents contact (List.mem_cons_of_mem e hmem)
    cases e with
    | contactPathUpdated contact =>
      exact ih (hs.onContactPathUpdated (hevents contact List.mem_cons_self) _) hrest
    | reciprocal packet => exact ih hs hrest
    | waiter contactPubkey tag response => exact ih hs hrest
    | pathDiscovery tag info => exact ih hs hrest
    | binaryResponse tag data requestType => exact ih hs hrest

theorem contacts_receiveAdvert (n : CompanionNode Seed) (packet : Packet) (now stamp : ℕ) :
    (n.receiveAdvert c packet now stamp).contacts = n.contacts := by
  unfold receiveAdvert
  dsimp only
  split <;> rfl

/-- From a consistent store, an event leads to an inconsistent one exactly if it corrupts a path. -/
theorem pathsConsistent_step_iff (hs : n.contacts.PathsConsistent) (e : Event) :
    (n.step c e).contacts.PathsConsistent ↔ ¬ n.Corrupts e := by
  have hkeeps : ∀ {s : ContactStore}, s = n.contacts → (s.PathsConsistent ↔ ¬ False) := by
    rintro s rfl
    exact iff_of_true hs not_false
  cases e with
  | command cmd data now later =>
    rw [step, (changes_handleCmd n cmd data now later).contacts]
    cases cmd with
    | addUpdateContact =>
      rw [contactsAfter, Corrupts]
      split
      · rename_i hshort
        exact iff_of_true hs fun hcorrupt => absurd hcorrupt.1 (not_le.mpr hshort)
      · rename_i hlong
        rw [pathsConsistent_addUpdateContact_iff hs (not_lt.mp hlong),
          and_iff_right (not_lt.mp hlong)]
    | removeContact =>
      rw [contactsAfter]
      split
      · exact hkeeps rfl
      · exact iff_of_true (hs.remove _) not_false
    | resetPath =>
      rw [contactsAfter]
      split
      · exact hkeeps rfl
      · exact iff_of_true (hs.resetPath _) not_false
    | getContacts => exact hkeeps rfl
    | getContactByKey => exact hkeeps rfl
    | getAdvertPath => exact hkeeps rfl
    | importContact => exact hkeeps rfl
    | exportContact => exact hkeeps rfl
    | getChannel => exact hkeeps rfl
    | setChannel => exact hkeeps rfl
  | receive data time noise now stamp =>
    rw [step]
    split
    · exact hkeeps rfl
    split
    · exact hkeeps (contacts_receiveAdvert ..)
    split
    · refine iff_of_true ?_ not_false
      exact pathsUpdated_pathsConsistent (ProtocolResponses.PathsConsistent.call hs time noise)
        fun contact hmem => ProtocolResponses.pathConsistent_of_call hmem
    · exact hkeeps rfl
  | loopback i now stamp =>
    rw [step]
    split
    · exact hkeeps rfl
    · exact hkeeps (contacts_receiveAdvert ..)
  | discovered i now recvAt =>
    rw [step]
    split
    · exact hkeeps rfl
    · rename_i event _
      refine iff_of_true ?_ not_false
      exact Companion.handleMeshEvent_pathsConsistent
        (s := { contacts := n.contacts, pathCache := n.pathCache }) hs _ n.prefs event now recvAt
  | anonRequest key now => exact iff_of_true (hs.sendAnonReq key now) not_false
  | setPrefs prefs selfPrefs => exact hkeeps rfl
  | setServer server => exact hkeeps rfl

/-- Along a run every stored path is consistent exactly if the app corrupts none. -/
theorem pathsConsistent_run_iff {start : CompanionNode Seed}
    (hstart : start.contacts.PathsConsistent) (events : List Event) :
    (∀ es, es <+: events → (start.run c es).contacts.PathsConsistent) ↔
      ∀ es e, es ++ [e] <+: events → ¬ (start.run c es).Corrupts e :=
  Machine.forall_prefix_foldl_iff (I := fun n : CompanionNode Seed => n.contacts.PathsConsistent)
    (fun _ e hs => pathsConsistent_step_iff hs e) hstart events

def pathRecord (lenByte : UInt8) : Bytes := List.replicate 32 7 ++ [1, 0, lenByte, 0xAA]

/-- Storing the record in an empty store. -/
def storeRecord (lenByte : UInt8) : Event :=
  .command .addUpdateContact (pathRecord lenByte) 1000 1000

theorem pathsConsistent_fresh : fresh.contacts.PathsConsistent := by
  intro key contact hget
  cases hget

theorem not_pathsConsistent_of_get {s : ContactStore} {key path : Bytes} {l : ℕ}
    (hget : (s.getByKey key).map (fun contact => (contact.outPathLen, contact.outPath)) =
      some ((l : ℤ), path))
    (hbad : ¬ (PathUtils.isValidPathLen l = true ∧ PathUtils.getPathByteLen l = path.length)) :
    ¬ s.PathsConsistent := by
  intro hs
  obtain ⟨contact, hcontact, heq⟩ := Option.map_eq_some_iff.mp hget
  obtain ⟨hlen, rfl⟩ := Prod.mk.inj heq
  exact hbad ((Contact.pathConsistent_iff hlen).mp (hs key contact hcontact))

/-- Two hops of which one is there, and a hop of four bytes. -/
theorem not_pathsConsistent_record :
    fresh.contacts.PathsConsistent ∧
      ¬ (fresh.run xorCrypto [storeRecord 0x02]).contacts.PathsConsistent ∧
      ¬ (fresh.run xorCrypto [storeRecord 0xC1]).contacts.PathsConsistent := by
  refine ⟨pathsConsistent_fresh, ?_, ?_⟩
  · have hget : ((fresh.run xorCrypto [storeRecord 0x02]).contacts.getByKey
        (List.replicate 32 7)).map (fun contact => (contact.outPathLen, contact.outPath)) =
          some (((2 : ℕ) : ℤ), [0xAA]) := by
      decide +kernel
    exact not_pathsConsistent_of_get hget (by decide)
  · have hget : ((fresh.run xorCrypto [storeRecord 0xC1]).contacts.getByKey
        (List.replicate 32 7)).map (fun contact => (contact.outPathLen, contact.outPath)) =
          some (((0xC1 : ℕ) : ℤ), [0xAA]) := by
      decide +kernel
    exact not_pathsConsistent_of_get hget (by decide)

/-- One hop is stored as it is, and forgotten and stored again. -/
theorem pathsConsistent_run_iff_record :
    (fresh.run xorCrypto [storeRecord 0x01, .command .resetPath (List.replicate 32 7) 1001 1001,
      storeRecord 0x01]).contacts.PathsConsistent := by
  refine (pathsConsistent_run_iff pathsConsistent_fresh [storeRecord 0x01,
    .command .resetPath (List.replicate 32 7) 1001 1001, storeRecord 0x01]).mpr ?_ _
    List.prefix_rfl
  have hrecord : ∀ n : CompanionNode Bytes, ¬ n.Corrupts (storeRecord 0x01) := by
    rintro n ⟨-, -, hbad⟩
    exact hbad (by decide)
  exact Machine.forall_snoc_prefix_cons_iff.mpr ⟨hrecord _,
    Machine.forall_snoc_prefix_cons_iff.mpr ⟨not_false, Machine.forall_snoc_prefix_cons_iff.mpr
      ⟨hrecord _, Machine.forall_snoc_prefix_nil⟩⟩⟩

end CompanionNode

end OpenHop
