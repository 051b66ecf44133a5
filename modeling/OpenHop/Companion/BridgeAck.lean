import OpenHop.Node.Delivery
import OpenHop.Node.PathEnvelope

/-! # Acknowledgements at the bridge

The bridge has its own reader for the acknowledgement in a path return. Like the
dispatcher's it tries the contacts with the sender's hash byte in order, but it goes on to
the next contact where the dispatcher's gives up, and it takes the type byte as a whole
where the dispatcher's looks at the lower half.
-/

namespace OpenHop

namespace BridgeAckHandler

variable {Seed : Type} (c : Crypto Seed)

def discreteAck (packet : Packet) : Option ℕ :=
  if packet.payload = [] ∨ packet.payload.length < 4 then none
  else some (Bytes.toNatLE (packet.payload.take 4))

/-- What the loop returns for one plaintext: none where it goes on to the next. -/
def ackInDecrypted (decrypted : Bytes) : Option (Option ℕ) :=
  if decrypted.length < 2 then none
  else
    let pathLenByte := (decrypted.headD 0).toNat
    if ¬ PathUtils.isValidPathLen pathLenByte then none
    else
      let pathByteLen := PathUtils.getPathByteLen pathLenByte
      if 1 + pathByteLen > decrypted.length then none
      else
        let extraStart := 1 + pathByteLen
        if extraStart + 1 + 4 ≤ decrypted.length ∧
            (decrypted.getD extraStart 0).toNat = payloadTypeAck then
          some (some (Bytes.toNatLE ((decrypted.drop (extraStart + 1)).take 4)))
        else some none

/-- The code in a path return that is addressed to the local node. -/
def processPathAckVariants (contacts : List Contact) (localIdentity : Seed) (packet : Packet) :
    Option ℕ :=
  if packet.payload.length < 2 + 6 then none
  else
    match packet.payload with
    | destHash :: srcHash :: encrypted =>
      if some destHash ≠ (c.publicKey localIdentity).head? then none
      else
        ((iterDecryptBySrcHash c contacts srcHash localIdentity encrypted).findSome?
          fun (_, _, decrypted) => ackInDecrypted decrypted).join
    | _ => none

def Usable (decrypted : Bytes) : Prop :=
  2 ≤ decrypted.length ∧ PathUtils.isValidPathLen (decrypted.headD 0).toNat = true ∧
    1 + PathUtils.getPathByteLen (decrypted.headD 0).toNat ≤ decrypted.length

instance (decrypted : Bytes) : Decidable (Usable decrypted) :=
  inferInstanceAs (Decidable (_ ∧ _ ∧ _))

def typeByte (decrypted : Bytes) : UInt8 :=
  decrypted.getD (1 + PathUtils.getPathByteLen (decrypted.headD 0).toNat) 0

theorem ackInDecrypted_of_not_usable {decrypted : Bytes} (h : ¬ Usable decrypted) :
    ackInDecrypted decrypted = none := by
  unfold ackInDecrypted
  split
  · rfl
  rename_i hlong
  dsimp only
  split
  · rfl
  rename_i hvalid
  split
  · rfl
  · rename_i hpath
    exact absurd ⟨not_lt.mp hlong, not_not.mp hvalid, not_lt.mp hpath⟩ h

def crcField (decrypted : Bytes) : ℕ :=
  Bytes.toNatLE ((decrypted.drop
    (1 + PathUtils.getPathByteLen (decrypted.headD 0).toNat + 1)).take 4)

def HoldsCrc (decrypted : Bytes) : Prop :=
  1 + PathUtils.getPathByteLen (decrypted.headD 0).toNat + 5 ≤ decrypted.length

instance (decrypted : Bytes) : Decidable (HoldsCrc decrypted) :=
  inferInstanceAs (Decidable (_ ≤ _))

theorem ackInDecrypted_of_usable {decrypted : Bytes} (h : Usable decrypted) :
    ackInDecrypted decrypted =
      if HoldsCrc decrypted ∧ (typeByte decrypted).toNat = payloadTypeAck then
        some (some (crcField decrypted))
      else some none := by
  obtain ⟨hlong, hvalid, hpath⟩ := h
  unfold ackInDecrypted
  dsimp only
  rw [if_neg (not_lt.mpr hlong), if_neg (not_not.mpr hvalid), if_neg (not_lt.mpr hpath)]
  rfl

theorem ackInPath_eq_some_iff {decrypted : Bytes} {crc : ℕ} :
    AckHandler.ackInPath decrypted = some crc ↔
      Usable decrypted ∧ HoldsCrc decrypted ∧
        (typeByte decrypted).toNat &&& 0x0F = payloadTypeAck ∧ crc = crcField decrypted := by
  rw [AckHandler.ackInPath_eq_unwrap]
  cases decrypted with
  | nil => exact iff_of_false nofun fun h => absurd h.1.1 (by decide)
  | cons b rest =>
    unfold AckHandler.unwrap Usable HoldsCrc typeByte crcField
    simp only [List.headD_cons]
    generalize b :: rest = decrypted
    generalize PathUtils.getPathByteLen b.toNat = pathByteLen
    by_cases hvalid : PathUtils.isValidPathLen b.toNat = true
    · rw [if_neg (not_not.mpr hvalid)]
      by_cases hshort : decrypted.length < 1 + pathByteLen + 1
      · rw [if_pos hshort]
        exact iff_of_false nofun fun h => by omega
      · rw [if_neg hshort, Option.bind_some]
        split
        · rename_i hack
          rw [List.length_drop] at hack
          exact ⟨fun h => ⟨⟨by omega, hvalid, by omega⟩, by omega, hack.1,
            (Option.some.inj h).symm⟩, fun h => congrArg some h.2.2.2.symm⟩
        · rename_i hother
          rw [List.length_drop] at hother
          exact iff_of_false nofun fun h => hother ⟨h.2.2.1, by omega⟩
    · rw [if_pos hvalid]
      exact iff_of_false nofun fun h => hvalid h.1.2.1

/-- The code in a plaintext whose whole type byte is that of an acknowledgement. -/
def Acks (decrypted : Bytes) (crc : ℕ) : Prop :=
  HoldsCrc decrypted ∧ (typeByte decrypted).toNat = payloadTypeAck ∧ crc = crcField decrypted

instance (decrypted : Bytes) (crc : ℕ) : Decidable (Acks decrypted crc) :=
  inferInstanceAs (Decidable (_ ∧ _ ∧ _))

/-- What the two readers make of the plaintexts, in the order of the contacts. -/
def firstUsableAck (plaintexts : List Bytes) : Option ℕ :=
  (plaintexts.findSome? ackInDecrypted).join

def firstAck (plaintexts : List Bytes) : Option ℕ := plaintexts.head?.bind AckHandler.ackInPath

theorem firstUsableAck_eq_some_iff {plaintexts : List Bytes} {crc : ℕ} :
    firstUsableAck plaintexts = some crc ↔
      ∃ d ∈ plaintexts.find? (fun d => Usable d), Acks d crc := by
  induction plaintexts with
  | nil => simp [firstUsableAck]
  | cons d rest ih =>
    by_cases h : Usable d
    · rw [List.find?_cons_of_pos (by simpa using h), firstUsableAck, List.findSome?_cons,
        ackInDecrypted_of_usable h]
      simp only [Option.mem_some_iff, exists_eq_left']
      by_cases hack : HoldsCrc d ∧ (typeByte d).toNat = payloadTypeAck
      · rw [if_pos hack]
        exact ⟨fun hread => ⟨hack.1, hack.2, (Option.some.inj hread).symm⟩,
          fun hread => congrArg some hread.2.2.symm⟩
      · rw [if_neg hack]
        exact iff_of_false nofun fun hread => hack ⟨hread.1, hread.2.1⟩
    · rw [List.find?_cons_of_neg (by simpa using h), ← ih, firstUsableAck, List.findSome?_cons,
        ackInDecrypted_of_not_usable h]
      rfl

theorem firstAck_eq_some_iff {plaintexts : List Bytes} {crc : ℕ} :
    firstAck plaintexts = some crc ↔ ∃ d ∈ plaintexts.head?, Usable d ∧ HoldsCrc d ∧
      (typeByte d).toNat &&& 0x0F = payloadTypeAck ∧ crc = crcField d := by
  rw [firstAck, Option.bind_eq_some_iff]
  simp only [ackInPath_eq_some_iff, Option.mem_def]

/-- The dispatcher ignores the upper half of the type byte. -/
def Flagged (plaintexts : List Bytes) : Prop :=
  ∃ d ∈ plaintexts.head?, Usable d ∧ HoldsCrc d ∧
    (typeByte d).toNat &&& 0x0F = payloadTypeAck ∧ 16 ≤ (typeByte d).toNat

/-- The bridge passes over plaintexts that it cannot use. -/
def PassedOver (plaintexts : List Bytes) : Prop :=
  (∃ first ∈ plaintexts.head?, ¬ Usable first) ∧
    ∃ d ∈ plaintexts.find? (fun d => Usable d),
      HoldsCrc d ∧ (typeByte d).toNat = payloadTypeAck

theorem typeByte_eq_ack_iff {decrypted : Bytes} :
    (typeByte decrypted).toNat = payloadTypeAck ↔
      (typeByte decrypted).toNat &&& 0x0F = payloadTypeAck ∧ (typeByte decrypted).toNat < 16 := by
  rw [Nat.and_two_pow_sub_one_eq_mod _ 4]
  simp only [payloadTypeAck]
  omega

theorem firstUsableAck_eq_firstAck_iff (plaintexts : List Bytes) :
    firstUsableAck plaintexts = firstAck plaintexts ↔
      ¬ Flagged plaintexts ∧ ¬ PassedOver plaintexts := by
  rw [Option.ext_iff]
  simp only [firstUsableAck_eq_some_iff, firstAck_eq_some_iff, Flagged, PassedOver]
  cases plaintexts with
  | nil => simp
  | cons d rest =>
    simp only [List.head?_cons, Option.mem_some_iff, exists_eq_left']
    by_cases h : Usable d
    · -- both read the first plaintext
      rw [List.find?_cons_of_pos (by simpa using h)]
      simp only [Option.mem_some_iff, exists_eq_left', h, true_and, not_true_eq_false, false_and,
        not_false_eq_true, and_true, Acks, @typeByte_eq_ack_iff d]
      constructor
      · rintro hsame ⟨hcrc, hack, hflags⟩
        exact absurd ((hsame (crcField d)).mpr ⟨hcrc, hack, rfl⟩).2.1.2 (not_lt.mpr hflags)
      · intro hplain crc
        constructor
        · exact fun hread => ⟨hread.1, hread.2.1.1, hread.2.2⟩
        · exact fun ⟨hcrc, hack, heq⟩ =>
            ⟨hcrc, ⟨hack, not_le.mp fun hflags => hplain ⟨hcrc, hack, hflags⟩⟩, heq⟩
    · -- the dispatcher reads nothing
      simp only [h, false_and, iff_false, not_false_eq_true, true_and, not_exists, not_and]
      constructor
      · exact fun hnone e he hcrc hack => hnone (crcField e) e he ⟨hcrc, hack, rfl⟩
      · exact fun hnone crc e he hread => hnone e he hread.1 hread.2.1

variable {c}

/-- The plaintexts that the contacts' secrets give for a payload. -/
def plaintexts (c : Crypto Seed) (contacts : List Contact) (localIdentity : Seed) :
    Bytes → List Bytes
  | _ :: srcHash :: encrypted =>
    (iterDecryptBySrcHash c contacts srcHash localIdentity encrypted).map (·.2.2)
  | _ => []

variable {contacts : List Contact} {localIdentity : Seed}

theorem iterDecryptBySrcHash_congr {contacts contacts' : List Contact}
    (h : contacts.map (·.publicKey) = contacts'.map (·.publicKey)) (srcHash : UInt8)
    (localIdentity : Seed) (encrypted : Bytes) :
    (iterDecryptBySrcHash c contacts srcHash localIdentity encrypted).map
        (fun r => (r.1.publicKey, r.2)) =
      (iterDecryptBySrcHash c contacts' srcHash localIdentity encrypted).map
        (fun r => (r.1.publicKey, r.2)) := by
  have hkeys : ∀ contacts : List Contact,
      (iterDecryptBySrcHash c contacts srcHash localIdentity encrypted).map
          (fun r => (r.1.publicKey, r.2)) =
        (contacts.map (·.publicKey)).filterMap fun key =>
          if key.length ≠ pubKeySize ∨ key.head? ≠ some srcHash then none
          else (decryptFrom c localIdentity { publicKey := key } encrypted).map fun r =>
            (key, r) := by
    intro contacts
    rw [iterDecryptBySrcHash, List.map_filterMap, List.filterMap_map]
    refine List.filterMap_congr fun contact _ => ?_
    simp only [Function.comp_apply]
    split
    · rfl
    · rw [Option.map_map]
      rfl
  rw [hkeys, hkeys, h]

theorem plaintexts_congr {contacts contacts' : List Contact}
    (h : contacts.map (·.publicKey) = contacts'.map (·.publicKey)) (localIdentity : Seed)
    (payload : Bytes) :
    plaintexts c contacts localIdentity payload = plaintexts c contacts' localIdentity payload := by
  rcases payload with _ | ⟨dest, _ | ⟨src, encrypted⟩⟩
  · rfl
  · rfl
  · have hopened := congrArg (List.map fun r => r.2.2)
      (iterDecryptBySrcHash_congr (c := c) h src localIdentity encrypted)
    rw [List.map_map, List.map_map] at hopened
    exact hopened

theorem length_of_mem_plaintexts {payload d : Bytes}
    (h : d ∈ plaintexts c contacts localIdentity payload) : d.length + 4 ≤ payload.length := by
  unfold plaintexts at h
  split at h
  · obtain ⟨r, hr, rfl⟩ := List.mem_map.mp h
    have hdecrypt := decryptFrom_of_mem_iterDecryptBySrcHash hr
    unfold decryptFrom at hdecrypt
    obtain ⟨secret, -, hdecrypt⟩ := Option.bind_eq_some_iff.mp hdecrypt
    obtain ⟨d, hd, hr⟩ := Option.map_eq_some_iff.mp hdecrypt
    rw [← hr]
    have hle := Crypto.length_macThenDecrypt hd
    simp only [List.length_cons, cipherMacSize] at hle ⊢
    omega
  · cases h

theorem dispatcher_eq (contacts : List Contact) (localIdentity : Seed) (packet : Packet) :
    AckHandler.processPathAckVariants c contacts localIdentity packet =
      if packet.payload.head? = (c.publicKey localIdentity).head? then
        firstAck (plaintexts c contacts localIdentity packet.payload)
      else none := by
  unfold AckHandler.processPathAckVariants AckHandler.tryDecryptEncryptedAck plaintexts
  rcases packet.payload with _ | ⟨dest, _ | ⟨src, encrypted⟩⟩
  · exact (ite_self none).symm
  · rw [if_neg fun h => absurd h.1 (by simp)]
    exact (ite_self none).symm
  · simp only [List.length_cons, Nat.le_add_left, true_and]
    congr 1
    cases iterDecryptBySrcHash c contacts src localIdentity encrypted with
    | nil => rfl
    | cons r rest => rfl

theorem firstUsableAck_of_short {payload : Bytes} (h : payload.length < 8) :
    firstUsableAck (plaintexts c contacts localIdentity payload) = none := by
  rw [Option.eq_none_iff_forall_ne_some]
  intro crc hcrc
  obtain ⟨d, hd, hlong, -⟩ := firstUsableAck_eq_some_iff.mp hcrc
  have hlen := length_of_mem_plaintexts (List.mem_of_find?_eq_some hd)
  unfold HoldsCrc at hlong
  omega

theorem bridge_eq (contacts : List Contact) (localIdentity : Seed) (packet : Packet) :
    processPathAckVariants c contacts localIdentity packet =
      if packet.payload.head? = (c.publicKey localIdentity).head? then
        firstUsableAck (plaintexts c contacts localIdentity packet.payload)
      else none := by
  unfold processPathAckVariants
  split
  · rename_i hshort
    rw [firstUsableAck_of_short hshort, ite_self]
  · split
    · rename_i dest src encrypted hpayload
      rw [hpayload, List.head?_cons]
      simp only [ne_eq, ite_not]
      congr 1
      rw [firstUsableAck, plaintexts, List.findSome?_map]
      rfl
    · rename_i hlong _ hpayload
      exfalso
      rcases hp : packet.payload with _ | ⟨dest, _ | ⟨src, encrypted⟩⟩
      · exact hlong (by simp [hp])
      · exact hlong (by simp [hp])
      · exact hpayload dest src encrypted hp

/-- Bridge and dispatcher read the same from every path return, unless the first contact that
decrypts it gives a type byte with bits in its upper half, or nothing usable and a later one an
acknowledgement. -/
theorem processPathAckVariants_eq_iff (c : Crypto Seed) (contacts : List Contact)
    (localIdentity : Seed) (packet : Packet) :
    processPathAckVariants c contacts localIdentity packet =
        AckHandler.processPathAckVariants c contacts localIdentity packet ↔
      ¬ (packet.payload.head? = (c.publicKey localIdentity).head? ∧
        (Flagged (plaintexts c contacts localIdentity packet.payload) ∨
          PassedOver (plaintexts c contacts localIdentity packet.payload))) := by
  rw [bridge_eq, dispatcher_eq]
  split
  · rename_i haddressed
    rw [firstUsableAck_eq_firstAck_iff, ← not_or]
    simp only [haddressed, true_and]
  · rename_i hother
    exact iff_of_true rfl fun h => hother h.1

def returnOf (plaintext : Bytes) : Packet :=
  let secret := xorBytes (xorCrypto.privateKey [0xA0]) (xorCrypto.publicKey [0xB0])
  let body := xorCrypto.encryptThenMac (secret.take 16) secret plaintext
  { header := 0x22, payload := 0xB0 :: 0xA0 :: body, payloadLen := 2 + body.length }

/-- A type byte of 0x13 is an acknowledgement for the dispatcher and none for the bridge. -/
theorem processPathAckVariants_flagged :
    processPathAckVariants xorCrypto [{ publicKey := xorCrypto.publicKey [0xA0] }] [0xB0]
        (returnOf [0x00, 0x13, 1, 2, 3, 4]) = none ∧
      AckHandler.processPathAckVariants xorCrypto [{ publicKey := xorCrypto.publicKey [0xA0] }]
        [0xB0] (returnOf [0x00, 0x13, 1, 2, 3, 4]) = some 0x04030201 := by
  constructor
  · decide +kernel
  · decide +kernel

end BridgeAckHandler

end OpenHop
