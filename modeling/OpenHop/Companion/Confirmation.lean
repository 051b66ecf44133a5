import OpenHop.Companion.BridgeReceive

/-! # Confirmation of a message

The recipient of a text acknowledges it in one of three forms: in a path return, in a packet
of its own, or in a multipart packet ahead of that.
-/

namespace OpenHop

open PacketBuilder

variable {Seed : Type} {c : Crypto Seed}

section

variable {h : TextMessageHandler Seed} {packet : Packet} {contact : Contact}
  {secret pubkey ackHash decrypted messageBody : Bytes} {dest src : UInt8} {isFlood : Bool}
  {acks : List (Packet × ℕ)} {lastByte : UInt8} {txtType timestamp flags : ℕ} {d : Delivery}

theorem carriesAck_of_buildAckResponses
    (hacks : h.buildAckResponses c packet contact secret pubkey ackHash isFlood = .ok acks)
    (hne : ackHash ≠ []) (hdest : pubkey.head? = some dest)
    (hsrc : (c.publicKey h.localIdentity).head? = some src) :
    ∀ ack ∈ acks, CarriesAck c secret dest src ackHash ack.1.getPayloadType ack.1.payload := by
  unfold TextMessageHandler.buildAckResponses at hacks
  split at hacks
  · -- a flood: the path it came along is returned with the hash
    dsimp only at hacks
    rw [hashByte_of_head? hdest, hashByte_of_head? hsrc, ok_bind, ok_bind] at hacks
    obtain ⟨ack, hack, hacks⟩ := bind_eq_ok.mp hacks
    obtain ⟨p, hp, hacks⟩ := bind_eq_ok.mp hacks
    cases hacks
    obtain ⟨-, hfits, hpayload, htype⟩ := createPathReturn_ok hack
    refine List.forall_mem_singleton.mpr ?_
    dsimp only
    rw [(scopedReply_carries hp).1, (scopedReply_carries hp).2, hpayload, htype, pathReturnExtra,
      if_pos hne]
    exact .pathReturn hfits
  split at hacks
  · obtain ⟨ack, hack, hacks⟩ := bind_eq_ok.mp hacks
    obtain ⟨p, hp, hacks⟩ := bind_eq_ok.mp hacks
    cases hacks
    obtain ⟨htype, hpayload⟩ := createAckFromBytes_ok hack
    refine List.forall_mem_singleton.mpr ?_
    dsimp only
    rw [(scopedReply_carries hp).1, (scopedReply_carries hp).2, hpayload, htype]
    exact .discrete
  · dsimp only at hacks
    obtain ⟨ack, hack, hacks⟩ := bind_eq_ok.mp hacks
    obtain ⟨htype, hpayload⟩ := createAckFromBytes_ok hack
    have hdiscrete : CarriesAck c secret dest src ackHash ack.getPayloadType ack.payload := by
      rw [htype, hpayload]
      exact .discrete
    split at hacks
    · cases hacks
      exact List.forall_mem_singleton.mpr hdiscrete
    · obtain ⟨multi, hmulti, hacks⟩ := bind_eq_ok.mp hacks
      cases hacks
      obtain ⟨hmtype, hmpayload⟩ := createMultiAck_ok hmulti
      refine List.forall_mem_cons.mpr ⟨?_, List.forall_mem_singleton.mpr hdiscrete⟩
      dsimp only
      rw [hmtype, hmpayload]
      exact .multipart

theorem acknowledge_of_other (hplain : txtType ≠ txtTypePlain)
    (hsigned : txtType ≠ txtTypeSignedPlain) :
    h.acknowledge c packet contact secret decrypted messageBody txtType timestamp flags lastByte =
      .ok [] := by
  rw [TextMessageHandler.acknowledge, TextMessageHandler.calcAckHash, if_neg hplain,
    if_neg hsigned]
  rfl

theorem acknowledge_of_deliver
    (hd : h.deliver c packet contact secret decrypted lastByte = .ok (.delivered d)) :
    d.contact = contact ∧
      h.acknowledge c packet contact secret decrypted
        (if (((decrypted.getD 4 0).toNat >>> 2) &&& 0x3F == txtTypeSignedPlain) = true then
          decrypted.drop 9 else decrypted.drop 5)
        (((decrypted.getD 4 0).toNat >>> 2) &&& 0x3F) (Bytes.toNatLE (decrypted.take 4))
        (decrypted.getD 4 0).toNat lastByte = .ok d.acks := by
  unfold TextMessageHandler.deliver at hd
  split at hd
  · cases hd
  dsimp only at hd
  split at hd
  · cases hd
  split at hd
  · cases hd
  obtain ⟨acks, hacks, hd⟩ := bind_eq_ok.mp hd
  cases hd
  exact ⟨rfl, hacks⟩

end

/-- A packet that is emitted for a message to acknowledge it to its sender, as it arrives there:
routing leaves type and payload alone. -/
def EmittedFor (c : Crypto Seed) (recipient : Seed) (senderKey : Bytes) (message r : Packet) :
    Prop :=
  ∃ (h : TextMessageHandler Seed) (p : Packet) (lastByte : UInt8) (d : Delivery),
    h.localIdentity = recipient ∧ p.payload = message.payload ∧
      h.call c p lastByte = .ok (.delivered d) ∧ d.contact.publicKey = senderKey ∧
      ∃ ack ∈ d.acks, r.payload = ack.1.payload ∧ r.getPayloadType = ack.1.getPayloadType

section

variable {sender recipient : Seed} {contact : Contact} {message : List Char}
  {attempt txtType timestamp ackCrc : ℕ} {messageType : RouteName}
  {outPath : Option (List PathItem)} {pkt r : Packet}

theorem createTextMessage_mask (h : createTextMessage c contact sender message attempt messageType
      outPath txtType timestamp = .ok (pkt, ackCrc)) :
    createTextMessage c contact sender message attempt messageType outPath (txtType &&& 0x3F)
      timestamp = .ok (pkt, ackCrc) := by
  simp only [createTextMessage, Nat.and_assoc, Nat.and_self] at h ⊢
  exact h

theorem EmittedFor.carries (hcontact : contact.publicKey = c.publicKey recipient)
    (hcreate : createTextMessage c contact sender message attempt messageType outPath txtType
      timestamp = .ok (pkt, ackCrc))
    (hemit : EmittedFor c recipient (c.publicKey sender) pkt r) :
    ∃ secret dest src ackHash, CarriesAck c secret dest src ackHash r.getPayloadType r.payload ∧
      4 ≤ ackHash.length ∧ Bytes.toNatLE (ackHash.take 4) = ackCrc ∧
      c.sharedSecret (c.privateKey sender) (c.publicKey recipient) = some secret ∧
      (c.publicKey sender).head? = some dest := by
  obtain ⟨h, p, lastByte, d, rfl, hpayload, hcall, hentry, ack, hack, hr, hrtype⟩ := hemit
  unfold TextMessageHandler.call at hcall
  split at hcall
  · cases hcall
  split at hcall
  · cases hcall
  rename_i entry secret decrypted hmatch
  obtain ⟨rfl, hacknowledge⟩ := acknowledge_of_deliver hcall
  rw [hpayload] at hmatch
  have hmask : txtType &&& 0x3F &&& 0x3F = txtType &&& 0x3F := by
    rw [Nat.and_assoc, Nat.and_self]
  obtain ⟨span, rest, rfl, rfl, hrest, hts, -, hsecret, hcrc⟩ :=
    decrypted_of_createTextMessage hcontact hmask (createTextMessage_mask hcreate) hmatch hentry
  have hlt : txtType &&& 0x3F < 64 := Nat.and_lt_two_pow _ (show 0x3F < 2 ^ 6 by decide)
  generalize txtType &&& 0x3F = type at *
  obtain ⟨dest, hdest⟩ := c.exists_head_publicKey sender
  obtain ⟨src, hsrc⟩ := c.exists_head_publicKey h.localIdentity
  rw [getD_ackSpan (textFlags_lt hlt _), textFlags_type hlt, take_ackSpan hts] at hacknowledge
  by_cases htype : type = txtTypePlain ∨ type = txtTypeSignedPlain
  · have hauthor := authorOf_text (c := c) sender htype
    obtain ⟨ackHash, hhash, hlen, -, htake⟩ := calcAckHash_spec (c := c) (h := h) hts
      (Utf8.zero_notMem_encode_takeWhile message) hrest d.contact.publicKey lastByte hauthor
    rw [body_ackSpan hauthor, TextMessageHandler.acknowledge, hhash, ok_bind] at hacknowledge
    dsimp only at hacknowledge
    split at hacknowledge
    · refine ⟨secret, dest, src, ackHash, ?_, hlen, ?_, hsecret, hdest⟩
      · rw [hr, hrtype]
        exact carriesAck_of_buildAckResponses hacknowledge
          (List.ne_nil_of_length_pos (Nat.lt_of_lt_of_le (by decide) hlen)) (hentry ▸ hdest) hsrc
          ack hack
      · rw [htake, hcrc]
    · exact absurd hack (by simp [← Except.ok.inj hacknowledge])
  · rw [not_or] at htype
    rw [acknowledge_of_other htype.1 htype.2] at hacknowledge
    exact absurd hack (by simp [← Except.ok.inj hacknowledge])

end

namespace CompanionBridge

variable {b : CompanionBridge Seed} {r : Packet} {secret ackHash : Bytes} {dest src : UInt8}
  {recipient : Seed}

/-- The contact that the bridge takes a path return to come from, the first that gives a plaintext
it can use, and this plaintext. -/
def pathSender (c : Crypto Seed) (b : CompanionBridge Seed) (payload : Bytes) :
    Option (Contact × Bytes) :=
  match payload with
  | _ :: srcHash :: encrypted =>
    ((iterDecryptBySrcHash c b.responses.contacts.contacts.values srcHash
      b.responses.localIdentity encrypted).find? fun r => BridgeAckHandler.Usable r.2.2).map
        fun r => (r.1, r.2.2)
  | _ => none

theorem layout_pathReturnBody {encoded : ℕ} {path : Bytes} (hpath : PathFits path encoded)
    (ackHash rest : Bytes) :
    PathEnvelope.Layout (pathReturnBody encoded path ackHash ++ rest)
      { pathLenByte := encoded, path := path, extraType := payloadTypeAck,
        extra := ackHash ++ rest }
      (UInt8.ofNat payloadTypeAck) := by
  refine ⟨?_, hpath, rfl⟩
  simp [pathReturnBody]

theorem typeByte_pathReturnBody {encoded : ℕ} {path : Bytes} (hpath : PathFits path encoded)
    (ackHash rest : Bytes) :
    BridgeAckHandler.typeByte (pathReturnBody encoded path ackHash ++ rest) =
      UInt8.ofNat payloadTypeAck := by
  obtain ⟨hhead, hbyte, -, -, htype, -⟩ := (layout_pathReturnBody hpath ackHash rest).parts
  rw [BridgeAckHandler.typeByte, hhead, hbyte, htype]

theorem processPathAckVariants_eq_some_iff {crc : ℕ}
    (hdest : r.payload.head? = (c.publicKey b.responses.localIdentity).head?) :
    BridgeAckHandler.processPathAckVariants c b.responses.contacts.contacts.values
        b.responses.localIdentity r = some crc ↔
      ∃ opened ∈ b.pathSender c r.payload, BridgeAckHandler.Acks opened.2 crc := by
  have hfind : (BridgeAckHandler.plaintexts c b.responses.contacts.contacts.values
      b.responses.localIdentity r.payload).find? (fun d => BridgeAckHandler.Usable d) =
      (b.pathSender c r.payload).map (·.2) := by
    rcases r.payload with _ | ⟨dest, _ | ⟨src, encrypted⟩⟩
    · rfl
    · rfl
    · rw [BridgeAckHandler.plaintexts, pathSender, List.find?_map, Option.map_map]
      rfl
  rw [BridgeAckHandler.bridge_eq, if_pos hdest, BridgeAckHandler.firstUsableAck_eq_some_iff, hfind]
  simp only [Option.mem_def, Option.map_eq_some_iff, exists_exists_and_eq_and]

theorem acks_of_pathSender {encoded : ℕ} {path : Bytes} {opened : Contact × Bytes}
    (hpath : PathFits path encoded) (hlen : 4 ≤ ackHash.length)
    (hsecret : c.sharedSecret (c.privateKey b.responses.localIdentity) (c.publicKey recipient) =
      some secret)
    (hopened : b.pathSender c (dest :: src :: c.encryptThenMac (secret.take 16) secret
      (pathReturnBody encoded path ackHash)) = some opened)
    (hkey : opened.1.publicKey = c.publicKey recipient) :
    BridgeAckHandler.Acks opened.2 (Bytes.toNatLE (ackHash.take 4)) := by
  obtain ⟨⟨sender, secret', plaintext⟩, hfind, rfl⟩ := Option.map_eq_some_iff.mp hopened
  have hdecrypt := decryptFrom_of_mem_iterDecryptBySrcHash (List.mem_of_find?_eq_some hfind)
  have hbody : pathReturnBody encoded path ackHash ≠ [] := List.cons_ne_nil _ _
  rw [decryptFrom_encryptThenMac (hkey ▸ hsecret) hbody] at hdecrypt
  obtain ⟨rfl, rfl⟩ := Prod.mk.inj (Option.some.inj hdecrypt)
  obtain ⟨-, hcrc, -, heq⟩ :=
    BridgeAckHandler.ackInPath_eq_some_iff.mp (ackInPath_pathReturnBody hpath hlen)
  refine ⟨hcrc, ?_, heq⟩
  dsimp only
  rw [zeroPad, typeByte_pathReturnBody hpath]
  rfl

/-- The packets that come in, with the readings of the clocks. -/
def run (c : Crypto Seed) (b : CompanionBridge Seed) : List (Clocks × Bytes × Packet) →
    CompanionBridge Seed × List BridgeEvent
  | [] => (b, [])
  | (now, noise, pkt) :: arrivals =>
    let handled := b.processReceivedPacket c now noise pkt
    let later := handled.1.run c arrivals
    (later.1, handled.2.1 ++ later.2)

/-- How often a code is confirmed. -/
def confirmations (crc : ℕ) (events : List BridgeEvent) : ℕ :=
  (events.filterMap confirmed).count crc

theorem Reads.confirmations_eq {b₁ : CompanionBridge Seed} {read : Option ℕ}
    {events : List BridgeEvent} (h : Reads b b₁ read events) (crc : ℕ) :
    confirmations crc events =
      if read = some crc ∧ b.pendingAckCrcs.contains crc then 1 else 0 := by
  rw [confirmations, h.confirms]
  cases read with
  | none => simp
  | some crc' =>
    by_cases heq : crc' = crc
    · subst heq
      cases hpending : b.pendingAckCrcs.contains crc' <;> simp [hpending]
    · cases hpending : b.pendingAckCrcs.contains crc' <;> simp [hpending, heq]

/-- Of however many packets, the first that a pending code is read from confirms it, and no other
does. -/
theorem confirmations_run (b : CompanionBridge Seed) (arrivals : List (Clocks × Bytes × Packet))
    (crc : ℕ) :
    confirmations crc (b.run c arrivals).2 =
      if b.pendingAckCrcs.contains crc ∧ ∃ a ∈ arrivals, b.readCrc c a.2.2 = some crc
      then 1 else 0 := by
  induction arrivals generalizing b with
  | nil => simp [run, confirmations]
  | cons arrival arrivals ih =>
    obtain ⟨now, noise, pkt⟩ := arrival
    have hreads := reads_processReceivedPacket (c := c) b now noise pkt
    have hafter : (b.processReceivedPacket c now noise pkt).1.pendingAckCrcs.contains crc =
        if b.readCrc c pkt = some crc then false else b.pendingAckCrcs.contains crc := by
      rw [Dict.contains, hreads.pending]
      split <;> rfl
    have hsum : confirmations crc (b.run c ((now, noise, pkt) :: arrivals)).2 =
        confirmations crc (b.processReceivedPacket c now noise pkt).2.1 +
          confirmations crc ((b.processReceivedPacket c now noise pkt).1.run c arrivals).2 := by
      simp only [run, confirmations, List.filterMap_append, List.count_append]
    rw [hsum, hreads.confirmations_eq, ih]
    simp only [hreads.readCrc_eq, List.mem_cons, exists_eq_or_imp]
    by_cases hread : b.readCrc c pkt = some crc
    · rw [if_pos hread] at hafter
      simp [hread, hafter]
    · rw [if_neg hread] at hafter
      rw [if_neg fun h => hread h.1, Nat.zero_add]
      refine if_congr ?_ rfl rfl
      rw [hafter]
      simp only [hread, false_or]

/-- A packet confirms a pending code, and once only whatever copies follow, if the code is read from
it. -/
theorem confirmations_copies_iff {crc : ℕ} {copy : Clocks × Bytes × Packet → Prop} {now : Clocks}
    {noise : Bytes} (hpending : b.pendingAckCrcs.contains crc = true) :
    (∀ copies, (∀ a ∈ copies, copy a) →
        confirmations crc (b.run c ((now, noise, r) :: copies)).2 = 1) ↔
      b.readCrc c r = some crc := by
  simp only [confirmations_run, hpending, true_and, List.mem_cons, exists_eq_or_imp]
  constructor
  · intro hall
    by_contra hread
    have halone := hall [] (List.forall_mem_nil _)
    simp [hread] at halone
  · intro hread copies _
    rw [if_pos (Or.inl hread)]

section

variable {contact : Contact} {message : List Char} {attempt txtType timestamp ackCrc : ℕ}
  {messageType : RouteName} {outPath : Option (List PathItem)} {pkt : Packet}

/-- A message that is waited for is confirmed by an acknowledgement, and once only however many
follow, exactly if the acknowledgement is a packet of its own, or a path return that is taken for
the recipient's or for that of someone under whose secret it has the same code. -/
theorem confirmed_once_iff (hcontact : contact.publicKey = c.publicKey recipient)
    (hcreate : createTextMessage c contact b.responses.localIdentity message attempt messageType
      outPath txtType timestamp = .ok (pkt, ackCrc))
    (hpending : b.pendingAckCrcs.contains ackCrc = true)
    (hemit : EmittedFor c recipient (c.publicKey b.responses.localIdentity) pkt r) (now : Clocks)
    (noise : Bytes) :
    (∀ copies : List (Clocks × Bytes × Packet),
        (∀ a ∈ copies, EmittedFor c recipient (c.publicKey b.responses.localIdentity) pkt a.2.2) →
          confirmations ackCrc (b.run c ((now, noise, r) :: copies)).2 = 1) ↔
      r.getPayloadType = payloadTypeAck ∨ r.getPayloadType = payloadTypePath ∧
        ∃ opened ∈ b.pathSender c r.payload, opened.1.publicKey = c.publicKey recipient ∨
          BridgeAckHandler.Acks opened.2 ackCrc := by
  obtain ⟨secret, dest, src, ackHash, hcarries, hlen, rfl, hsecret, hdest⟩ :=
    hemit.carries hcontact hcreate
  generalize hcrc : Bytes.toNatLE (ackHash.take 4) = crc at *
  rw [confirmations_copies_iff hpending, readCrc]
  generalize htype : r.getPayloadType = t at hcarries ⊢
  generalize hpayload : r.payload = d at hcarries ⊢
  cases hcarries with
  | discrete =>
    have hread : BridgeAckHandler.discreteAck r = some crc := by
      rw [BridgeAckHandler.discreteAck, hpayload, if_neg, hcrc]
      rintro (hnil | hshort)
      · rw [hnil] at hlen
        exact absurd hlen (by decide)
      · omega
    simp [hread]
  | multipart => simp
  | pathReturn hpath =>
    have haddressed : r.payload.head? = (c.publicKey b.responses.localIdentity).head? := by
      rw [hpayload, List.head?_cons, hdest]
    have hread : ∀ opened, b.pathSender c r.payload = some opened →
        opened.1.publicKey = c.publicKey recipient → BridgeAckHandler.Acks opened.2 crc := by
      intro opened hopened hkey
      rw [hpayload] at hopened
      rw [← hcrc]
      exact acks_of_pathSender hpath hlen hsecret hopened hkey
    rw [← hpayload, if_neg (by decide), if_pos rfl, processPathAckVariants_eq_some_iff haddressed,
      or_iff_right (by decide)]
    constructor
    · rintro ⟨opened, hopened, hacks⟩
      exact ⟨rfl, opened, hopened, .inr hacks⟩
    · rintro ⟨-, opened, hopened, hkey | hacks⟩
      · exact ⟨opened, hopened, hread opened hopened hkey⟩
      · exact ⟨opened, hopened, hacks⟩

end

/-- The sender of the greeting, who knows the recipient, with the codes it waits for. -/
def greetingBridge : CompanionBridge Bytes :=
  { responses :=
      { localIdentity := [0xA0]
        cls := { isSpace := fun ch => ch = ' ', isPrintable := fun _ => true }
        contacts := ContactStore.put {} recipientContact }
    keyed := ContactStore.Keyed.put (by intro key contact h; cases h) recipientContact }

/-- The recipient with a direct path to the sender and extra acknowledgements switched on. -/
def multiAckHandler : TextMessageHandler Bytes :=
  { localIdentity := [0xB0]
    contacts := [{ senderEntry with outPathLen := 0 }]
    multiAcks := 1 }

def multiGreetingAck : Packet :=
  { header := 42, payload := [0x13, 120, 120, 120, 120, 0, 9], payloadLen := 7 }

/-- The multipart packet ahead of the acknowledgement confirms nothing. -/
theorem confirmed_multipart :
    createTextMessage xorCrypto recipientContact [0xA0] ['h', 'i'] 0 .flood none txtTypePlain 7 =
        .ok (greeting, 0x78787878) ∧
      EmittedFor xorCrypto [0xB0] (xorCrypto.publicKey [0xA0]) greeting multiGreetingAck ∧
      (greetingBridge.trackPendingAck 0 0x78787878).pendingAckCrcs.contains 0x78787878 = true ∧
      confirmations 0x78787878 ((greetingBridge.trackPendingAck 0 0x78787878).run xorCrypto
        [(⟨1, 1⟩, [], multiGreetingAck)]).2 = 0 := by
  refine ⟨createTextMessage_greeting, ?_, by decide +kernel, by decide +kernel⟩
  refine ⟨multiAckHandler, { greeting with header := 10 }, 9,
    { greetingDelivery with
      contact := { senderEntry with outPathLen := 0 }
      pathLen := 0xFF
      acks := [(multiGreetingAck, txtAckDelayMs),
        ({ header := 14, payload := [120, 120, 120, 120, 0, 9], payloadLen := 6 },
          txtAckDelayMs + multiAckStaggerMs)] }, rfl, rfl, ?_, rfl, _, List.mem_cons_self, rfl, rfl⟩
  decide +kernel

/-- The path return that answers the flooded greeting confirms it once. -/
theorem confirmed_once_iff_greeting :
    confirmations 0x78787878 ((greetingBridge.trackPendingAck 0 0x78787878).run xorCrypto
      [(⟨1, 1⟩, [], greetingAck), (⟨2, 2⟩, [], greetingAck)]).2 = 1 := by
  have hemit : EmittedFor xorCrypto [0xB0] (xorCrypto.publicKey [0xA0]) greeting greetingAck :=
    ⟨recipientHandler, captureRecvRegion xorCrypto none greeting, 9, greetingDelivery, rfl, rfl,
      call_greeting, rfl, _, List.mem_singleton.mpr rfl, rfl, rfl⟩
  have hpending := Option.isSome_of_eq_some
    (greetingBridge.get?_trackPendingAck 0 0x78787878)
  have hcontact : recipientContact.publicKey = xorCrypto.publicKey [0xB0] := rfl
  have honce := confirmed_once_iff (b := greetingBridge.trackPendingAck 0 0x78787878) hcontact
    createTextMessage_greeting hpending hemit ⟨1, 1⟩ []
  refine honce.mpr (Or.inr ⟨by decide, ?_⟩) [(⟨2, 2⟩, [], greetingAck)] ?_
  · decide +kernel
  · exact List.forall_mem_singleton.mpr hemit

end CompanionBridge

end OpenHop
