import OpenHop.Node.TextMessage

/-! # Delivery confirmation

A text message is acknowledged by four bytes of a hash that both ends compute, the sender
over the text it was given and the recipient over what it decrypts.
-/

namespace OpenHop

open PacketBuilder

variable {Seed : Type} {c : Crypto Seed}

/-- The payload types and payloads that carry an acknowledgement hash. -/
inductive CarriesAck (c : Crypto Seed) (secret : Bytes) (dest src : UInt8) (ackHash : Bytes) :
    ℕ → Bytes → Prop where
  | discrete : CarriesAck c secret dest src ackHash payloadTypeAck ackHash
  | multipart : CarriesAck c secret dest src ackHash payloadTypeMultipart (0x13 :: ackHash)
  | pathReturn {encoded : ℕ} {path : Bytes} (h : PathFits path encoded) :
    CarriesAck c secret dest src ackHash payloadTypePath (dest :: src ::
      c.encryptThenMac (secret.take 16) secret (pathReturnBody encoded path ackHash))

/-- A well-formed packet that carries an acknowledgement hash. -/
structure IsAck (c : Crypto Seed) (secret : Bytes) (dest src : UInt8) (ackHash : Bytes)
    (p : Packet) : Prop where
  wellFormed : p.WellFormed
  carries : CarriesAck c secret dest src ackHash p.getPayloadType p.payload

/-- The contact a path return is taken to come from. -/
def authenticatedSender (c : Crypto Seed) (contacts : List Contact) (localIdentity : Seed)
    (payload : Bytes) : Option Contact :=
  match payload with
  | _ :: srcHash :: encrypted =>
    (iterDecryptBySrcHash c contacts srcHash localIdentity encrypted).head?.map (·.1)
  | _ => none

theorem decryptFrom_of_mem_iterDecryptBySrcHash {contacts : List Contact} {srcHash : UInt8}
    {localIdentity : Seed} {encrypted : Bytes} {r : Contact × Bytes × Bytes}
    (h : r ∈ iterDecryptBySrcHash c contacts srcHash localIdentity encrypted) :
    decryptFrom c localIdentity r.1 encrypted = some r.2 := by
  obtain ⟨contact, _, hcontact⟩ := List.mem_filterMap.mp h
  split at hcontact
  · cases hcontact
  · obtain ⟨r', hr', rfl⟩ := Option.map_eq_some_iff.mp hcontact
    exact hr'

theorem decryptFrom_encryptThenMac {localIdentity : Seed} {contact : Contact} {secret data : Bytes}
    (hsecret : c.sharedSecret (c.privateKey localIdentity) contact.publicKey = some secret)
    (hdata : data ≠ []) :
    decryptFrom c localIdentity contact (c.encryptThenMac (secret.take 16) secret data) =
      some (secret, zeroPad data) := by
  rw [decryptFrom, hsecret, Option.bind_some, Crypto.macThenDecrypt_encryptThenMac _ _ hdata]
  rfl

theorem ackInPath_pathReturnBody {encoded : ℕ} {path ackHash rest : Bytes}
    (hpath : PathFits path encoded) (hlen : 4 ≤ ackHash.length) :
    AckHandler.ackInPath (pathReturnBody encoded path ackHash ++ rest) =
      some (Bytes.toNatLE (ackHash.take 4)) := by
  obtain ⟨hvalid, hpathlen⟩ := hpath
  have hbyte : (UInt8.ofNat encoded).toNat = encoded :=
    Bytes.toNat_ofNat_of_lt ((PathUtils.isValidPathLen_lt hvalid).trans (by decide))
  have htype : (UInt8.ofNat payloadTypeAck).toNat &&& 0x0F = payloadTypeAck := by decide
  have hlong : ¬ (pathReturnBody encoded path ackHash ++ rest).length <
      1 + path.length + 5 := by
    simp only [pathReturnBody, List.length_append, List.length_cons]
    omega
  have htake : (ackHash ++ rest).take 4 = ackHash.take 4 := List.take_append_of_le_length hlen
  simp only [AckHandler.ackInPath, pathReturnBody, List.cons_append, hbyte, hvalid,
    not_true_eq_false, if_false, ← hpathlen] at hlong ⊢
  rw [Nat.add_comm 1 path.length, List.getElem?_cons_succ, List.append_assoc,
    List.getElem?_append_right le_rfl, Nat.sub_self, List.cons_append, List.getElem?_cons_zero]
  rw [Nat.add_comm 1 path.length, List.append_assoc, List.cons_append] at hlong
  dsimp only
  rw [if_neg (not_not.mpr htype), if_neg hlong, List.drop_succ_cons, ← List.drop_drop,
    List.drop_left, List.drop_one, List.tail_cons, htake]

section

variable {secret ackHash payload : Bytes} {dest src : UInt8} {contacts : List Contact}
  {sender recipient : Seed} {type : ℕ} {r : Packet}

theorem tryDecryptEncryptedAck_pathReturn {encoded : ℕ} {path : Bytes}
    (hpath : PathFits path encoded) (hlen : 4 ≤ ackHash.length)
    (hsecret : c.sharedSecret (c.privateKey sender) (c.publicKey recipient) = some secret)
    (hpayload : payload = dest :: src :: c.encryptThenMac (secret.take 16) secret
      (pathReturnBody encoded path ackHash))
    (hauth : (authenticatedSender c contacts sender payload).map (·.publicKey) =
      some (c.publicKey recipient)) :
    AckHandler.tryDecryptEncryptedAck c contacts sender payload =
      some (Bytes.toNatLE (ackHash.take 4)) := by
  subst hpayload
  simp only [authenticatedSender, AckHandler.tryDecryptEncryptedAck, Option.map_map] at hauth ⊢
  cases hiter : iterDecryptBySrcHash c contacts src sender (c.encryptThenMac (secret.take 16) secret
      (pathReturnBody encoded path ackHash)) with
  | nil =>
    rw [hiter] at hauth
    cases hauth
  | cons first rest =>
    rw [hiter] at hauth
    have hkey : first.1.publicKey = c.publicKey recipient := Option.some.inj hauth
    have hmem : first ∈ iterDecryptBySrcHash c contacts src sender (c.encryptThenMac
        (secret.take 16) secret (pathReturnBody encoded path ackHash)) := by
      rw [hiter]
      exact List.mem_cons_self
    have hbody : pathReturnBody encoded path ackHash ≠ [] := List.cons_ne_nil _ _
    have hdecrypt := decryptFrom_of_mem_iterDecryptBySrcHash hmem
    rw [decryptFrom_encryptThenMac (hkey ▸ hsecret) hbody] at hdecrypt
    obtain ⟨contact, secret', decrypted⟩ := first
    cases hdecrypt
    exact ackInPath_pathReturnBody hpath hlen

theorem receivedAckCrc_of_carriesAck
    (h : CarriesAck c secret dest src ackHash r.getPayloadType r.payload)
    (hlen : 4 ≤ ackHash.length) (hdest : (c.publicKey sender).head? = some dest)
    (hsecret : c.sharedSecret (c.privateKey sender) (c.publicKey recipient) = some secret)
    (hauth : r.getPayloadType = payloadTypePath →
      (authenticatedSender c contacts sender r.payload).map (·.publicKey) =
        some (c.publicKey recipient)) :
    receivedAckCrc c contacts sender r = some (Bytes.toNatLE (ackHash.take 4)) := by
  generalize htype : r.getPayloadType = t at h hauth
  generalize hpayload : r.payload = d at h hauth
  unfold receivedAckCrc
  rw [htype]
  cases h with
  | discrete =>
    rw [if_pos rfl, AckHandler.processDiscreteAck, hpayload, if_neg (by omega)]
  | multipart =>
    have hlong : ¬ (0x13 :: ackHash).length < 5 := by
      rw [List.length_cons]
      omega
    rw [if_neg (by decide), if_pos rfl, MultipartAckHandler.extractAckCrc, hpayload, if_neg hlong]
    exact if_neg (by decide)
  | pathReturn hpath =>
    rw [if_neg (by decide), if_neg (by decide), if_pos rfl, AckHandler.processPathAckVariants,
      hpayload, if_pos ⟨by simp, hdest.symm⟩]
    exact tryDecryptEncryptedAck_pathReturn hpath hlen hsecret rfl (hauth rfl)

end

section

variable {h : TextMessageHandler Seed} {timestamp txtType attempt : ℕ} {author text rest : Bytes}

theorem textLen_append (htext : 0 ∉ text) (hrest : rest.head?.getD 0 = 0) :
    TextMessageHandler.textLen (text ++ rest) = text.length := by
  induction text with
  | nil =>
    cases rest with
    | nil => rfl
    | cons b rest =>
      have hb : b = 0 := hrest
      simp [TextMessageHandler.textLen, List.findIdx_cons, hb]
  | cons b text ih =>
    rw [List.mem_cons, not_or] at htext
    have hb : (b == 0) = false := beq_eq_false_iff_ne.mpr (Ne.symm htext.1)
    have ih := ih htext.2
    simp only [TextMessageHandler.textLen, List.cons_append, List.findIdx_cons, hb, cond_false,
      List.length_cons] at ih ⊢
    rw [ih]

theorem textTail_head (txtType attempt n : ℕ) :
    (textTail txtType attempt ++ List.replicate n 0).head?.getD 0 = 0 := by
  unfold textTail
  split
  · rfl
  · cases n <;> rfl

/-- The text types that are acknowledged, with the author bytes before their text. -/
def Authored (txtType : ℕ) (author : Bytes) : Prop :=
  txtType = txtTypePlain ∧ author = [] ∨ txtType = txtTypeSignedPlain ∧ author.length = 4

theorem Authored.lt (htype : Authored txtType author) : txtType < 64 := by
  rcases htype with ⟨rfl, _⟩ | ⟨rfl, _⟩ <;> decide

theorem calcAckHash_spec (hts : timestamp < 256 ^ 4) (htext : 0 ∉ text)
    (hrest : rest.head?.getD 0 = 0) (pubkey : Bytes) (lastByte : UInt8)
    (htype : Authored txtType author) :
    ∃ ackHash, h.calcAckHash c txtType
        (ackSpan timestamp (textFlags txtType attempt) author text ++ rest)
        (text ++ rest) pubkey timestamp (textFlags txtType attempt) lastByte =
          .ok (some ackHash) ∧
      4 ≤ ackHash.length ∧ ackHash.length ≤ 6 ∧
      ackHash.take 4 = (c.sha256 (ackSpan timestamp
        (textFlags txtType attempt) author text ++
          if txtType = txtTypeSignedPlain then c.publicKey h.localIdentity
          else pubkey)).take 4 := by
  have hflags : textFlags txtType attempt < 256 := textFlags_lt htype.lt attempt
  have hhash : ∀ d, ((c.sha256 d).take 4).length = 4 := by
    intro d
    simp [c.length_sha256]
  unfold TextMessageHandler.calcAckHash
  simp only [textLen_append htext hrest, List.take_left]
  rcases htype with ⟨rfl, rfl⟩ | ⟨rfl, hauthor⟩
  · -- plain text: the span is packed again from what was received
    have hmask : textFlags txtTypePlain attempt &&& 0xFF =
        textFlags txtTypePlain attempt := by
      rw [Nat.and_two_pow_sub_one_eq_mod _ 8, Nat.mod_eq_of_lt hflags]
    have hpack : packTimestampData timestamp
        [.int (textFlags txtTypePlain attempt &&& 0xFF), .bytes text] =
        .ok (ackSpan timestamp (textFlags txtTypePlain attempt) []
          text) := by
      rw [hmask, packTimestampData_bytes hts hflags]
    refine ⟨_, by rw [if_pos rfl, calcTextAckHash, hpack]; rfl, ?_, ?_, ?_⟩
    · simp [hhash]
    · simp [hhash]
    · rw [List.take_left' (hhash _), if_neg (by decide)]
  · -- signed text: the span is cut from the decrypted bytes
    have hspan : (ackSpan timestamp
        (textFlags txtTypeSignedPlain attempt) author text).length =
          9 + text.length := by
      simp only [ackSpan, List.length_append, List.length_cons, Bytes.length_le]
      omega
    refine ⟨_, by rw [if_neg (by decide), if_pos rfl, List.take_left' hspan], ?_, ?_, ?_⟩
    · rw [hhash]
    · rw [hhash]
      decide
    · rw [if_pos rfl, List.take_take]
      rfl

theorem scopedReply_carries {reply request p : Packet}
    (h : TextMessageHandler.scopedReply c reply request = .ok p) :
    p.payload = reply.payload ∧ p.getPayloadType = reply.getPayloadType := by
  unfold TextMessageHandler.scopedReply at h
  split at h
  · rename_i q hq
    cases h
    exact applyReplyScope_carries hq
  · cases h

theorem scopedReply_isAck {secret ackHash : Bytes} {dest src : UInt8} {reply request : Packet}
    (hreply : IsAck c secret dest src ackHash reply)
    (hkey : ∀ key, request.recvRegionKey = some key → key.length = 16) :
    ∃ p, TextMessageHandler.scopedReply c reply request = .ok p ∧
      IsAck c secret dest src ackHash p := by
  obtain ⟨p, hp, hpayload, htype, hwell⟩ := applyReplyScope_spec (c := c) hreply.wellFormed hkey
  refine ⟨p, by rw [TextMessageHandler.scopedReply, hp], hwell, ?_⟩
  rw [hpayload, htype]
  exact hreply.carries

theorem hashByte_of_head? {pubkey : Bytes} {b : UInt8} (h : pubkey.head? = some b) :
    hashByte pubkey = .ok b := by
  cases pubkey with
  | nil => cases h
  | cons x pubkey =>
    cases h
    rfl

/-- Whatever form is chosen, the acknowledgement is built, well formed and carries the hash. -/
theorem buildAckResponses_spec {packet : Packet} {contact : Contact} {secret pubkey ackHash : Bytes}
    {dest src : UInt8} (hpacket : packet.WellFormed)
    (hkey : ∀ key, packet.recvRegionKey = some key → key.length = 16)
    (hpath : 0 ≤ contact.outPathLen →
      contact.outPath.length = PathUtils.getPathByteLen contact.outPathLen.toNat)
    (hdest : pubkey.head? = some dest) (hsrc : (c.publicKey h.localIdentity).head? = some src)
    (hlen : 4 ≤ ackHash.length) (hlen' : ackHash.length ≤ 6) (isFlood : Bool) :
    ∃ acks, h.buildAckResponses c packet contact secret pubkey ackHash isFlood = .ok acks ∧
      acks ≠ [] ∧ ∀ ack ∈ acks, IsAck c secret dest src ackHash ack.1 := by
  have hfits : ackHash.length ≤ maxPacketPayload := hlen'.trans (by decide)
  unfold TextMessageHandler.buildAckResponses
  split
  · -- a flood: the path it came along is returned with the hash
    have hincoming : PathFits packet.path packet.pathLen :=
      ⟨hpacket.valid, hpacket.path_length.symm⟩
    have hwhole : TextMessageHandler.incomingPath packet = (some packet.pathLen, packet.path) := by
      rw [TextMessageHandler.incomingPath, if_pos hpacket.valid, ← hincoming.2, List.take_length]
    obtain ⟨ack, hack, hpayload, htype, hwell⟩ := createPathReturn_spec (c := c) dest
      src secret hincoming (List.ne_nil_of_length_pos (by omega)) hlen' []
    have hisAck : IsAck c secret dest src ackHash ack :=
      ⟨hwell, by rw [hpayload, htype]; exact .pathReturn hincoming⟩
    obtain ⟨p, hp, hpack⟩ := scopedReply_isAck hisAck hkey
    refine ⟨[(p, txtAckDelayMs)], ?_, List.cons_ne_nil _ _, List.forall_mem_singleton.mpr hpack⟩
    simp only [hwhole, hashByte_of_head? hdest, hashByte_of_head? hsrc, ok_bind, hack, hp,
      pure_eq_ok]
  split
  · -- no usable path: the hash is flooded
    obtain ⟨ack, hack, hpayload, htype, hwell⟩ :=
      @createAckFromBytes_spec ackHash [] none .flood hfits (Or.inl rfl)
    have hisAck : IsAck c secret dest src ackHash ack :=
      ⟨hwell, by rw [hpayload, htype]; exact .discrete⟩
    obtain ⟨p, hp, hpack⟩ := scopedReply_isAck hisAck hkey
    refine ⟨[(p, txtAckDelayMs)], ?_, List.cons_ne_nil _ _, List.forall_mem_singleton.mpr hpack⟩
    simp only [hack, ok_bind, hp, pure_eq_ok]
  · -- a known path: the hash follows it, behind a multipart packet if extra ones are wanted
    rename_i hknown
    obtain ⟨hpos, hvalid⟩ := not_not.mp hknown
    have hroute : contact.outPath = [] ∨ ∃ n, some contact.outPathLen.toNat = some n ∧
        PathFits contact.outPath n := Or.inr ⟨_, rfl, hvalid, hpath hpos⟩
    obtain ⟨ack, hack, hpayload, htype, hwell⟩ :=
      createAckFromBytes_spec .direct hfits hroute
    obtain ⟨multi, hmulti, hmpayload, hmtype, hmwell⟩ :=
      createMultiAck_spec (lt_of_le_of_lt hlen' (by decide)) hroute
    have hisAck : IsAck c secret dest src ackHash ack :=
      ⟨hwell, by rw [hpayload, htype]; exact .discrete⟩
    have hisMulti : IsAck c secret dest src ackHash multi :=
      ⟨hmwell, by rw [hmpayload, hmtype]; exact .multipart⟩
    dsimp only
    rw [hack, ok_bind]
    split
    · exact ⟨_, rfl, List.cons_ne_nil _ _, List.forall_mem_singleton.mpr hisAck⟩
    · rw [hmulti]
      exact ⟨_, rfl, List.cons_ne_nil _ _,
        List.forall_mem_cons.mpr ⟨hisMulti, List.forall_mem_singleton.mpr hisAck⟩⟩

theorem textFlags_type (htype : txtType < 64) :
    (textFlags txtType attempt >>> 2) &&& 0x3F = txtType := by
  rw [textFlags_eq, Nat.shiftRight_eq_div_pow, Nat.and_two_pow_sub_one_eq_mod _ 6]
  omega

theorem body_ackSpan (htype : Authored txtType author) (flags : ℕ) :
    (if (txtType == txtTypeSignedPlain) = true then
      (ackSpan timestamp flags author text ++ rest).drop 9
    else (ackSpan timestamp flags author text ++ rest).drop 5) = text ++ rest := by
  rcases htype with ⟨rfl, rfl⟩ | ⟨rfl, hauthor⟩
  · rw [if_neg (by decide), drop_ackSpan, List.nil_append]
  · rw [if_pos (beq_self_eq_true _), show 9 = 5 + 4 from rfl, ← List.drop_drop, drop_ackSpan,
      List.drop_left' hauthor]

theorem deliver_ackSpan {packet : Packet} {contact : Contact} {secret : Bytes} {lastByte : UInt8}
    {acks : List (Packet × ℕ)} (hts : timestamp < 256 ^ 4) (htext : 0 ∉ text)
    (hrest : rest.head?.getD 0 = 0) (htype : Authored txtType author)
    (hacks : h.acknowledge c packet contact secret
      (ackSpan timestamp (textFlags txtType attempt) author text ++ rest)
      (text ++ rest) txtType timestamp (textFlags txtType attempt) lastByte = .ok acks) :
    ∃ d, h.deliver c packet contact secret
        (ackSpan timestamp (textFlags txtType attempt) author text ++ rest)
        lastByte = .ok (.delivered d) ∧
      d.text = Utf8.decodeReplace text ∧ d.acks = acks := by
  have hsupported : TextMessageHandler.supported txtType = true := by
    rcases htype with ⟨rfl, _⟩ | ⟨rfl, _⟩ <;> rfl
  have hlen := length_ackSpan_append timestamp (textFlags txtType attempt) author text rest
  have hlong : ¬ ((txtType == txtTypeSignedPlain) = true ∧
      (ackSpan timestamp (textFlags txtType attempt) author text ++ rest).length < 9) := by
    rintro ⟨hsigned, hshort⟩
    rcases htype with ⟨rfl, _⟩ | ⟨rfl, hauthor⟩
    · cases hsigned
    · omega
  unfold TextMessageHandler.deliver
  rw [if_neg (by omega)]
  simp only [take_ackSpan hts, getD_ackSpan (textFlags_lt htype.lt attempt),
    textFlags_type htype.lt, hsupported, not_true_eq_false, if_false, hlong, body_ackSpan htype,
    hacks, ok_bind, pure_eq_ok, textLen_append htext hrest, List.take_left]
  exact ⟨_, rfl, rfl, rfl⟩

theorem acknowledge_spec {packet : Packet} {contact : Contact} (secret : Bytes)
    {decrypted body ackHash : Bytes} {flags : ℕ} {dest src : UInt8} (hpacket : packet.WellFormed)
    (hkey : ∀ key, packet.recvRegionKey = some key → key.length = 16)
    (hpath : 0 ≤ contact.outPathLen →
      contact.outPath.length = PathUtils.getPathByteLen contact.outPathLen.toNat)
    (hdest : contact.publicKey.head? = some dest)
    (hsrc : (c.publicKey h.localIdentity).head? = some src) {lastByte : UInt8}
    (hhash : h.calcAckHash c txtType decrypted body contact.publicKey timestamp flags lastByte =
      .ok (some ackHash)) (hlen : 4 ≤ ackHash.length) (hlen' : ackHash.length ≤ 6) :
    ∃ acks, h.acknowledge c packet contact secret decrypted body txtType timestamp flags lastByte =
        .ok acks ∧
      (h.shouldAck = none → acks ≠ []) ∧
      ∀ ack ∈ acks, IsAck c secret dest src ackHash ack.1 := by
  unfold TextMessageHandler.acknowledge
  rw [hhash, ok_bind]
  dsimp only
  split
  · obtain ⟨acks, hacks, hne, hall⟩ :=
      buildAckResponses_spec hpacket hkey hpath hdest hsrc hlen hlen' packet.isRouteFlood
    exact ⟨acks, hacks, fun _ => hne, hall⟩
  · rename_i hveto
    refine ⟨[], rfl, fun hnone => absurd ?_ hveto, fun _ hmem => absurd hmem List.not_mem_nil⟩
    rw [TextMessageHandler.ackAllowed, hnone]

theorem decryptFrom_of_matchContact {payload : Bytes} {r : Contact × Bytes × Bytes}
    (hmatch : h.matchContact c payload = some r) :
    ∃ dest src encrypted, payload = dest :: src :: encrypted ∧
      decryptFrom c h.localIdentity r.1 encrypted = some r.2 := by
  unfold TextMessageHandler.matchContact at hmatch
  split at hmatch
  · rename_i dest src encrypted
    obtain ⟨contact, _, hcontact⟩ := List.exists_of_findSome?_eq_some hmatch
    split at hcontact
    · cases hcontact
    · obtain ⟨r', hr', rfl⟩ := Option.map_eq_some_iff.mp hcontact
      exact ⟨dest, src, encrypted, rfl, hr'⟩
  · cases hmatch

end

section

variable {sender : Seed} {h : TextMessageHandler Seed} {contact entry : Contact}
  {message : List Char} {attempt txtType timestamp : ℕ} {messageType : RouteName}
  {outPath : Option (List PathItem)} {pkt : Packet} {ackCrc : ℕ}
  {secret decrypted : Bytes}

theorem authorOf_text (sender : Seed)
    (htype : txtType = txtTypePlain ∨ txtType = txtTypeSignedPlain) :
    Authored txtType (authorOf c sender txtType) := by
  rcases htype with rfl | rfl
  · exact Or.inl ⟨rfl, rfl⟩
  · refine Or.inr ⟨rfl, ?_⟩
    rw [authorOf, if_pos rfl, List.length_take, c.length_publicKey]
    rfl

/-- The message as the recipient decrypts it: what the sender hashed, then the tail and padding. -/
theorem decrypted_of_createTextMessage
    (hcontact : contact.publicKey = c.publicKey h.localIdentity)
    (hmask : txtType &&& 0x3F = txtType)
    (hcreate : createTextMessage c contact sender message attempt messageType outPath
      txtType timestamp = .ok (pkt, ackCrc))
    (hmatch : h.matchContact c pkt.payload = some (entry, secret, decrypted))
    (hentry : entry.publicKey = c.publicKey sender) :
    ∃ span rest,
      span = ackSpan timestamp (textFlags txtType (attempt &&& 0xFF))
        (authorOf c sender txtType)
        (Utf8.encode (message.takeWhile (· ≠ '\x00'))) ∧
      decrypted = span ++ rest ∧ rest.head?.getD 0 = 0 ∧ timestamp < 256 ^ 4 ∧
      4 ≤ pkt.payload.length ∧
      c.sharedSecret (c.privateKey sender) (c.publicKey h.localIdentity) = some secret ∧
      ackCrc = Bytes.toNatLE ((c.sha256 (span ++
        if txtType = txtTypeSignedPlain then c.publicKey h.localIdentity
        else entry.publicKey)).take 4) := by
  obtain ⟨span, secret', dest, src, hspan, hts, hsecret, _, hpkt, hcrc⟩ :=
    createTextMessage_ok hcreate
  rw [hmask] at hspan hpkt hcrc
  rw [hcontact] at hsecret
  have hagree : c.sharedSecret (c.privateKey h.localIdentity) entry.publicKey = some secret' := by
    rw [hentry, c.sharedSecret_comm, hsecret]
  have hne : span ++ textTail txtType (attempt &&& 0xFF) ≠ [] := by
    rw [hspan, ackSpan, Bytes.le]
    exact List.cons_ne_nil _ _
  obtain ⟨_, _, encrypted, hshape, hdecrypt⟩ := decryptFrom_of_matchContact hmatch
  obtain ⟨rfl, rfl, rfl⟩ : _ ∧ _ ∧ encrypted = _ := by
    simpa using hshape.symm.trans hpkt
  rw [decryptFrom_encryptThenMac hagree hne, Option.some.injEq, Prod.mk.injEq] at hdecrypt
  obtain ⟨rfl, rfl⟩ := hdecrypt
  refine ⟨span, _, hspan, List.append_assoc _ _ _, textTail_head _ _ _, hts, ?_, hsecret, ?_⟩
  · rw [hpkt]
    simp only [List.length_cons, Crypto.length_encryptThenMac, cipherMacSize]
    omega
  · rw [hcrc, hcontact, hentry]

end

/-- The recipient delivers the text up to its first zero character, and the sender reads the
announced code from each acknowledgement, once it takes a path return for the recipient's. -/
theorem text_delivery_confirmed {sender : Seed} {h : TextMessageHandler Seed}
    {contact entry : Contact} {message : List Char} {attempt txtType timestamp : ℕ}
    {messageType : RouteName} {outPath : Option (List PathItem)}
    {pkt p : Packet} {ackCrc : ℕ} {frame secret decrypted : Bytes}
    (hcontact : contact.publicKey = c.publicKey h.localIdentity)
    (htype : txtType = txtTypePlain ∨ txtType = txtTypeSignedPlain)
    (hcreate : createTextMessage c contact sender message attempt messageType outPath
      txtType timestamp = .ok (pkt, ackCrc))
    (hframe : Packet.readFrom {} frame = .ok p) (hpayload : p.payload = pkt.payload)
    (hmatch : h.matchContact c p.payload = some (entry, secret, decrypted))
    (hentry : entry.publicKey = c.publicKey sender)
    (hpath : 0 ≤ entry.outPathLen →
      entry.outPath.length = PathUtils.getPathByteLen entry.outPathLen.toNat)
    (regions : Option RegionMap) (lastByte : UInt8) :
    ∃ d, h.call c (captureRecvRegion c regions p) lastByte = .ok (.delivered d) ∧
      d.text = message.takeWhile (· ≠ '\x00') ∧
      (h.shouldAck = none → d.acks ≠ []) ∧
      ∀ ack ∈ d.acks, ack.1.WellFormed ∧
        ∀ (contacts : List Contact) (r : Packet), r.payload = ack.1.payload →
          r.getPayloadType = ack.1.getPayloadType →
          (r.getPayloadType = payloadTypePath →
            (authenticatedSender c contacts sender r.payload).map (·.publicKey) =
              some (c.publicKey h.localIdentity)) →
          receivedAckCrc c contacts sender r = some ackCrc := by
  have hmask : txtType &&& 0x3F = txtType := by
    rcases htype with rfl | rfl <;> rfl
  rw [hpayload] at hmatch
  obtain ⟨span, rest, rfl, rfl, hrest, hts, hlong, hsecret, rfl⟩ :=
    decrypted_of_createTextMessage hcontact hmask hcreate hmatch hentry
  have htext := Utf8.zero_notMem_encode_takeWhile message
  have hauthor := authorOf_text (c := c) sender htype
  obtain ⟨dest, hdest⟩ := c.exists_head_publicKey sender
  obtain ⟨src, hsrc⟩ := c.exists_head_publicKey h.localIdentity
  -- the packet as the handler gets it
  obtain ⟨hwell, _, hreceive⟩ := Packet.readFrom_sound hframe
  obtain ⟨hcaptured, hsame⟩ := captureRecvRegion_wellFormed (c := c) regions hwell
  have hnokey : p.recvRegionKey = none := by
    rw [hreceive]
    rfl
  -- its acknowledgements and its text
  obtain ⟨ackHash, hhash, hlen, hlen', htake⟩ :=
    calcAckHash_spec (c := c) (h := h) hts htext hrest entry.publicKey lastByte hauthor
  obtain ⟨acks, hacks, hsome, hall⟩ := acknowledge_spec secret hcaptured
    (fun _ => captureRecvRegion_key hnokey) hpath (hentry ▸ hdest) hsrc hhash hlen hlen'
  obtain ⟨d, hd, hdtext, rfl⟩ := deliver_ackSpan hts htext hrest hauthor hacks
  refine ⟨d, ?_, hdtext.trans (Utf8.decodeReplace_encode _), hsome, ?_⟩
  · rw [TextMessageHandler.call, hsame, hpayload, if_neg (by omega), hmatch]
    exact hd
  · intro ack hack
    obtain ⟨hackwell, hcarries⟩ := hall ack hack
    refine ⟨hackwell, fun contacts r hr hrtype hauth => ?_⟩
    rw [← hr, ← hrtype] at hcarries
    rw [receivedAckCrc_of_carriesAck hcarries hlen hdest hsecret hauth, htake]

/-- The recipient as the sender knows it. -/
def recipientContact : Contact := { publicKey := xorCrypto.publicKey [0xB0] }

/-- A contact whose key has the recipient's first byte. -/
def collidingContact : Contact := { publicKey := xorCrypto.publicKey [0xB0, 0, 1] }

def senderEntry : Contact := { publicKey := xorCrypto.publicKey [0xA0] }

def recipientHandler : TextMessageHandler Bytes :=
  { localIdentity := [0xB0]
    contacts := [senderEntry] }

def greeting : Packet :=
  { header := 9
    payload := [0xB0, 0xA0, 0, 0, 23, 0, 0, 0, 0, 104, 105, 0, 0, 0, 0, 0, 0, 0, 0, 0]
    payloadLen := 20 }

def greetingAck : Packet :=
  { header := 33
    payload := [0xA0, 0xB0, 0, 0, 16, 3, 120, 120, 120, 120, 0, 9, 0, 0, 0, 0, 0, 0, 0, 0]
    payloadLen := 20 }

def greetingDelivery : Delivery :=
  { contact := senderEntry
    text := ['h', 'i']
    txtType := txtTypePlain
    senderTimestamp := 7
    senderPrefix := []
    pathLen := 0
    syncSince := none
    acks := [(greetingAck, txtAckDelayMs)]
    commandResponse := false }

theorem createTextMessage_greeting :
    createTextMessage xorCrypto recipientContact [0xA0] ['h', 'i'] 0 .flood none
      txtTypePlain 7 = .ok (greeting, 0x78787878) := by
  decide +kernel

theorem readFrom_greeting : Packet.readFrom {} greeting.encode = .ok greeting := by
  decide +kernel

theorem call_greeting :
    recipientHandler.call xorCrypto (captureRecvRegion xorCrypto none greeting) 9 =
      .ok (.delivered greetingDelivery) := by
  decide +kernel

theorem text_delivery_confirmed_greeting :
    ∃ d, recipientHandler.call xorCrypto (captureRecvRegion xorCrypto none greeting) 9 =
        .ok (.delivered d) ∧ d.text = ['h', 'i'] ∧ d.acks ≠ [] ∧
      ∀ ack ∈ d.acks, receivedAckCrc xorCrypto [recipientContact] [0xA0] ack.1 =
        some 0x78787878 := by
  obtain ⟨d, hd, htext, hsome, hall⟩ := text_delivery_confirmed (h := recipientHandler)
    (p := greeting) rfl (Or.inl rfl) createTextMessage_greeting readFrom_greeting rfl
    (by decide +kernel : recipientHandler.matchContact xorCrypto greeting.payload =
      some (senderEntry, xorBytes (xorCrypto.publicKey [0xB0]) (xorCrypto.publicKey [0xA0]),
        [7, 0, 0, 0, 0, 104, 105, 0, 0, 0, 0, 0, 0, 0, 0, 0]))
    rfl (by decide) none 9
  refine ⟨d, hd, htext, hsome rfl, fun ack hack => (hall ack hack).2 _ ack.1 rfl rfl fun _ => ?_⟩
  cases hd.symm.trans call_greeting
  rw [List.mem_singleton.mp hack]
  decide +kernel

/-- The sender takes the path return for the colliding contact's and reads a code from noise. -/
theorem text_delivery_collision :
    recipientContact.publicKey = xorCrypto.publicKey recipientHandler.localIdentity ∧
    createTextMessage xorCrypto recipientContact [0xA0] ['h', 'i'] 0 .flood none
      txtTypePlain 7 = .ok (greeting, 0x78787878) ∧
    ∃ d, recipientHandler.call xorCrypto greeting 9 = .ok (.delivered d) ∧
      d.contact.publicKey = xorCrypto.publicKey [0xA0] ∧
      ∃ ack ∈ d.acks, ack.1.getPayloadType = payloadTypePath ∧
        receivedAckCrc xorCrypto [collidingContact, recipientContact] [0xA0] ack.1 =
          some 0x78787879 :=
  ⟨rfl, createTextMessage_greeting, greetingDelivery, call_greeting, rfl, _,
    List.mem_singleton.mpr rfl, by decide +kernel, by decide +kernel⟩

end OpenHop
