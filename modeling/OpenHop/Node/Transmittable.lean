import OpenHop.Node.ProtocolRequest
import OpenHop.Protocol.RequestPacket

/-! # Built packets on the air

A packet is of use if it can be written, fits a transmission and is read back with its
path. What is built for a contact is, unless the stored path is longer than the length
stored with it: the builders take over such a length, but never trim the path, and the
packet is refused when it is written.
-/

namespace OpenHop

open PathUtils

/-- The packet is written, fits a transmission and is accepted by a reader, with its path. -/
def Packet.Transmittable (p : Packet) : Prop :=
  ∃ data, p.writeTo = .ok data ∧ data.length ≤ maxTransUnit ∧
    ∀ reader : Packet, ∃ q, reader.readFrom data = .ok q ∧ q.path = p.path

theorem Packet.WellFormed.transmittable {p : Packet} (h : p.WellFormed) : p.Transmittable := by
  refine ⟨p.encode, Packet.writeTo_eq_ok.mpr ⟨h.toWritable, rfl⟩, ?_, fun reader => ?_⟩
  · rw [Packet.length_encode h.toWritable]
    exact Packet.getRawLength_le h
  · exact ⟨_, Packet.readFrom_encode reader h, rfl⟩

theorem Packet.Transmittable.path_length {p : Packet} (h : p.Transmittable) :
    p.getPathByteLen = p.path.length := by
  obtain ⟨data, hwrite, -⟩ := h
  exact (Packet.writeTo_eq_ok.mp hwrite).1.path_length

/-- With a path put on it, a packet is transmittable if the path is as long as its length says. -/
theorem Packet.WellFormed.transmittable_withPath_iff {p : Packet} (h : p.WellFormed) {path : Bytes}
    {encoded : ℕ} (hvalid : isValidPathLen encoded = true) :
    ({ p with path := path, pathLen := encoded } : Packet).Transmittable ↔
      PathUtils.getPathByteLen encoded = path.length :=
  ⟨fun ht => ht.path_length, fun hlen => (h.withPath hvalid hlen).transmittable⟩

/-- As for packets, with the path length of the draft. -/
def Draft.Transmittable (d : Draft) : Prop :=
  ∃ data, d.writeTo = .ok data ∧ data.length ≤ maxTransUnit ∧
    ∀ reader : Packet, ∃ q, reader.readFrom data = .ok q ∧ q.path = d.packet.path

theorem Draft.transmittable_natCast {p : Packet} {n : ℕ} :
    (⟨p, n⟩ : Draft).Transmittable ↔ ({ p with pathLen := n } : Packet).Transmittable := Iff.rfl

theorem Draft.not_transmittable_of_neg {d : Draft} (hneg : d.pathLen < 0)
    (hpath : d.packet.path ≠ []) : ¬ d.Transmittable := by
  rintro ⟨data, hwrite, -⟩
  have hpos : 0 < d.packet.path.length := List.length_pos_iff.mpr hpath
  have hbytes := getPathByteLenInt_nonpos hneg
  obtain ⟨packet, pathLen⟩ := d
  cases pathLen with
  | ofNat n => exact absurd hneg (by simp)
  | negSucc n =>
    unfold Draft.writeTo at hwrite
    dsimp only at hwrite hbytes hpos
    rw [if_pos (by omega)] at hwrite
    cases hwrite

/-- A stored length that is taken over although the path is longer. -/
def Overlong (path : Bytes) (pathLen : ℤ) : Prop :=
  path ≠ [] ∧ isValidPathLenInt pathLen = true ∧ getPathByteLenInt pathLen < path.length

instance (path : Bytes) (pathLen : ℤ) : Decidable (Overlong path pathLen) :=
  inferInstanceAs (Decidable (_ ∧ _ ∧ _))

theorem overlong_natCast {path : Bytes} {n : ℕ} :
    Overlong path n ↔ isValidPathLen n = true ∧ PathUtils.getPathByteLen n < path.length := by
  rw [Overlong, isValidPathLenInt_natCast, getPathByteLenInt_natCast, Nat.cast_lt]
  constructor
  · exact fun h => h.2
  · rintro ⟨hvalid, hlt⟩
    exact ⟨List.ne_nil_of_length_pos (Nat.zero_lt_of_lt hlt), hvalid, hlt⟩

theorem overlong_toNat {path : Bytes} {pathLen : ℤ} (h : 0 ≤ pathLen) :
    Overlong path pathLen ↔ isValidPathLen pathLen.toNat = true ∧
      PathUtils.getPathByteLen pathLen.toNat < path.length := by
  rw [← overlong_natCast, Int.toNat_of_nonneg h]

theorem overlong_of_neg {path : Bytes} {pathLen : ℤ} (hneg : pathLen < 0) (hne : path ≠ []) :
    Overlong path pathLen := by
  have hpos : 0 < path.length := List.length_pos_iff.mpr hne
  have hbytes := getPathByteLenInt_nonpos hneg
  exact ⟨hne, isValidPathLenInt_of_neg hneg, by omega⟩

theorem setPath_short (pkt : Packet) {path : Bytes} (hlen : path.length ≤ 63) :
    pkt.setPath path = .ok { pkt with path := path, pathLen := path.length } ∧
      isValidPathLen path.length = true ∧
      PathUtils.getPathByteLen path.length = path.length := by
  have hpack : 64 * (1 - 1) + path.length = path.length := by omega
  have hbytes := getPathByteLen_pack Nat.one_pos hlen
  have hvalid := isValidPathLen_pack Nat.one_pos hlen
  rw [hpack] at hbytes hvalid
  refine ⟨?_, hvalid.mpr ⟨by decide, ?_⟩, ?_⟩
  · unfold Packet.setPath
    dsimp only
    rw [if_neg (by omega), encodePathLen_of_le hlen, hpack]
    rfl
  · exact (Nat.mul_one _).le.trans (hlen.trans (by decide))
  · rw [hbytes, Nat.mul_one]

theorem setPath_cut {pkt p : Packet} {path : Bytes} (hlen : path.length ≤ maxPathSize)
    (h : (if path.length = 64 then pkt.setPath (path.take 63) else pkt.setPath path) = .ok p) :
    ∃ path' encoded, p = { pkt with path := path', pathLen := encoded } ∧
      isValidPathLen encoded = true ∧ PathUtils.getPathByteLen encoded = path'.length := by
  split at h
  · obtain ⟨hset, hfits⟩ := setPath_short pkt (List.length_take_le 63 path)
    cases hset.symm.trans h
    exact ⟨_, _, rfl, hfits⟩
  · rename_i hne
    have hshort : path.length ≤ 63 := Nat.le_of_lt_succ (lt_of_le_of_ne hlen hne)
    obtain ⟨hset, hfits⟩ := setPath_short pkt hshort
    cases hset.symm.trans h
    exact ⟨_, _, rfl, hfits⟩

namespace PacketBuilder

theorem setRoutingPath_cases {pkt p : Packet} {contact : Contact} {stored : Bool} {path : Bytes}
    (hlen : path.length ≤ maxPathSize) (h : setRoutingPath pkt contact stored path = .ok p) :
    ∃ path' encoded, p = { pkt with path := path', pathLen := encoded } ∧
      isValidPathLen encoded = true ∧
      (PathUtils.getPathByteLen encoded = path'.length ↔
        ¬ (stored = true ∧ 0 ≤ contact.outPathLen ∧ Overlong path contact.outPathLen)) := by
  unfold setRoutingPath at h
  split at h
  · rename_i hempty
    cases h
    refine ⟨[], 0, rfl, by decide, iff_of_true (by decide) ?_⟩
    rintro ⟨-, hpos, hover⟩
    rw [overlong_toNat hpos, hempty] at hover
    exact Nat.not_lt_zero _ hover.2
  rw [List.take_of_length_le hlen] at h
  dsimp only at h
  split at h
  · rename_i htaken
    obtain ⟨hstored, hpos, hvalid, hle⟩ := htaken
    cases h
    refine ⟨path, contact.outPathLen.toNat, rfl, hvalid, ?_⟩
    rw [overlong_toNat hpos]
    simp only [hstored, hpos, hvalid, true_and, not_lt]
    exact ⟨fun heq => heq.ge, fun hge => le_antisymm hle hge⟩
  · rename_i htaken
    have hnot : ¬ (stored = true ∧ 0 ≤ contact.outPathLen ∧
        Overlong path contact.outPathLen) := by
      rintro ⟨hstored, hpos, hover⟩
      rw [overlong_toNat hpos] at hover
      exact htaken ⟨hstored, hpos, hover.1, hover.2.le⟩
    obtain ⟨path', encoded, hp, hvalid, hbytes⟩ := setPath_cut hlen h
    exact ⟨path', encoded, hp, hvalid, iff_of_true hbytes hnot⟩

theorem setRequestPath_iff {pkt : Packet} {d : Draft} {contact : Contact} (hpkt : pkt.WellFormed)
    (hlen : contact.outPath.length ≤ maxPathSize) (hne : contact.outPath ≠ [])
    (h : setRequestPath pkt contact = .ok d) :
    d.Transmittable ↔ ¬ Overlong contact.outPath contact.outPathLen := by
  unfold setRequestPath at h
  rw [List.take_of_length_le hlen] at h
  dsimp only at h
  split at h
  · rename_i htaken
    obtain ⟨hvalid, hle⟩ := htaken
    cases h
    obtain ⟨n, hn⟩ | hneg : (∃ n : ℕ, contact.outPathLen = n) ∨ contact.outPathLen < 0 := by
      rcases le_or_gt 0 contact.outPathLen with hnat | hneg
      · exact .inl (Int.eq_ofNat_of_zero_le hnat)
      · exact .inr hneg
    · rw [hn] at hvalid hle ⊢
      rw [isValidPathLenInt_natCast] at hvalid
      rw [getPathByteLenInt_natCast, Nat.cast_le] at hle
      rw [Draft.transmittable_natCast, overlong_natCast]
      simp only [hvalid, true_and, not_lt]
      refine (hpkt.transmittable_withPath_iff hvalid).trans ?_
      exact ⟨fun heq => heq.ge, fun hge => le_antisymm hle hge⟩
    · exact iff_of_false (Draft.not_transmittable_of_neg hneg hne)
        (not_not.mpr (overlong_of_neg hneg hne))
  · rename_i htaken
    have hnot : ¬ Overlong contact.outPath contact.outPathLen :=
      fun hover => htaken ⟨hover.2.1, hover.2.2.le⟩
    obtain ⟨p, hp, rfl⟩ := map_eq_ok.mp h
    obtain ⟨path', encoded, rfl, hvalid, hbytes⟩ := setPath_cut hlen hp
    exact iff_of_true (hpkt.withPath hvalid hbytes).transmittable hnot

variable {Seed : Type} {c : Crypto Seed} {contact : Contact} {localIdentity : Seed}

theorem validatePathItem_byte (index : ℕ) (b : UInt8) :
    validatePathItem index (.int b.toNat) = .ok b := by
  have hlt := b.toNat_lt
  unfold validatePathItem
  dsimp only
  rw [if_pos (by omega), Int.toNat_natCast, UInt8.ofNat_toNat]

theorem validateRoutingPath_stored {path : Bytes} (hlen : path.length ≤ maxPathSize) :
    validateRoutingPath (path.map fun b => .int b.toNat) = .ok path := by
  have hitems (start : ℕ) : ((path.map fun b => PathItem.int b.toNat).zipIdx start).mapM
      (fun x => validatePathItem x.2 x.1) = .ok path := by
    clear hlen
    induction path generalizing start with
    | nil => rfl
    | cons b path ih =>
      rw [List.map_cons, List.zipIdx_cons, List.mapM_cons]
      dsimp only
      rw [validatePathItem_byte, ok_bind, ih (start + 1), ok_bind, pure_eq_ok]
  unfold validateRoutingPath
  rw [if_neg (by simpa using hlen)]
  exact hitems 0

theorem length_of_validateRoutingPath {items : List PathItem} {path : Bytes}
    (h : validateRoutingPath items = .ok path) : path.length ≤ maxPathSize := by
  obtain ⟨hshort, hitems⟩ := ite_error_eq_ok.mp h
  rw [length_of_mapM_eq_ok hitems, List.length_zipIdx]
  exact not_lt.mp hshort

theorem checkTextLen_ok {txtType attempt textLen : ℕ} {u : Unit}
    (h : checkTextLen txtType attempt textLen = .ok u) :
    textLen + (textTail txtType attempt).length ≤ maxTextLen := by
  obtain ⟨hlen, h⟩ := ite_error_eq_ok.mp h
  obtain ⟨hext, -⟩ := ite_error_eq_ok.mp h
  unfold textTail
  split
  · rename_i htail
    have hroom : ¬ textLen > maxTextLen - 2 := fun hlong => hext ⟨htail.2, htail.1, hlong⟩
    simp only [maxTextLen, cipherBlockSize] at hroom ⊢
    show textLen + 2 ≤ _
    omega
  · exact not_lt.mp hlen

theorem length_authorOf_le (localIdentity : Seed) (txtType : ℕ) :
    (authorOf c localIdentity txtType).length ≤ 4 := by
  unfold authorOf
  split
  · exact List.length_take_le 4 _
  · exact Nat.zero_le 4

/-- A text message is its payload, which has room in a packet, under the checked routing path. -/
theorem createTextMessage_built {message : List Char} {attempt txtType timestamp : ℕ}
    {messageType : RouteName} {outPath : Option (List PathItem)} {pkt : Packet} {ackCrc : ℕ}
    (h : createTextMessage c contact localIdentity message attempt messageType outPath txtType
      timestamp = .ok (pkt, ackCrc)) :
    ∃ routingPath p, validateRoutingPath
        (outPath.getD (contact.outPath.map fun b => .int b.toNat)) = .ok routingPath ∧
      setRoutingPath
        { header := createHeader payloadTypeTxtMsg messageType (!routingPath.isEmpty) } contact
        outPath.isNone routingPath = .ok p ∧
      pkt = { p with payload := pkt.payload, payloadLen := pkt.payload.length } ∧
      pkt.payload.length ≤ maxPacketPayload := by
  obtain ⟨_, secret, dest, src, rfl, -, -, -, hpayload, -⟩ := createTextMessage_ok h
  simp only [createTextMessage, bind_eq_ok, pure_eq_ok, Except.ok.injEq, Prod.mk.injEq] at h
  obtain ⟨_, hcheck, _, -, payload, -, _, -, routingPath, hroute, p, hp, rfl, -⟩ := h
  refine ⟨routingPath, p, hroute, hp, rfl, ?_⟩
  have htext := checkTextLen_ok hcheck
  have hauthor := length_authorOf_le (c := c) localIdentity (txtType &&& 0x3F)
  simp only [maxTextLen, cipherBlockSize] at htext
  rw [hpayload, List.length_cons, List.length_cons, c.length_encryptThenMac,
    length_ackSpan_append, List.length_append]
  simp only [cipherMacSize, cipherBlockSize, maxPacketPayload]
  omega

theorem createTextMessage_transmittable_iff (hlen : contact.outPath.length ≤ maxPathSize)
    {message : List Char} {attempt txtType timestamp : ℕ} {messageType : RouteName}
    {outPath : Option (List PathItem)} {pkt : Packet} {ackCrc : ℕ}
    (h : createTextMessage c contact localIdentity message attempt messageType outPath txtType
      timestamp = .ok (pkt, ackCrc)) :
    pkt.Transmittable ↔ ¬ (outPath = none ∧ 0 ≤ contact.outPathLen ∧
      Overlong contact.outPath contact.outPathLen) := by
  obtain ⟨routingPath, p, hroute, hp, hpkt, hsize⟩ := createTextMessage_built h
  obtain ⟨path', encoded, rfl, hvalid, hfits⟩ :=
    setRoutingPath_cases (length_of_validateRoutingPath hroute) hp
  have hbase : ({
      header := createHeader payloadTypeTxtMsg messageType (!routingPath.isEmpty)
      payload := pkt.payload
      payloadLen := pkt.payload.length } : Packet).WellFormed := by
    obtain ⟨q, hq, -, -, hwell⟩ := createPacket_spec payloadTypeTxtMsg (by decide) messageType
      (!routingPath.isEmpty) hsize
    exact (createPacket_ok hq).2 ▸ hwell
  rw [hpkt]
  refine (hbase.transmittable_withPath_iff hvalid).trans (hfits.trans ?_)
  cases outPath with
  | none =>
    cases (validateRoutingPath_stored hlen).symm.trans hroute
    simp
  | some items => simp

theorem transmittable_request_iff {packet : Packet} (hpacket : packet.WellFormed)
    (hlen : contact.outPath.length ≤ maxPathSize) {route : RouteName} {timestamp tag : ℕ}
    {d : Draft}
    (h : (if route = .direct ∧ contact.outPath ≠ [] then do
        let draft ← setRequestPath packet contact
        return (draft, timestamp)
      else return (Draft.ofPacket packet, timestamp)) = Except.ok (d, tag)) :
    d.Transmittable ↔
      ¬ (route = .direct ∧ Overlong contact.outPath contact.outPathLen) := by
  split at h
  · rename_i hdirect
    obtain ⟨draft, hdraft, h⟩ := bind_eq_ok.mp h
    cases h
    rw [setRequestPath_iff hpacket hlen hdirect.2 hdraft]
    simp [hdirect.1]
  · rename_i hnot
    cases h
    refine iff_of_true hpacket.transmittable ?_
    exact fun hover => hnot ⟨hover.1, hover.2.1⟩

theorem createProtocolRequest_transmittable_iff (hlen : contact.outPath.length ≤ maxPathSize)
    {protocolCode timestamp tag : ℕ} {data : Bytes} {routeType : Option RouteName} {d : Draft}
    (h : createProtocolRequest c contact localIdentity protocolCode data timestamp routeType =
      .ok (d, tag)) :
    d.Transmittable ↔ ¬ (routeType.getD (routeTo contact) = .direct ∧
      Overlong contact.outPath contact.outPathLen) := by
  unfold createProtocolRequest at h
  obtain ⟨plaintext, -, h⟩ := bind_eq_ok.mp h
  obtain ⟨payload, -, h⟩ := bind_eq_ok.mp h
  obtain ⟨packet, hpacket, h⟩ := bind_eq_ok.mp h
  exact transmittable_request_iff (createPacket_wellFormed (by decide) hpacket) hlen h

theorem createAnonRequest_transmittable_iff (hlen : contact.outPath.length ≤ maxPathSize)
    {timestamp tag : ℕ} {reqData : Bytes} {d : Draft}
    (h : createAnonRequest c contact localIdentity reqData timestamp = .ok (d, tag)) :
    d.Transmittable ↔ ¬ (0 ≤ contact.outPathLen ∧
      Overlong contact.outPath contact.outPathLen) := by
  unfold createAnonRequest at h
  obtain ⟨plaintext, -, h⟩ := bind_eq_ok.mp h
  obtain ⟨⟨sharedSecret, aesKey⟩, -, h⟩ := bind_eq_ok.mp h
  obtain ⟨destHash, -, h⟩ := bind_eq_ok.mp h
  obtain ⟨packet, hpacket, h⟩ := bind_eq_ok.mp h
  have hroute : routeTo contact = .direct ↔ 0 ≤ contact.outPathLen := by
    unfold routeTo
    split <;> simp_all
  rw [transmittable_request_iff (createPacket_wellFormed (by decide) hpacket) hlen h, hroute]

theorem createLoginPacket_transmittable_iff (hlen : contact.outPath.length ≤ maxPathSize)
    {password : List Char} {timestamp : ℕ} {pkt : Packet}
    (h : createLoginPacket c contact localIdentity password timestamp = .ok pkt) :
    pkt.Transmittable ↔ ¬ (0 < contact.outPathLen ∧
      Overlong contact.outPath contact.outPathLen) := by
  unfold createLoginPacket at h
  obtain ⟨plaintext, -, h⟩ := bind_eq_ok.mp h
  obtain ⟨⟨sharedSecret, aesKey⟩, -, h⟩ := bind_eq_ok.mp h
  obtain ⟨packet, hpacket, h⟩ := bind_eq_ok.mp h
  unfold createAnonReq at hpacket
  obtain ⟨destHash, -, hpacket⟩ := bind_eq_ok.mp hpacket
  have hwell := createPacket_wellFormed (by decide) hpacket
  split at h
  · rename_i hpath
    obtain ⟨path', encoded, rfl, hvalid, hfits⟩ := setRoutingPath_cases hlen h
    rw [hwell.transmittable_withPath_iff hvalid, hfits]
    simp [hpath.1, hpath.1.le]
  · rename_i hnot
    cases h
    refine iff_of_true hwell.transmittable ?_
    exact fun hover => hnot ⟨hover.1, hover.2.1⟩

theorem createPathReturn_wellFormed {destHash srcHash : UInt8} {secret path extra noise : Bytes}
    {extraType : ℕ} {pathLenEncoded : Option ℕ} {p : Packet}
    (h : createPathReturn c destHash srcHash secret path extraType extra pathLenEncoded noise =
      .ok p) : p.WellFormed := by
  unfold createPathReturn at h
  dsimp only at h
  split at h
  · cases h
  obtain ⟨lenByte, -, h⟩ := bind_eq_ok.mp h
  obtain ⟨firstByte, -, h⟩ := bind_eq_ok.mp h
  split at h
  · obtain ⟨extraTypeByte, -, h⟩ := bind_eq_ok.mp h
    exact createPacket_wellFormed (by decide) h
  · exact createPacket_wellFormed (by decide) h

theorem createDatagram_wellFormed {destKey secret plaintext : Bytes} {route : RouteName}
    {p : Packet} (h : createDatagram c payloadTypeResponse destKey localIdentity secret plaintext
      route = .ok p) : p.WellFormed := by
  unfold createDatagram at h
  obtain ⟨destHash, -, h⟩ := bind_eq_ok.mp h
  obtain ⟨srcHash, -, h⟩ := bind_eq_ok.mp h
  exact createPacket_wellFormed (by decide) h

end PacketBuilder

open PacketBuilder

variable {Seed : Type} {c : Crypto Seed} {contact : Contact}

theorem floodReply_wellFormed {reply request p : Packet} {mode : ℕ} (hreply : reply.WellFormed)
    (h : (do
      let reply ← reply.applyPathHashMode mode true
      TextMessageHandler.scopedReply c reply request) = .ok p) : p.WellFormed := by
  obtain ⟨marked, hmarked, h⟩ := bind_eq_ok.mp h
  have hwell := (Packet.applyPathHashMode_wellFormed hreply hmarked).1
  unfold TextMessageHandler.scopedReply at h
  split at h
  · rename_i hscope
    cases h
    exact applyReplyScope_wellFormed hwell hscope
  · cases h

theorem ProtocolRequestHandler.buildResponse_transmittable_iff
    (hlen : contact.outPath.length ≤ maxPathSize) {handler : ProtocolRequestHandler Seed}
    {packet : Packet} {responseData sharedSecret : Bytes} {p : Packet}
    (h : handler.buildResponse c packet contact responseData sharedSecret = .ok p) :
    p.Transmittable ↔ ¬ (packet.isRouteFlood = false ∧ 0 ≤ contact.outPathLen ∧
      isValidPathLen contact.outPathLen.toNat = true ∧
      PathUtils.getPathByteLen contact.outPathLen.toNat ≠ contact.outPath.length) := by
  unfold ProtocolRequestHandler.buildResponse at h
  obtain ⟨clientHash, -, h⟩ := bind_eq_ok.mp h
  obtain ⟨ourHash, -, h⟩ := bind_eq_ok.mp h
  split at h
  · rename_i hflood
    obtain ⟨reply, hreply, h⟩ := bind_eq_ok.mp h
    refine iff_of_true ?_ (by simp [hflood])
    exact (floodReply_wellFormed (createPathReturn_wellFormed hreply) h).transmittable
  rename_i hflood
  split at h
  · rename_i hknown
    obtain ⟨reply, hreply, h⟩ := bind_eq_ok.mp h
    rw [List.take_of_length_le hlen] at h
    cases h
    rw [(createDatagram_wellFormed hreply).transmittable_withPath_iff hknown.2]
    simp [hflood, hknown]
  · rename_i hunknown
    obtain ⟨reply, hreply, h⟩ := bind_eq_ok.mp h
    refine iff_of_true ?_ fun hbad => hunknown ⟨hbad.2.1, hbad.2.2.1⟩
    exact (floodReply_wellFormed (createDatagram_wellFormed hreply) h).transmittable

/-- When the packets that are built for a contact are transmittable. -/
structure TransmittableWhen (c : Crypto Seed) (contact : Contact) (localIdentity : Seed) :
    Prop where
  text {message attempt messageType outPath txtType timestamp pkt ackCrc} :
    createTextMessage c contact localIdentity message attempt messageType outPath txtType
        timestamp = .ok (pkt, ackCrc) →
      (pkt.Transmittable ↔ ¬ (outPath = none ∧ 0 ≤ contact.outPathLen ∧
        Overlong contact.outPath contact.outPathLen))
  request {protocolCode data timestamp routeType d tag} :
    createProtocolRequest c contact localIdentity protocolCode data timestamp routeType =
        .ok (d, tag) →
      (d.Transmittable ↔ ¬ (routeType.getD (routeTo contact) = .direct ∧
        Overlong contact.outPath contact.outPathLen))
  anonRequest {reqData timestamp d tag} :
    createAnonRequest c contact localIdentity reqData timestamp = .ok (d, tag) →
      (d.Transmittable ↔ ¬ (0 ≤ contact.outPathLen ∧
        Overlong contact.outPath contact.outPathLen))
  login {password timestamp pkt} :
    createLoginPacket c contact localIdentity password timestamp = .ok pkt →
      (pkt.Transmittable ↔ ¬ (0 < contact.outPathLen ∧
        Overlong contact.outPath contact.outPathLen))
  response {handler : ProtocolRequestHandler Seed} {packet responseData sharedSecret p} :
    handler.buildResponse c packet contact responseData sharedSecret = .ok p →
      (p.Transmittable ↔ ¬ (packet.isRouteFlood = false ∧ 0 ≤ contact.outPathLen ∧
        isValidPathLen contact.outPathLen.toNat = true ∧
        PathUtils.getPathByteLen contact.outPathLen.toNat ≠ contact.outPath.length))

/-- What is built for a contact can be transmitted unless the stored path is longer than the
length that is taken over with it. -/
theorem transmittableWhen (contact : Contact) (localIdentity : Seed)
    (hlen : contact.outPath.length ≤ maxPathSize) :
    TransmittableWhen c contact localIdentity where
  text := createTextMessage_transmittable_iff hlen
  request := createProtocolRequest_transmittable_iff hlen
  anonRequest := createAnonRequest_transmittable_iff hlen
  login := createLoginPacket_transmittable_iff hlen
  response := ProtocolRequestHandler.buildResponse_transmittable_iff hlen

/-- A contact one hop away, whose path has one byte more than the stored length says. -/
def overlongContact : Contact where
  publicKey := xorCrypto.publicKey [0xB0]
  outPathLen := 1
  outPath := [1, 2]

/-- With the length of a two-byte hash the path fits. -/
theorem transmittableWhen_twoByteHop :
    ∃ pkt ackCrc, createTextMessage xorCrypto { overlongContact with outPathLen := 0x41 } [0xA0]
        "hi".toList 0 .direct none 0 0 = .ok (pkt, ackCrc) ∧ pkt.Transmittable := by
  have hbuilt : (createTextMessage xorCrypto { overlongContact with outPathLen := 0x41 } [0xA0]
      "hi".toList 0 .direct none 0 0).isOk = true := by decide +kernel
  obtain ⟨⟨pkt, ackCrc⟩, h⟩ := exists_of_isOk hbuilt
  refine ⟨pkt, ackCrc, h, ((transmittableWhen _ _ (by decide)).text h).mpr ?_⟩
  decide +kernel

theorem not_transmittable_overlong :
    ∃ pkt ackCrc, createTextMessage xorCrypto overlongContact [0xA0] "hi".toList 0 .direct none
        0 0 = .ok (pkt, ackCrc) ∧ ¬ pkt.Transmittable := by
  have hbuilt : (createTextMessage xorCrypto overlongContact [0xA0] "hi".toList 0 .direct none
      0 0).isOk = true := by decide +kernel
  obtain ⟨⟨pkt, ackCrc⟩, h⟩ := exists_of_isOk hbuilt
  refine ⟨pkt, ackCrc, h, fun ht => ?_⟩
  exact (createTextMessage_transmittable_iff (by decide) h).mp ht (by decide +kernel)

end OpenHop
