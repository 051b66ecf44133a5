import OpenHop.Node.Transmittable

/-! # Replies to anonymous discovery requests

Anyone may ask a repeater for its regions, its owner or its features, and names the path of
the reply in the request: a byte with a hash width and a count, and the hashes behind it.
-/

namespace OpenHop

open PathUtils

/-- The packet is written, and what is written is accepted by a reader. -/
def Packet.Accepted (p : Packet) : Prop :=
  ∃ data, p.writeTo = .ok data ∧ ∃ q, Packet.readFrom {} data = .ok q

theorem Packet.pathLen_of_encode_eq {p q : Packet} (hp : p.Writable) (hq : q.Writable)
    (h : q.encode = p.encode) : q.header = p.header ∧ q.pathLen = p.pathLen := by
  obtain ⟨hheader, hrest⟩ := List.cons.inj h
  have hsame : q.header = p.header := by
    have hnat := congrArg UInt8.toNat hheader
    rwa [Bytes.toNat_ofNat_of_lt hq.header_lt, Bytes.toNat_ofNat_of_lt hp.header_lt] at hnat
  have hcodes : q.hasTransportCodes = p.hasTransportCodes := by
    simp only [Packet.hasTransportCodes, Packet.getRouteType, hsame]
  have hlen : q.codeBytes.length = p.codeBytes.length := by
    rw [Packet.length_codeBytes, Packet.length_codeBytes, hcodes]
  obtain ⟨hbyte, -⟩ := List.cons.inj (List.append_inj hrest hlen).2
  have hnat := congrArg UInt8.toNat hbyte
  rw [Bytes.toNat_ofNat_of_lt hq.pathLen_lt, Bytes.toNat_ofNat_of_lt hp.pathLen_lt] at hnat
  exact ⟨hsame, hnat⟩

theorem Packet.Accepted.writable {p : Packet} (h : p.Accepted) : p.Writable := by
  obtain ⟨data, hwrite, -⟩ := h
  exact (Packet.writeTo_eq_ok.mp hwrite).1

theorem Packet.Accepted.valid {p : Packet} (h : p.Accepted) : isValidPathLen p.pathLen = true := by
  obtain ⟨data, hwrite, q, hread⟩ := h
  obtain ⟨hp, rfl⟩ := Packet.writeTo_eq_ok.mp hwrite
  obtain ⟨hq, hencode, -⟩ := Packet.readFrom_sound hread
  rw [← (Packet.pathLen_of_encode_eq hp hq.toWritable hencode).2]
  exact hq.valid

theorem Packet.WellFormed.accepted {p : Packet} (h : p.WellFormed) : p.Accepted :=
  ⟨p.encode, Packet.writeTo_eq_ok.mpr ⟨h.toWritable, rfl⟩, _, Packet.readFrom_encode {} h⟩

/-- With a path put on it, a packet is accepted if the length byte is valid and says how long the
path is. -/
theorem Packet.WellFormed.accepted_withPath_iff {p : Packet} (h : p.WellFormed) (path : Bytes)
    (encoded : ℕ) :
    ({ p with path := path, pathLen := encoded } : Packet).Accepted ↔
      isValidPathLen encoded = true ∧ PathUtils.getPathByteLen encoded = path.length := by
  constructor
  · intro hacc
    exact ⟨hacc.valid, hacc.writable.path_length⟩
  · rintro ⟨hvalid, hlen⟩
    exact (h.withPath hvalid hlen).accepted

theorem applyReplyScope_of_ne_flood {Seed : Type} {c : Crypto Seed} {reply request p : Packet}
    (hroute : reply.getRouteType ≠ routeTypeFlood) (h : applyReplyScope c reply request = some p) :
    ∃ mark, p = { reply with floodScopeApplied := mark } := by
  unfold applyReplyScope at h
  split at h
  · cases h
    exact ⟨_, rfl⟩
  split at h
  · cases h
    exact ⟨_, rfl⟩
  split at h
  · cases h
    exact ⟨_, rfl⟩
  · cases h
    exact ⟨_, rfl⟩

/-- The packet a discovery request is answered with. -/
def AnonOutcome.reply : AnonOutcome → Option Packet
  | .discovery _ response => response
  | _ => none

namespace AnonRequestHandler

def replyPathByte (plaintext : Bytes) : ℕ := (plaintext.getD 5 0).toNat

/-- The request asks for no path, has nothing of it, or has a valid one in full. -/
def ReplyPathFits (plaintext : Bytes) : Prop :=
  getPathHashCount (replyPathByte plaintext) = 0 ∨ plaintext.length ≤ 6 ∨
    isValidPathLen (replyPathByte plaintext) = true ∧
      getPathByteLen (replyPathByte plaintext) + 6 ≤ plaintext.length

instance (plaintext : Bytes) : Decidable (ReplyPathFits plaintext) :=
  inferInstanceAs (Decidable (_ ∨ _ ∨ _ ∧ _))

theorem hashCount_eq (b : ℕ) : b &&& 0x3F = getPathHashCount b := rfl

theorem hashSize_eq (b : ℕ) : (b >>> 6) + 1 = getPathHashSize b := rfl

theorem encodePathLen_hashes (b : ℕ) :
    encodePathLen (getPathHashSize b) (getPathHashCount b) = .ok b := by
  have hcount := getPathHashCount_lt b
  rw [encodePathLen_of_le (Nat.le_of_lt_succ hcount), getPathHashSize_eq, getPathHashCount_eq]
  congr 1
  omega

variable {Seed : Type} {c : Crypto Seed} {handler : AnonRequestHandler Seed} {packet p : Packet}
  {clientPubkey sharedSecret plaintext : Bytes} {kind : Discovery} {clock : ℕ}

/-- The path bytes of the request, as many as the byte asks for if they are there. -/
def replyPath (plaintext : Bytes) : Bytes :=
  (plaintext.drop 6).take (getPathByteLen (replyPathByte plaintext))

theorem createDatagram_direct {destKey secret text : Bytes} {localIdentity : Seed} {pkt : Packet}
    (h : PacketBuilder.createDatagram c payloadTypeResponse destKey localIdentity secret text =
      .ok pkt) : pkt.getRouteType ≠ routeTypeFlood := by
  unfold PacketBuilder.createDatagram at h
  obtain ⟨destHash, -, h⟩ := bind_eq_ok.mp h
  obtain ⟨srcHash, -, h⟩ := bind_eq_ok.mp h
  rw [(PacketBuilder.createPacket_ok h).2]
  have hroute : PacketBuilder.createHeader payloadTypeResponse &&& phRouteMask ≠
      routeTypeFlood := by decide
  exact hroute

theorem scopedReply_of_ne_flood {reply request : Packet}
    (hroute : reply.getRouteType ≠ routeTypeFlood)
    (h : TextMessageHandler.scopedReply c reply request = .ok p) :
    ∃ mark, p = { reply with floodScopeApplied := mark } := by
  unfold TextMessageHandler.scopedReply at h
  split at h
  · rename_i hscope
    cases h
    exact applyReplyScope_of_ne_flood hroute hscope
  · cases h

/-- The reply has no path, or the byte of the request with what the request has of the path. -/
theorem handleDiscovery_direct (hdirect : packet.isRouteFlood = false)
    (h : handler.handleDiscovery c packet clientPubkey sharedSecret kind plaintext clock = .ok p) :
    ∃ (pkt : Packet) (mark : Bool), pkt.WellFormed ∧
      if 0 < getPathHashCount (replyPathByte plaintext) ∧ replyPath plaintext ≠ [] then
        p = { pkt with
          path := replyPath plaintext
          pathLen := replyPathByte plaintext
          floodScopeApplied := mark }
      else p = { pkt with floodScopeApplied := mark } := by
  unfold handleDiscovery at h
  dsimp only at h
  rw [if_neg (by simp [hdirect])] at h
  obtain ⟨pkt, hpkt, h⟩ := bind_eq_ok.mp h
  have hwell := PacketBuilder.createDatagram_wellFormed hpkt
  have hroute := createDatagram_direct hpkt
  rw [hashCount_eq, hashSize_eq, ← getPathByteLen_eq] at h
  change (if 0 < getPathHashCount (replyPathByte plaintext) ∧ replyPath plaintext ≠ [] then _
    else _) = _ at h
  split at h
  · rename_i hpath
    change (encodePathLen (getPathHashSize (replyPathByte plaintext))
      (getPathHashCount (replyPathByte plaintext)) >>= _) = _ at h
    rw [encodePathLen_hashes, ok_bind] at h
    have hrouted : Packet.getRouteType
        { pkt with path := replyPath plaintext, pathLen := replyPathByte plaintext } ≠
        routeTypeFlood := hroute
    obtain ⟨mark, rfl⟩ := scopedReply_of_ne_flood hrouted h
    exact ⟨pkt, mark, hwell, (if_pos hpath).mpr rfl⟩
  · rename_i hpath
    obtain ⟨mark, rfl⟩ := scopedReply_of_ne_flood hroute h
    exact ⟨pkt, mark, hwell, (if_neg hpath).mpr rfl⟩

theorem replyPath_eq_nil_iff : replyPath plaintext = [] ↔
    getPathHashCount (replyPathByte plaintext) = 0 ∨ plaintext.length ≤ 6 := by
  have hsize := getPathHashSize_pos (replyPathByte plaintext)
  rw [replyPath, getPathByteLen_eq, List.take_eq_nil_iff, List.drop_eq_nil_iff, Nat.mul_eq_zero]
  constructor
  · rintro ((hcount | hzero) | hshort)
    · exact .inl hcount
    · omega
    · exact .inr hshort
  · rintro (hcount | hshort)
    · exact .inl (.inl hcount)
    · exact .inr hshort

theorem handleDiscovery_accepted_iff (hdirect : packet.isRouteFlood = false)
    (h : handler.handleDiscovery c packet clientPubkey sharedSecret kind plaintext clock = .ok p) :
    p.Accepted ↔ ReplyPathFits plaintext := by
  obtain ⟨pkt, mark, hwell, hp⟩ := handleDiscovery_direct hdirect h
  unfold ReplyPathFits
  rw [← or_assoc, ← replyPath_eq_nil_iff]
  split at hp
  · rename_i hpath
    subst hp
    refine (hwell.accepted_withPath_iff (replyPath plaintext) (replyPathByte plaintext)).trans ?_
    rw [or_iff_right hpath.2]
    refine and_congr_right fun _ => ?_
    have hlong : ¬ plaintext.length ≤ 6 := fun hshort =>
      hpath.2 (replyPath_eq_nil_iff.mpr (.inr hshort))
    rw [replyPath, List.length_take, List.length_drop]
    omega
  · rename_i hpath
    subst hp
    refine iff_of_true hwell.accepted ?_
    by_cases hnil : replyPath plaintext = []
    · exact .inl hnil
    · have hcount : getPathHashCount (replyPathByte plaintext) = 0 := by
        by_contra hpos
        exact hpath ⟨Nat.pos_of_ne_zero hpos, hnil⟩
      exact .inl (replyPath_eq_nil_iff.mpr (.inl hcount))

theorem call_reply {now : ℚ} {random : Bytes}
    (h : (handler.call c packet now clock random).2.reply = some p) :
    ∃ clientPubkey sharedSecret plaintext kind,
      openAnonRequest c handler.localIdentity packet.payload =
        some (clientPubkey, sharedSecret, plaintext) ∧
      packet.isRouteDirect = true ∧ (handler.anonLimiter.allow now).1 = true ∧
      handler.handleDiscovery c packet clientPubkey sharedSecret kind plaintext clock = .ok p := by
  unfold call at h
  split at h
  · cases h
  rename_i clientPubkey sharedSecret plaintext hopen
  dsimp only at h
  split at h
  · cases h
  split at h
  · cases h
  split at h
  · cases h
  split at h
  · cases h
  rename_i kind _
  split at h
  · cases h
  rename_i hdirect
  split at h
  · rename_i hallowed
    exact ⟨clientPubkey, sharedSecret, plaintext, kind, hopen, by simpa using hdirect, hallowed,
      toOption_eq_some.mp h⟩
  · cases h

theorem isRouteFlood_of_direct (h : packet.isRouteDirect = true) : packet.isRouteFlood = false := by
  simp only [Packet.isRouteDirect, Packet.isRouteFlood, Bool.or_eq_true, Bool.or_eq_false_iff,
    beq_iff_eq, beq_eq_false_iff_ne] at h ⊢
  rcases h with h | h <;> rw [h] <;> decide

/-- A reply to a discovery request is written, accepted by a reader and has as many path bytes
as it says, exactly if the request has the path it asks for. -/
theorem discovery_accepted_iff {now : ℚ} {random : Bytes}
    (hopen : openAnonRequest c handler.localIdentity packet.payload =
      some (clientPubkey, sharedSecret, plaintext))
    (h : (handler.call c packet now clock random).2.reply = some p) :
    p.Accepted ∧ p.getPathByteLen = p.path.length ↔ ReplyPathFits plaintext := by
  obtain ⟨key, secret, text, kind, hopened, hdirect, -, hreply⟩ := call_reply h
  cases hopened.symm.trans hopen
  rw [← handleDiscovery_accepted_iff (isRouteFlood_of_direct hdirect) hreply]
  exact and_iff_left_of_imp fun hacc => hacc.writable.path_length

def regionServer : AnonRequestHandler Bytes where
  localIdentity := [0xB0]
  loginHandler := { localIdentity := [0xB0], authenticate := fun _ => (false, 0) }
  info := { regionNames := "*,eu".toList }

/-- A request for the regions, with the given bytes for the path of the reply. -/
def regionRequest (path : Bytes) : Packet :=
  match PacketBuilder.createAnonRequest xorCrypto
      { publicKey := xorCrypto.publicKey [0xB0], outPathLen := 0 } [0xA0] (0x01 :: path) 7 with
  | .ok (draft, _) => draft.packet
  | .error _ => {}

/-- What the repeater makes of a request that asks for a path with the given bytes. -/
def regionReply (path : Bytes) : Option Packet :=
  (regionServer.call xorCrypto (regionRequest path) 1000 7 []).2.reply

/-- One hop of two bytes. -/
theorem discovery_accepted_twoByteHop : ∃ p, regionReply [0x41, 5, 6] = some p ∧
    p.Accepted ∧ p.getPathByteLen = p.path.length := by
  have hopen : openAnonRequest xorCrypto regionServer.localIdentity
      (regionRequest [0x41, 5, 6]).payload =
      some (xorCrypto.publicKey [0xA0], 16 :: List.replicate 31 0,
        [7, 0, 0, 0, 1, 0x41, 5, 6] ++ List.replicate 8 0) := by decide +kernel
  have hsent : (regionReply [0x41, 5, 6]).isSome = true := by decide +kernel
  obtain ⟨p, hp⟩ := Option.isSome_iff_exists.mp hsent
  exact ⟨p, hp, (discovery_accepted_iff hopen hp).mpr (by decide)⟩

/-- More hops than the request has room for. -/
theorem not_accepted_truncated : ∃ p, regionReply [63, 5, 6] = some p ∧
    ¬ (p.Accepted ∧ p.getPathByteLen = p.path.length) := by
  have hsent : (regionReply [63, 5, 6]).isSome = true := by decide +kernel
  obtain ⟨p, hp⟩ := Option.isSome_iff_exists.mp hsent
  have hlen : (regionReply [63, 5, 6]).map (fun p => decide (p.getPathByteLen = p.path.length)) =
      some false := by decide +kernel
  rw [hp] at hlen
  exact ⟨p, hp, fun h => absurd h.2 (by simpa using hlen)⟩

end AnonRequestHandler

end OpenHop
