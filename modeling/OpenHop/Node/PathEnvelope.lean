import OpenHop.Companion.FrameLogin
import OpenHop.Node.Transmittable

/-! # The envelope of a path return

A decrypted path return is a length byte, the path it counts, a type and an extra that runs
to the end of the last cipher block. Three handlers take it apart, each with its own
offsets: the one for acknowledgements, the one for responses and the one for logins.
-/

namespace OpenHop

/-- What is in the envelope. -/
structure PathEnvelope where
  pathLenByte : ℕ
  path : Bytes
  extraType : ℕ
  extra : Bytes
  deriving DecidableEq

def AckHandler.unwrap (decrypted : Bytes) : Option PathEnvelope :=
  match decrypted with
  | [] => none
  | b :: _ =>
    if ¬ PathUtils.isValidPathLen b.toNat then none
    else
      let pathByteLen := PathUtils.getPathByteLen b.toNat
      let extraStart := 1 + pathByteLen
      if decrypted.length < extraStart + 1 then none
      else some {
        pathLenByte := b.toNat
        path := (decrypted.take extraStart).drop 1
        extraType := (decrypted.getD extraStart 0).toNat &&& 0x0F
        extra := decrypted.drop (extraStart + 1) }

def ProtocolResponses.unwrap (decrypted : Bytes) : Option PathEnvelope :=
  match decrypted with
  | [] => none
  | pathLenByte :: _ =>
    if ¬ PathUtils.isValidPathLen pathLenByte.toNat then none
    else
      let pathByteLen := PathUtils.getPathByteLen pathLenByte.toNat
      let innerOffset := 1 + pathByteLen + 1
      if decrypted.length < innerOffset then none
      else some {
        pathLenByte := pathLenByte.toNat
        path := (decrypted.take (1 + pathByteLen)).drop 1
        extraType := (decrypted.getD (1 + pathByteLen) 0).toNat &&& 0x0F
        extra := decrypted.drop innerOffset }

/-- The reader of login replies skips the path without looking at it. -/
def LoginReply.unwrap (plaintext : Bytes) : Option PathEnvelope :=
  match plaintext with
  | [] => none
  | pathLenByte :: _ =>
    if ¬ PathUtils.isValidPathLen pathLenByte.toNat then none
    else
      let pathByteLen := PathUtils.getPathByteLen pathLenByte.toNat
      let innerOffset := 1 + pathByteLen + 1
      if plaintext.length < innerOffset then none
      else some {
        pathLenByte := pathLenByte.toNat
        path := (plaintext.drop 1).take pathByteLen
        extraType := (plaintext.getD (1 + pathByteLen) 0).toNat &&& 0x0F
        extra := plaintext.drop innerOffset }

theorem AckHandler.ackInPath_eq_unwrap (decrypted : Bytes) :
    AckHandler.ackInPath decrypted = (AckHandler.unwrap decrypted).bind fun e =>
      if e.extraType = payloadTypeAck ∧ 4 ≤ e.extra.length then
        some (Bytes.toNatLE (e.extra.take 4))
      else none := by
  cases decrypted with
  | nil => rfl
  | cons b rest =>
    rw [AckHandler.ackInPath, AckHandler.unwrap]
    by_cases hvalid : PathUtils.isValidPathLen b.toNat = true
    · simp only [hvalid, not_true_eq_false, if_false]
      generalize 1 + PathUtils.getPathByteLen b.toNat = start
      generalize b :: rest = decrypted
      by_cases hshort : decrypted.length < start + 1
      · rw [if_pos hshort, List.getElem?_eq_none (by omega)]
        rfl
      · have hget : decrypted[start]? = some (decrypted.getD start 0) := by
          rw [List.getD_eq_getElem?_getD, List.getElem?_eq_getElem (by omega), Option.getD_some]
        rw [if_neg hshort, hget]
        simp only [Option.bind_some, List.length_drop]
        by_cases htype : (decrypted.getD start 0).toNat &&& 0x0F = payloadTypeAck
        · by_cases hlong : decrypted.length < start + 5
          · rw [if_neg (not_not.mpr htype), if_pos hlong, if_neg (by omega)]
          · rw [if_neg (not_not.mpr htype), if_neg hlong, if_pos ⟨htype, by omega⟩]
        · rw [if_pos htype, if_neg fun hack => htype hack.1]
    · simp only [hvalid]
      rfl

theorem ProtocolResponses.responsePayload_eq_unwrap (decrypted : Bytes) :
    ProtocolResponses.responsePayload payloadTypePath decrypted =
      (ProtocolResponses.unwrap decrypted).map fun e =>
        if e.extraType = payloadTypeResponse ∧ e.extra ≠ [] then some e.extra else none := by
  unfold ProtocolResponses.responsePayload
  rw [if_pos rfl]
  cases decrypted with
  | nil => rfl
  | cons b rest =>
    rw [ProtocolResponses.unwrap]
    by_cases hvalid : PathUtils.isValidPathLen b.toNat = true
    · simp only [hvalid, not_true_eq_false, if_false]
      by_cases hshort : (b :: rest).length < 1 + PathUtils.getPathByteLen b.toNat + 1
      · rw [if_pos hshort, if_pos hshort]
        rfl
      · rw [if_neg hshort, if_neg hshort, Nat.add_sub_cancel]
        simp only [Option.map_some, ne_eq, List.drop_eq_nil_iff, not_le, apply_ite some]
    · simp only [hvalid]
      rfl

theorem ProtocolResponses.outPathOf_eq_unwrap {decrypted : Bytes} {e : PathEnvelope}
    (h : ProtocolResponses.unwrap decrypted = some e) :
    ProtocolResponses.outPathOf decrypted = e.path ∧
      (decrypted.headD 0).toNat = e.pathLenByte := by
  unfold ProtocolResponses.unwrap at h
  split at h
  · cases h
  split at h
  · cases h
  dsimp only at h
  split at h
  · cases h
  obtain rfl := Option.some.inj h
  refine ⟨?_, rfl⟩
  rw [ProtocolResponses.outPathOf, List.drop_take, Nat.add_sub_cancel_left]
  rfl

theorem AckHandler.unwrap_eq (decrypted : Bytes) :
    AckHandler.unwrap decrypted = ProtocolResponses.unwrap decrypted := by
  cases decrypted with
  | nil => rfl
  | cons b rest => rfl

theorem LoginReply.unwrap_eq (plaintext : Bytes) :
    LoginReply.unwrap plaintext = ProtocolResponses.unwrap plaintext := by
  cases plaintext with
  | nil => rfl
  | cons b rest =>
    simp only [LoginReply.unwrap, ProtocolResponses.unwrap, List.drop_take, Nat.add_sub_cancel_left]

theorem LoginReply.decryptResponse_eq_unwrap (plaintext : Bytes) :
    LoginReply.decryptResponse payloadTypePath plaintext =
      (LoginReply.unwrap plaintext).bind fun e =>
        if e.extraType = payloadTypeResponse ∧ e.extra ≠ [] then
          LoginReply.decryptResponse payloadTypeResponse e.extra
        else some none := by
  rw [LoginReply.decryptResponse, if_pos rfl, LoginReply.unwrapPath_eq,
    ProtocolResponses.responsePayload_eq_unwrap, ← LoginReply.unwrap_eq]
  cases plaintext with
  | nil => rfl
  | cons b rest =>
    rw [if_neg (by simp)]
    cases LoginReply.unwrap (b :: rest) with
    | none => rfl
    | some e =>
      simp only [Option.map_some, Option.bind_some]
      by_cases hresponse : e.extraType = payloadTypeResponse ∧ e.extra ≠ []
      · rw [if_pos hresponse, if_pos hresponse, LoginReply.decryptResponse,
          if_neg (by simpa using hresponse.2), if_neg (by decide)]
        rfl
      · rw [if_neg hresponse, if_neg hresponse]
        rfl

namespace PathEnvelope

/-- A plaintext that has an envelope in it. -/
structure Layout (plaintext : Bytes) (e : PathEnvelope) (type : UInt8) : Prop where
  eq : plaintext = UInt8.ofNat e.pathLenByte :: (e.path ++ type :: e.extra)
  fits : PacketBuilder.PathFits e.path e.pathLenByte
  extraType : e.extraType = type.toNat &&& 0x0F

variable {plaintext : Bytes} {e : PathEnvelope} {type : UInt8}

theorem Layout.parts (h : Layout plaintext e type) :
    plaintext.headD 0 = UInt8.ofNat e.pathLenByte ∧
      (UInt8.ofNat e.pathLenByte).toNat = e.pathLenByte ∧
      plaintext.length = 1 + PathUtils.getPathByteLen e.pathLenByte + 1 + e.extra.length ∧
      (plaintext.drop 1).take (PathUtils.getPathByteLen e.pathLenByte) = e.path ∧
      (plaintext.getD (1 + PathUtils.getPathByteLen e.pathLenByte) 0) = type ∧
      plaintext.drop (1 + PathUtils.getPathByteLen e.pathLenByte + 1) = e.extra := by
  obtain ⟨rfl, ⟨hvalid, hlen⟩, -⟩ := h
  have hbyte : (UInt8.ofNat e.pathLenByte).toNat = e.pathLenByte :=
    Bytes.toNat_ofNat_of_lt ((PathUtils.isValidPathLen_lt hvalid).trans (by decide))
  refine ⟨rfl, hbyte, ?_, ?_, ?_, ?_⟩
  · simp only [List.length_cons, List.length_append, hlen]
    omega
  · rw [← hlen, List.drop_one, List.tail_cons, List.take_left]
  · rw [← hlen, Nat.add_comm 1, List.getD_cons_succ, List.getD_append_right _ _ _ _ le_rfl,
      Nat.sub_self, List.getD_cons_zero]
  · rw [← hlen, Nat.add_comm 1, List.drop_succ_cons, ← List.drop_drop, List.drop_left,
      List.drop_one, List.tail_cons]

theorem Layout.protocolResponses_unwrap (h : Layout plaintext e type) :
    ProtocolResponses.unwrap plaintext = some e := by
  obtain ⟨hhead, hbyte, hlen, hpath, htype, hextra⟩ := h.parts
  obtain ⟨b, rest, rfl⟩ : ∃ b rest, plaintext = b :: rest := ⟨_, _, h.eq⟩
  obtain rfl : b = UInt8.ofNat e.pathLenByte := hhead
  rw [ProtocolResponses.unwrap]
  simp only [hbyte, h.fits.1, hextra, htype, List.drop_take, Nat.add_sub_cancel_left, hpath,
    not_true_eq_false, if_false]
  rw [if_neg (by omega), ← h.extraType]

theorem Layout.ackHandler_unwrap (h : Layout plaintext e type) :
    AckHandler.unwrap plaintext = some e := by
  rw [AckHandler.unwrap_eq]
  exact h.protocolResponses_unwrap

theorem Layout.loginReply_unwrap (h : Layout plaintext e type) :
    LoginReply.unwrap plaintext = some e := by
  rw [LoginReply.unwrap_eq]
  exact h.protocolResponses_unwrap

/-! What each handler makes of it. -/

theorem Layout.ackInPath (h : Layout plaintext e type) :
    AckHandler.ackInPath plaintext =
      if e.extraType = payloadTypeAck ∧ 4 ≤ e.extra.length then
        some (Bytes.toNatLE (e.extra.take 4))
      else none := by
  rw [AckHandler.ackInPath_eq_unwrap, h.ackHandler_unwrap, Option.bind_some]

theorem Layout.responsePayload (h : Layout plaintext e type) :
    ProtocolResponses.responsePayload payloadTypePath plaintext =
      some (if e.extraType = payloadTypeResponse ∧ e.extra ≠ [] then some e.extra else none) := by
  rw [ProtocolResponses.responsePayload_eq_unwrap, h.protocolResponses_unwrap, Option.map_some]

theorem Layout.decryptResponse (h : Layout plaintext e type) :
    LoginReply.decryptResponse payloadTypePath plaintext =
      some (if e.extraType = payloadTypeResponse ∧ 12 ≤ e.extra.length then
        some (.ofBytes e.extra) else none) := by
  rw [LoginReply.decryptResponse_eq_unwrap, h.loginReply_unwrap, Option.bind_some]
  by_cases hresponse : e.extraType = payloadTypeResponse ∧ e.extra ≠ []
  · rw [if_pos hresponse, LoginReply.decryptResponse, if_neg (by simpa using hresponse.2),
      if_neg (by decide)]
    simp only [Option.map_some, Option.bind_some, hresponse.1, true_and, ← not_lt, ite_not]
  · rw [if_neg hresponse, if_neg]
    rintro ⟨htype, hlen⟩
    refine hresponse ⟨htype, List.ne_nil_of_length_pos ?_⟩
    omega

end PathEnvelope

namespace PacketBuilder

variable {Seed : Type} {c : Crypto Seed} {destHash srcHash : UInt8}
  {secret path extra noise : Bytes} {extraType : ℕ} {pathLenEncoded : Option ℕ} {p : Packet}

theorem pathReturnLen_ok {encoded : ℕ} (h : pathReturnLen path pathLenEncoded = .ok encoded) :
    encoded = pathLenEncoded.getD 0 ∧ PathFits path encoded := by
  cases pathLenEncoded with
  | none =>
    rw [pathReturnLen] at h
    split at h
    · rename_i hnil
      cases h
      exact ⟨rfl, rfl, by rw [hnil]; rfl⟩
    · cases h
  | some n =>
    rw [pathReturnLen] at h
    split at h
    · cases h
    rename_i hvalid
    split at h
    · cases h
    rename_i hlen
    cases h
    exact ⟨rfl, not_not.mp hvalid, not_not.mp hlen⟩

/-- The type and what follows it: the extra, or noise under a type that is none. -/
def pathReturnExtra (extraType : ℕ) (extra noise : Bytes) : UInt8 × Bytes :=
  if extra ≠ [] then (UInt8.ofNat extraType, extra) else (0xFF, noise)

theorem createPathReturn_ok
    (h : createPathReturn c destHash srcHash secret path extraType extra pathLenEncoded noise =
      .ok p) :
    (extra ≠ [] → extraType < 256) ∧ PathFits path (pathLenEncoded.getD 0) ∧
      p.payload = destHash :: srcHash :: c.encryptThenMac (secret.take 16) secret
        (UInt8.ofNat (pathLenEncoded.getD 0) :: (path ++
          (pathReturnExtra extraType extra noise).1 ::
            (pathReturnExtra extraType extra noise).2)) ∧
      p.getPayloadType = payloadTypePath := by
  unfold createPathReturn at h
  dsimp only at h
  split at h
  · cases h
  obtain ⟨encoded, hencoded, h⟩ := bind_eq_ok.mp h
  obtain ⟨rfl, hfits⟩ := pathReturnLen_ok hencoded
  obtain ⟨firstByte, hfirst, h⟩ := bind_eq_ok.mp h
  obtain ⟨-, rfl⟩ := Packet.byte_eq_ok.mp hfirst
  split at h
  · rename_i hextra
    obtain ⟨typeByte, htype, h⟩ := bind_eq_ok.mp h
    obtain ⟨hlt, rfl⟩ := Packet.byte_eq_ok.mp htype
    obtain ⟨htype, hpayload⟩ := createPacket_carries (by decide) h
    refine ⟨fun _ => hlt, hfits, ?_, htype⟩
    simp [hpayload, pathReturnExtra, hextra]
  · rename_i hextra
    obtain ⟨htype, hpayload⟩ := createPacket_carries (by decide) h
    refine ⟨fun hne => absurd hne hextra, hfits, ?_, htype⟩
    simp [hpayload, pathReturnExtra, hextra]

/-- The envelope that the builder makes, with the padding of its last block. -/
def returnedEnvelope (pathLenEncoded : Option ℕ) (path : Bytes) (extraType : ℕ)
    (extra noise : Bytes) (zeros : ℕ) : PathEnvelope where
  pathLenByte := pathLenEncoded.getD 0
  path := path
  extraType := if extra ≠ [] then extraType &&& 0x0F else 0x0F
  extra := (if extra ≠ [] then extra else noise) ++ List.replicate zeros 0

theorem exists_layout
    (h : createPathReturn c destHash srcHash secret path extraType extra pathLenEncoded noise =
      .ok p) :
    ∃ plaintext zeros type, c.macThenDecrypt (secret.take 16) secret (p.payload.drop 2) =
        some plaintext ∧ zeros < cipherBlockSize ∧
      PathEnvelope.Layout plaintext
        (returnedEnvelope pathLenEncoded path extraType extra noise zeros) type := by
  obtain ⟨hlt, hfits, hpayload, -⟩ := createPathReturn_ok h
  obtain ⟨zeros, hzeros, hpad⟩ := exists_zeroPad_eq (UInt8.ofNat (pathLenEncoded.getD 0) :: (path ++
    (pathReturnExtra extraType extra noise).1 :: (pathReturnExtra extraType extra noise).2))
  rw [hpayload, List.drop_succ_cons, List.drop_succ_cons, List.drop_zero,
    Crypto.macThenDecrypt_encryptThenMac _ _ (List.cons_ne_nil _ _)]
  refine ⟨_, zeros, (pathReturnExtra extraType extra noise).1, rfl, hzeros, ?_, hfits, ?_⟩
  · rw [hpad]
    by_cases hextra : extra = [] <;> simp [returnedEnvelope, pathReturnExtra, hextra]
  · by_cases hextra : extra = []
    · simp [returnedEnvelope, pathReturnExtra, hextra]
    · simp [returnedEnvelope, pathReturnExtra, hextra, Bytes.toNat_ofNat_of_lt (hlt hextra)]

/-- A path return can be written, and its three readers find in it what was put in, followed by
zeros only. It is an acknowledgement or a response to them just if its type says so and the extra
with its padding is long enough for what they read. -/
theorem createPathReturn_envelope
    (h : createPathReturn c destHash srcHash secret path extraType extra pathLenEncoded noise =
      .ok p) :
    (∃ d, p.writeTo = .ok d) ∧ ∃ plaintext zeros,
      c.macThenDecrypt (secret.take 16) secret (p.payload.drop 2) = some plaintext ∧
      (let envelope := returnedEnvelope pathLenEncoded path extraType extra noise zeros
      zeros < cipherBlockSize ∧ AckHandler.unwrap plaintext = some envelope ∧
      ProtocolResponses.unwrap plaintext = some envelope ∧
      LoginReply.unwrap plaintext = some envelope) ∧
      ProtocolResponses.outPathOf plaintext = path ∧
      AckHandler.ackInPath plaintext =
        (if extra ≠ [] ∧ extraType &&& 0x0F = payloadTypeAck ∧ 4 ≤ extra.length + zeros then
          some (Bytes.toNatLE ((extra ++ List.replicate zeros 0).take 4))
        else none) ∧
      ProtocolResponses.responsePayload payloadTypePath plaintext =
        some (if extra ≠ [] ∧ extraType &&& 0x0F = payloadTypeResponse then
          some (extra ++ List.replicate zeros 0)
        else none) ∧
      LoginReply.decryptResponse payloadTypePath plaintext =
        some (if extra ≠ [] ∧ extraType &&& 0x0F = payloadTypeResponse ∧
            12 ≤ extra.length + zeros then
          some (.ofBytes (extra ++ List.replicate zeros 0))
        else none) := by
  refine ⟨⟨p.encode, Packet.writeTo_eq_ok.mpr ⟨(createPathReturn_wellFormed h).toWritable, rfl⟩⟩,
    ?_⟩
  obtain ⟨plaintext, zeros, type, hdecrypt, hzeros, hlayout⟩ := exists_layout h
  refine ⟨plaintext, zeros, hdecrypt, ⟨hzeros, hlayout.ackHandler_unwrap,
    hlayout.protocolResponses_unwrap, hlayout.loginReply_unwrap⟩,
    (ProtocolResponses.outPathOf_eq_unwrap hlayout.protocolResponses_unwrap).1, ?_⟩
  rw [hlayout.ackInPath, hlayout.responsePayload, hlayout.decryptResponse]
  by_cases hextra : extra = []
  · simp [returnedEnvelope, hextra]
  · simp [returnedEnvelope, hextra]

/-- A path of 13 bytes leaves no padding after an extra of one byte. -/
theorem createPathReturn_short_ack :
    ∃ p plaintext, createPathReturn xorCrypto 1 2 [] (List.replicate 13 5) payloadTypeAck [7]
        (some 13) [] = .ok p ∧
      xorCrypto.macThenDecrypt [] [] (p.payload.drop 2) = some plaintext ∧
      AckHandler.unwrap plaintext =
        some { pathLenByte := 13, path := List.replicate 13 5, extraType := 3, extra := [7] } ∧
      AckHandler.ackInPath plaintext = none := by
  refine ⟨_, _, rfl, rfl, ?_, ?_⟩
  · decide +kernel
  · decide +kernel

/-- An acknowledgement of four bytes is read. -/
theorem createPathReturn_envelope_ack :
    ∃ p plaintext, createPathReturn xorCrypto 1 2 [] [5, 6] payloadTypeAck [7, 8, 9, 10]
        (some 65) [] = .ok p ∧
      xorCrypto.macThenDecrypt [] [] (p.payload.drop 2) = some plaintext ∧
      AckHandler.ackInPath plaintext = some 0x0A090807 := by
  obtain ⟨p, hp⟩ : ∃ p, createPathReturn xorCrypto 1 2 [] [5, 6] payloadTypeAck [7, 8, 9, 10]
      (some 65) [] = .ok p := ⟨_, rfl⟩
  obtain ⟨-, plaintext, zeros, hdecrypt, -, -, hack, -⟩ := createPathReturn_envelope hp
  have htake : (([7, 8, 9, 10] : Bytes) ++ List.replicate zeros 0).take 4 = [7, 8, 9, 10] :=
    List.take_left' rfl
  rw [if_pos ⟨by decide, by decide, Nat.le_add_right 4 zeros⟩, htake] at hack
  exact ⟨p, plaintext, hp, hdecrypt, hack⟩

end PacketBuilder

end OpenHop
