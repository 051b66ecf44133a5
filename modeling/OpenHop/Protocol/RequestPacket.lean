import Mathlib.Algebra.Order.Ring.Int
import OpenHop.Protocol.LoginPacket

/-! # Request packets

A request to a server is encrypted for it, with the sender named by its hash or, in an
anonymous request, by its whole key. It goes along the stored path to the server, under the
length that is stored with it.
-/

namespace OpenHop

namespace PathUtils

/-- `get_path_byte_len` of an integer, where `&` and `>>` round down. -/
def getPathByteLenInt (pathLen : ℤ) : ℤ :=
  pathLen % (pathHashCountMask + 1) * (pathLen >>> pathHashSizeShift + 1)

def isValidPathLenInt (pathLen : ℤ) : Bool :=
  let hashSize := pathLen >>> pathHashSizeShift + 1
  if hashSize > 3 then false
  else decide (pathLen % (pathHashCountMask + 1) * hashSize ≤ maxPathSize)

theorem shiftRight_eq_ediv (pathLen : ℤ) : pathLen >>> pathHashSizeShift = pathLen / 64 :=
  Int.shiftRight_eq_div_pow pathLen 6

theorem getPathByteLenInt_natCast (n : ℕ) : getPathByteLenInt n = getPathByteLen n := by
  rw [getPathByteLenInt, shiftRight_eq_ediv, getPathByteLen_eq, getPathHashCount_eq,
    getPathHashSize_eq]
  push_cast
  rfl

theorem isValidPathLenInt_iff (pathLen : ℤ) :
    isValidPathLenInt pathLen = true ↔
      pathLen / 64 + 1 ≤ 3 ∧ getPathByteLenInt pathLen ≤ maxPathSize := by
  unfold isValidPathLenInt getPathByteLenInt
  rw [shiftRight_eq_ediv]
  dsimp only
  split
  · rename_i hwide
    constructor
    · intro h
      cases h
    · intro h
      exact absurd h.1 (by omega)
  · rename_i hwidth
    rw [decide_eq_true_eq]
    exact ⟨fun h => ⟨by omega, h⟩, fun h => h.2⟩

theorem isValidPathLenInt_natCast (n : ℕ) : isValidPathLenInt n = isValidPathLen n := by
  rw [Bool.eq_iff_iff, isValidPathLenInt_iff, isValidPathLen_iff, getPathByteLenInt_natCast,
    getPathHashSize_eq, Nat.cast_le]
  exact and_congr_left fun _ => by omega

theorem getPathByteLenInt_nonpos {pathLen : ℤ} (h : pathLen < 0) :
    getPathByteLenInt pathLen ≤ 0 := by
  rw [getPathByteLenInt, shiftRight_eq_ediv]
  apply mul_nonpos_of_nonneg_of_nonpos
  · exact Int.emod_nonneg _ (by decide)
  · omega

theorem isValidPathLenInt_of_neg {pathLen : ℤ} (h : pathLen < 0) :
    isValidPathLenInt pathLen = true := by
  rw [isValidPathLenInt_iff]
  exact ⟨by omega, (getPathByteLenInt_nonpos h).trans (by decide)⟩

end PathUtils

/-- A packet that has any integer for a path length, in place of its own. -/
structure Draft where
  packet : Packet
  pathLen : ℤ

namespace Draft

def ofPacket (p : Packet) : Draft := ⟨p, p.pathLen⟩

def writeTo (d : Draft) : Except PacketError Bytes :=
  match d.pathLen with
  | .ofNat n => { d.packet with pathLen := n }.writeTo
  | .negSucc _ => do
    let expected := PathUtils.getPathByteLenInt d.pathLen
    if expected ≠ d.packet.path.length then
      Except.error (.negativePathLen expected d.packet.path.length)
    if d.packet.payloadLen ≠ d.packet.payload.length then
      Except.error (.payloadLenMismatch d.packet.payloadLen d.packet.payload.length)
    Packet.validatePayloadSize d.packet.payloadLen
    let _ ← Packet.byte d.packet.header
    let _ ← d.packet.writeTransportCodes
    -- a `bytearray` holds no negative number
    Except.error .byteOutOfRange

end Draft

namespace PacketBuilder

variable {Seed : Type} (c : Crypto Seed)

/-- Put the stored path on a request, under the stored length if that is no longer. -/
def setRequestPath (pkt : Packet) (contact : Contact) : Except PacketError Draft :=
  let pathBytes := contact.outPath.take maxPathSize
  if PathUtils.isValidPathLenInt contact.outPathLen ∧
      PathUtils.getPathByteLenInt contact.outPathLen ≤ pathBytes.length then
    .ok ⟨{ pkt with path := pathBytes }, contact.outPathLen⟩
  else
    (if pathBytes.length = 64 then pkt.setPath (pathBytes.take 63) else pkt.setPath pathBytes).map
      .ofPacket

def routeTo (contact : Contact) : RouteName :=
  if 0 ≤ contact.outPathLen then .direct else .flood

def createAnonRequest (contact : Contact) (localIdentity : Seed) (reqData : Bytes)
    (timestamp : ℕ) : Except PacketError (Draft × ℕ) := do
  let plaintext ← packTimestampData timestamp [.bytes reqData]
  let (sharedSecret, aesKey) ← calcSharedSecretAndKey c contact localIdentity
  let cipher := c.encryptThenMac aesKey sharedSecret plaintext
  let destHash ← hashByte contact.publicKey
  let payload := destHash :: (c.publicKey localIdentity ++ cipher)
  let packet ← createPacket (createHeader payloadTypeAnonReq (routeTo contact)) payload
  if routeTo contact = .direct ∧ contact.outPath ≠ [] then
    let draft ← setRequestPath packet contact
    return (draft, timestamp)
  else return (.ofPacket packet, timestamp)

def createProtocolRequest (contact : Contact) (localIdentity : Seed) (protocolCode : ℕ)
    (data : Bytes) (timestamp : ℕ) (routeType : Option RouteName) :
    Except PacketError (Draft × ℕ) := do
  let plaintext ← packTimestampData timestamp [.int protocolCode, .bytes data]
  let payload ← createEncryptedPayload c contact localIdentity plaintext
  let route := routeType.getD (routeTo contact)
  let packet ← createPacket (createHeader payloadTypeReq route) payload
  if route = .direct ∧ contact.outPath ≠ [] then
    let draft ← setRequestPath packet contact
    return (draft, timestamp)
  else return (.ofPacket packet, timestamp)

theorem setRequestPath_eq {p : Packet} {d : Draft} {contact : Contact}
    (h : setRequestPath p contact = .ok d) :
    ∃ path pathLen, d.packet = { p with path := path, pathLen := pathLen } := by
  unfold setRequestPath at h
  dsimp only at h
  split at h
  · cases h
    exact ⟨_, _, rfl⟩
  · obtain ⟨q, hq, rfl⟩ := map_eq_ok.mp h
    split at hq
    · exact ⟨_, Packet.setPath_eq hq⟩
    · exact ⟨_, Packet.setPath_eq hq⟩

end PacketBuilder

end OpenHop
