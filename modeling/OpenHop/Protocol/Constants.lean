import Mathlib.Data.Nat.Notation

/-! # Protocol constants

The header layout, the route and payload types and the size limits of the mesh
wire format.
-/

namespace OpenHop

@[simp] def phRouteMask : ℕ := 0x03
@[simp] def phTypeShift : ℕ := 2
@[simp] def phTypeMask : ℕ := 0x0F
@[simp] def phVerShift : ℕ := 6
@[simp] def phVerMask : ℕ := 0x03

@[simp] def routeTypeTransportFlood : ℕ := 0x00
@[simp] def routeTypeFlood : ℕ := 0x01
@[simp] def routeTypeDirect : ℕ := 0x02
@[simp] def routeTypeTransportDirect : ℕ := 0x03

@[simp] def payloadTypeReq : ℕ := 0x00
@[simp] def payloadTypeResponse : ℕ := 0x01
@[simp] def payloadTypeTxtMsg : ℕ := 0x02
@[simp] def payloadTypeAck : ℕ := 0x03
@[simp] def payloadTypeAdvert : ℕ := 0x04
@[simp] def payloadTypeGrpTxt : ℕ := 0x05
@[simp] def payloadTypeGrpData : ℕ := 0x06
@[simp] def payloadTypeAnonReq : ℕ := 0x07
@[simp] def payloadTypePath : ℕ := 0x08
@[simp] def payloadTypeTrace : ℕ := 0x09
@[simp] def payloadTypeMultipart : ℕ := 0x0A
@[simp] def payloadTypeRawCustom : ℕ := 0x0F

@[simp] def payloadVer1 : ℕ := 0x00

/-- Versions above this one are reserved for incompatible layouts and are rejected. -/
@[simp] def maxSupportedPayloadVersion : ℕ := payloadVer1

@[simp] def maxAdvertDataSize : ℕ := 32
@[simp] def pubKeySize : ℕ := 32
@[simp] def signatureSize : ℕ := 64
@[simp] def timestampSize : ℕ := 4
@[simp] def pathHashCountMask : ℕ := 0x3F
@[simp] def pathHashSizeShift : ℕ := 6
@[simp] def cipherMacSize : ℕ := 2
@[simp] def cipherBlockSize : ℕ := 16
@[simp] def maxPacketPayload : ℕ := 184
@[simp] def maxTextLen : ℕ := 10 * cipherBlockSize
@[simp] def maxPathSize : ℕ := 64
@[simp] def maxHashSize : ℕ := 32

/-- The largest frame a node puts on the air. -/
@[simp] def maxTransUnit : ℕ := 255

@[simp] def txtTypePlain : ℕ := 0
@[simp] def txtTypeCliData : ℕ := 1
@[simp] def txtTypeSignedPlain : ℕ := 2
@[simp] def txtTypeCliCommand : ℕ := 3

end OpenHop
