import OpenHop.Data.Bytes
import OpenHop.Protocol.PathUtils

/-! # Packets and their wire format

A packet is written as header, optional transport codes, encoded path length, path and
payload. The reader walks the same layout with its own bounds checks.
-/

namespace OpenHop

/-- The fields of `Packet`. Lengths are the declared ones and may disagree with the buffers. -/
structure Packet where
  header : ℕ := 0x00
  transportCodes : ℕ × ℕ := (0, 0)
  pathLen : ℕ := 0
  path : Bytes := []
  payload : Bytes := []
  payloadLen : ℕ := 0
  snr : ℚ := 0
  rssi : ℤ := 0
  pathHashModeApplied : Bool := false
  floodScopeApplied : Bool := false
  recvRegionCaptured : Bool := false
  recvRegionKey : Option Bytes := none
  recvRegionUnscoped : Bool := false
  deriving DecidableEq, Repr

namespace Packet

open PathUtils

def getRouteType (p : Packet) : ℕ := p.header &&& phRouteMask

def getPayloadType (p : Packet) : ℕ := (p.header >>> phTypeShift) &&& phTypeMask

def getPayloadVer (p : Packet) : ℕ := (p.header >>> phVerShift) &&& phVerMask

def hasTransportCodes (p : Packet) : Bool :=
  p.getRouteType == routeTypeTransportFlood || p.getRouteType == routeTypeTransportDirect

def isRouteFlood (p : Packet) : Bool :=
  p.getRouteType == routeTypeTransportFlood || p.getRouteType == routeTypeFlood

def isRouteDirect (p : Packet) : Bool :=
  p.getRouteType == routeTypeTransportDirect || p.getRouteType == routeTypeDirect

def getPathHashSize (p : Packet) : ℕ := PathUtils.getPathHashSize p.pathLen

def incomingHashSize (p : Packet) : ℕ :=
  if PathUtils.isValidPathLen p.pathLen then p.getPathHashSize else 1

def getPathHashCount (p : Packet) : ℕ := PathUtils.getPathHashCount p.pathLen

def getPathByteLen (p : Packet) : ℕ := PathUtils.getPathByteLen p.pathLen

/-- The path cut into per-hop hashes; an entry that would run past the buffer is skipped. -/
def getPathHashes (p : Packet) : List Bytes :=
  (List.range p.getPathHashCount).filterMap fun i =>
    let start := i * p.getPathHashSize
    let stop := start + p.getPathHashSize
    if stop ≤ p.path.length then some ((p.path.take stop).drop start) else none

/-- Set the path; without an encoded length the path is read as one-byte hashes. -/
def setPath (p : Packet) (pathBytes : Bytes) (pathLenEncoded : Option ℕ := none) :
    Except PacketError Packet :=
  match pathLenEncoded with
  | some encoded => .ok { p with path := pathBytes, pathLen := encoded }
  | none =>
    if pathBytes.length > 63 then .error (.pathTooLong pathBytes.length)
    else do
      let encoded ← encodePathLen 1 pathBytes.length
      return { p with path := pathBytes, pathLen := encoded }

def applyPathHashMode (p : Packet) (mode : ℕ) (markApplied : Bool := false) :
    Except PacketError Packet :=
  if mode > 2 then .error (.pathHashMode mode)
  else if p.getPayloadType = payloadTypeTrace then .ok p
  else if p.getPathHashCount ≠ 0 then .ok p
  else do
    let pathLen ← encodePathLen (mode + 1) 0
    return { p with
      pathLen := pathLen
      pathHashModeApplied := p.pathHashModeApplied || markApplied }

def getPayload (p : Packet) : Bytes := p.payload.take p.payloadLen

def getRawLength (p : Packet) : ℕ :=
  2 + p.getPathByteLen + p.payloadLen + (if p.hasTransportCodes then 4 else 0)

def validateLengths (p : Packet) : Except PacketError Unit :=
  if p.getPathByteLen ≠ p.path.length then
    .error (.pathLenMismatch p.getPathByteLen p.path.length)
  else if p.payloadLen ≠ p.payload.length then
    .error (.payloadLenMismatch p.payloadLen p.payload.length)
  else .ok ()

def validatePayloadSize (payloadLen : ℕ) : Except PacketError Unit :=
  if payloadLen > maxPacketPayload then .error (.payloadTooLarge payloadLen) else .ok ()

/-- One byte of a `bytearray`, which holds values below 256 only. -/
def byte (n : ℕ) : Except PacketError Bytes :=
  if n < 256 then .ok [UInt8.ofNat n] else .error .byteOutOfRange

def code (n : ℕ) : Except PacketError Bytes :=
  match Bytes.ofNatLE? 2 n with
  | some d => .ok d
  | none => .error .intTooBig

def writeTransportCodes (p : Packet) : Except PacketError Bytes :=
  if p.hasTransportCodes then do
    let c₀ ← code p.transportCodes.1
    let c₁ ← code p.transportCodes.2
    return c₀ ++ c₁
  else .ok []

def writeTo (p : Packet) : Except PacketError Bytes := do
  p.validateLengths
  validatePayloadSize p.payloadLen
  let header ← byte p.header
  let codes ← p.writeTransportCodes
  let pathLen ← byte p.pathLen
  return header ++ codes ++ pathLen ++ p.path.take p.getPathByteLen ++ p.payload.take p.payloadLen

/-- The per-frame decisions that a reused packet must not carry into the next frame. -/
def resetFrame (p : Packet) : Packet :=
  { p with
    recvRegionCaptured := false
    recvRegionKey := none
    recvRegionUnscoped := false
    floodScopeApplied := false
    pathHashModeApplied := false }

def checkBounds (idx required dataLen : ℕ) (e : PacketError) : Except PacketError Unit :=
  if idx + required > dataLen then .error e else .ok ()

/-- The slice `data[i:j]`. -/
def slice (data : Bytes) (i j : ℕ) : Bytes := (data.take j).drop i

def readTransportCodes (p : Packet) (data : Bytes) (idx : ℕ) :
    Except PacketError (Packet × ℕ) :=
  if p.hasTransportCodes then do
    checkBounds idx 4 data.length .missingTransportCodes
    return ({ p with transportCodes :=
      (Bytes.toNatLE (slice data idx (idx + 2)), Bytes.toNatLE (slice data (idx + 2) (idx + 4))) },
      idx + 4)
  else .ok ({ p with transportCodes := (0, 0) }, idx)

def readPath (p : Packet) (data : Bytes) (idx : ℕ) : Except PacketError (Packet × ℕ) := do
  checkBounds idx 1 data.length .missingPathLen
  let some b := data[idx]? | .error .indexOutOfRange
  let p := { p with pathLen := b.toNat }
  let idx := idx + 1
  if !isValidPathLen p.pathLen then
    if PathUtils.getPathHashSize p.pathLen > 3 then .error (.invalidPathLen p.pathLen)
    else .error .pathLenTooLarge
  else
    let pathByteLen := p.getPathByteLen
    checkBounds idx pathByteLen data.length .truncatedPath
    return ({ p with path := slice data idx (idx + pathByteLen) }, idx + pathByteLen)

def readPayload (p : Packet) (data : Bytes) (idx : ℕ) : Except PacketError Packet := do
  let payload := data.drop idx
  validatePayloadSize payload.length
  return { p with payload := payload, payloadLen := payload.length }

def readFrom (p : Packet) (data : Bytes) : Except PacketError Packet := do
  let some b := data[0]? | .error .indexOutOfRange
  let p := { p.resetFrame with header := b.toNat }
  if p.getPayloadVer > maxSupportedPayloadVersion then
    .error (.unsupportedVersion p.getPayloadVer)
  else
    let (p, idx) ← p.readTransportCodes data 1
    let (p, idx) ← p.readPath data idx
    p.readPayload data idx

end Packet

end OpenHop
