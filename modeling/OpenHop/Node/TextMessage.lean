import OpenHop.Node.AckHandler
import OpenHop.Protocol.PacketBuilder
import OpenHop.Protocol.RegionMap

/-! # Receiving text messages

The handler finds the contact that a message decrypts with, delivers the text up
to its first zero byte and builds the acknowledgements: a path return for a flood,
a flooded packet when no path to the sender is known, and otherwise a packet along
that path, preceded by a multipart one if extra acknowledgements are switched on.
-/

namespace OpenHop

/-- `TXT_ACK_DELAY_MS` -/
def txtAckDelayMs : ℕ := 200

/-- `MULTI_ACK_STAGGER_MS` -/
def multiAckStaggerMs : ℕ := 300

/-- What the application gets of a message, and the acknowledgements with their delays. -/
structure Delivery where
  contact : Contact
  text : List Char
  txtType : ℕ
  senderTimestamp : ℕ
  senderPrefix : Bytes
  pathLen : ℕ
  /-- The new watermark of the contact, for signed text. -/
  syncSince : Option ℕ
  acks : List (Packet × ℕ)
  /-- The text answered a pending command and is not published as a message. -/
  commandResponse : Bool
  deriving DecidableEq

inductive TextOutcome where
  | notForUs
  | consumed
  | delivered (d : Delivery)
  deriving DecidableEq

/-- `shouldAck` is the owner's veto, by sender key, type and timestamp. -/
structure TextMessageHandler (Seed : Type) where
  localIdentity : Seed
  contacts : List Contact
  multiAcks : ℤ := 0
  shouldAck : Option (Bytes → ℕ → ℕ → Bool) := none
  pendingCommandResponses : List Bytes := []

namespace TextMessageHandler

variable {Seed : Type} (c : Crypto Seed)

/-- The length of the text in a message body: up to the first zero byte, if there is one. -/
def textLen (messageBody : Bytes) : ℕ := messageBody.findIdx (· == 0)

/-- The hash that acknowledges a message, none for types that get no acknowledgement. -/
def calcAckHash (h : TextMessageHandler Seed) (txtType : ℕ) (decrypted messageBody pubkey : Bytes)
    (timestamp flags : ℕ) (lastByte : UInt8) : Except PacketError (Option Bytes) :=
  let len := textLen messageBody
  if txtType = txtTypePlain then
    let extAttempt := messageBody.getD (len + 1) 0
    (PacketBuilder.calcTextAckHash c pubkey timestamp flags (messageBody.take len) extAttempt
      lastByte).map some
  else if txtType = txtTypeSignedPlain then
    let signedSpan := decrypted.take (9 + len)
    .ok (some ((c.sha256 (signedSpan ++ c.publicKey h.localIdentity)).take 4))
  else .ok none

def scopedReply (reply request : Packet) : Except PacketError Packet :=
  match applyReplyScope c reply request with
  | some p => .ok p
  | none => .error .badTransportKey

/-- The length byte and the bytes of the path a flood came along, if its length is valid. -/
def incomingPath (packet : Packet) : Option ℕ × Bytes :=
  if PathUtils.isValidPathLen packet.pathLen then
    (some packet.pathLen, packet.path.take (PathUtils.getPathByteLen packet.pathLen))
  else (none, [])

def buildAckResponses (h : TextMessageHandler Seed) (packet : Packet) (contact : Contact)
    (sharedSecret pubkey ackHash : Bytes) (isFlood : Bool) :
    Except PacketError (List (Packet × ℕ)) := do
  if isFlood then
    let (pathLenEncoded, path) := incomingPath packet
    let destHash ← PacketBuilder.hashByte pubkey
    let srcHash ← PacketBuilder.hashByte (c.publicKey h.localIdentity)
    let ack ← PacketBuilder.createPathReturn c destHash srcHash sharedSecret path payloadTypeAck
      ackHash pathLenEncoded []
    let ack ← scopedReply c ack packet
    return [(ack, txtAckDelayMs)]
  else if ¬ (0 ≤ contact.outPathLen ∧ PathUtils.isValidPathLen contact.outPathLen.toNat) then
    let ack ← PacketBuilder.createAckFromBytes ackHash [] none .flood
    let ack ← scopedReply c ack packet
    return [(ack, txtAckDelayMs)]
  else
    let pathLen := contact.outPathLen.toNat
    let ack ← PacketBuilder.createAckFromBytes ackHash contact.outPath (some pathLen)
    if h.multiAcks ≤ 0 then return [(ack, txtAckDelayMs)]
    else
      let multi ← PacketBuilder.createMultiAck ackHash 1 contact.outPath (some pathLen)
      return [(multi, txtAckDelayMs), (ack, txtAckDelayMs + multiAckStaggerMs)]

/-- The first contact with the sender's hash that the message decrypts with. -/
def matchContact (h : TextMessageHandler Seed) (payload : Bytes) :
    Option (Contact × Bytes × Bytes) :=
  match payload with
  | _ :: srcHash :: encrypted =>
    (h.contacts.filter fun contact => contact.publicKey.head? = some srcHash).findSome?
      fun contact =>
        if contact.publicKey.length ≠ 32 then none
        else (decryptFrom c h.localIdentity contact encrypted).map fun r => (contact, r)
  | _ => none

def ackAllowed (h : TextMessageHandler Seed) (pubkey : Bytes) (txtType timestamp : ℕ) : Bool :=
  match h.shouldAck with
  | none => true
  | some policy => policy pubkey txtType timestamp

/-- The acknowledgements of a message, none if it earns none or the owner vetoes it. -/
def acknowledge (h : TextMessageHandler Seed) (packet : Packet) (contact : Contact)
    (secret decrypted messageBody : Bytes) (txtType timestamp flags : ℕ) (lastByte : UInt8) :
    Except PacketError (List (Packet × ℕ)) := do
  let hash ← h.calcAckHash c txtType decrypted messageBody contact.publicKey timestamp flags
    lastByte
  match hash with
  | none => return []
  | some ackHash =>
    if h.ackAllowed contact.publicKey txtType timestamp then
      h.buildAckResponses c packet contact secret contact.publicKey ackHash packet.isRouteFlood
    else return []

def supported (txtType : ℕ) : Bool :=
  txtType == txtTypePlain || txtType == txtTypeCliData || txtType == txtTypeSignedPlain
    || txtType == txtTypeCliCommand

def deliver (h : TextMessageHandler Seed) (packet : Packet) (contact : Contact)
    (secret decrypted : Bytes) (lastByte : UInt8) : Except PacketError TextOutcome := do
  if decrypted.length < 5 then return .consumed
  let timestamp := Bytes.toNatLE (decrypted.take 4)
  let flags := (decrypted.getD 4 0).toNat
  let txtType := (flags >>> 2) &&& 0x3F
  if ¬ supported txtType then return .consumed
  let signed := txtType == txtTypeSignedPlain
  -- a signed text comes after four bytes of its author's key
  if signed ∧ decrypted.length < 9 then return .consumed
  let senderPrefix := if signed then (decrypted.drop 5).take 4 else []
  let messageBody := if signed then decrypted.drop 9 else decrypted.drop 5
  let acks ← h.acknowledge c packet contact secret decrypted messageBody txtType timestamp flags
    lastByte
  return .delivered
    { contact := contact
      text := Utf8.decodeReplace (messageBody.take (textLen messageBody))
      txtType := txtType
      senderTimestamp := timestamp
      senderPrefix := senderPrefix
      pathLen := if packet.isRouteFlood then packet.pathLen else 0xFF
      syncSince := if signed ∧ timestamp > contact.syncSince then some timestamp else none
      acks := acks
      commandResponse :=
        txtType == txtTypeCliData && h.pendingCommandResponses.contains contact.publicKey }

/-- `lastByte` is the random byte of a plain text's acknowledgement. -/
def call (h : TextMessageHandler Seed) (packet : Packet) (lastByte : UInt8) :
    Except PacketError TextOutcome :=
  if packet.payload.length < 4 then .ok .notForUs
  else
    match h.matchContact c packet.payload with
    | none => .ok .notForUs
    | some (contact, secret, decrypted) => h.deliver c packet contact secret decrypted lastByte

end TextMessageHandler

end OpenHop
