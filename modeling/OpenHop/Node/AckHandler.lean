import OpenHop.Protocol.Contact
import OpenHop.Protocol.Crypto
import OpenHop.Protocol.Packet

/-! # Reading acknowledgements

The code of an acknowledgement is found in a plain packet, in a multipart packet
and, encrypted, in a path return. A path return names its sender by one byte
only, so every contact with that byte is tried and the first whose authentication
code matches is taken for the sender.
-/

namespace OpenHop

variable {Seed : Type} (c : Crypto Seed)

/-- Decrypt with the key shared with one contact; none where a step of it fails. -/
def decryptFrom (localIdentity : Seed) (contact : Contact) (encrypted : Bytes) :
    Option (Bytes × Bytes) :=
  (c.sharedSecret (c.privateKey localIdentity) contact.publicKey).bind fun secret =>
    (c.macThenDecrypt (secret.take 16) secret encrypted).map fun decrypted => (secret, decrypted)

/-- The contacts with a given first key byte that decrypt the data, in order. -/
def iterDecryptBySrcHash (contacts : List Contact) (srcHash : UInt8) (localIdentity : Seed)
    (encrypted : Bytes) : List (Contact × Bytes × Bytes) :=
  contacts.filterMap fun contact =>
    if contact.publicKey.length ≠ pubKeySize ∨ contact.publicKey.head? ≠ some srcHash then none
    else (decryptFrom c localIdentity contact encrypted).map fun r => (contact, r)

namespace AckHandler

def processDiscreteAck (packet : Packet) : Option ℕ :=
  if packet.payload.length < 4 then none else some (Bytes.toNatLE (packet.payload.take 4))

/-- The code in the decrypted body of a path return: length byte, path, extra type, extra. -/
def ackInPath (decrypted : Bytes) : Option ℕ :=
  match decrypted with
  | [] => none
  | b :: _ =>
    if ¬ PathUtils.isValidPathLen b.toNat then none
    else
      let extraStart := 1 + PathUtils.getPathByteLen b.toNat
      match decrypted[extraStart]? with
      | none => none
      | some extraType =>
        if extraType.toNat &&& 0x0F ≠ payloadTypeAck then none
        else if decrypted.length < extraStart + 5 then none
        else some (Bytes.toNatLE ((decrypted.drop (extraStart + 1)).take 4))

def tryDecryptEncryptedAck (contacts : List Contact) (localIdentity : Seed) (payload : Bytes) :
    Option ℕ :=
  match payload with
  | _ :: srcHash :: encrypted =>
    match iterDecryptBySrcHash c contacts srcHash localIdentity encrypted with
    | [] => none
    | (_, _, decrypted) :: _ => ackInPath decrypted
  | _ => none

/-- The code in a path return that is addressed to the local node. -/
def processPathAckVariants (contacts : List Contact) (localIdentity : Seed) (packet : Packet) :
    Option ℕ :=
  if 2 ≤ packet.payload.length ∧ packet.payload.head? = (c.publicKey localIdentity).head? then
    tryDecryptEncryptedAck c contacts localIdentity packet.payload
  else none

end AckHandler

def MultipartAckHandler.extractAckCrc (packet : Packet) : Option ℕ :=
  if packet.payload.length < 5 then none
  else
    match packet.payload with
    | [] => none
    | wrapper :: rest =>
      if wrapper.toNat &&& 0x0F ≠ payloadTypeAck then none else some (Bytes.toNatLE (rest.take 4))

/-- The code a node reads from a packet, with the handler for the packet's type. -/
def receivedAckCrc (contacts : List Contact) (localIdentity : Seed) (packet : Packet) : Option ℕ :=
  if packet.getPayloadType = payloadTypeAck then AckHandler.processDiscreteAck packet
  else if packet.getPayloadType = payloadTypeMultipart then MultipartAckHandler.extractAckCrc packet
  else if packet.getPayloadType = payloadTypePath then
    AckHandler.processPathAckVariants c contacts localIdentity packet
  else none

end OpenHop
