import OpenHop.Protocol.Advert
import OpenHop.Protocol.Packet

/-! # The advert handler

The handler checks a received advert and publishes it as a discovered node. A
timestamp ahead of the local clock is replaced by the clock's reading, so the
published timestamp is not always the one that was signed.
-/

namespace OpenHop

/-- The data of a `NODE_DISCOVERED` event. -/
structure NodeDiscovered where
  publicKey : Bytes
  name : List Char
  contactType : ℕ
  flags : ℕ
  lat : ℚ
  lon : ℚ
  advertTimestamp : ℕ
  timestamp : ℕ
  inboundPath : Bytes
  pathLenEncoded : ℕ
  rawAdvertPacket : Option Bytes

/-- `verify` is the signature check of a peer identity, false for a malformed key. -/
structure AdvertHandler where
  verify : (pubkey message signature : Bytes) → Bool
  localPublicKey : Option Bytes := none

namespace AdvertHandler

def verifyAdvertSignature (h : AdvertHandler) (pubkey timestamp appdata signature : Bytes) : Bool :=
  if pubkey.length ≠ pubKeySize then false
  else if signature.length ≠ signatureSize then false
  else h.verify pubkey (pubkey ++ timestamp ++ appdata) signature

/-- The advert of a packet and the event published for it, with the clock readings `now` for the
comparison and `stamp` for the event. -/
def call (h : AdvertHandler) (packet : Packet) (now stamp : ℕ) : Option (Advert × NodeDiscovered) :=
  let payload := packet.getPayload
  if payload = [] then none
  else
    match parseAdvertPayload payload with
    | .error _ => none
    | .ok parsed =>
      let appdata := parsed.appdata.take maxAdvertDataSize
      if isSelfAdvert payload (h.localPublicKey.getD []) then none
      else if ¬ h.verifyAdvertSignature parsed.pubkey (Bytes.le timestampSize parsed.timestamp)
          appdata parsed.signature then none
      else
        match decodeAppdata appdata with
        | .error _ => none
        | .ok decoded =>
          match decoded.nodeName with
          | none => none
          | some name =>
            some (parsed,
              { publicKey := parsed.pubkey
                name := name
                contactType := determineContactTypeFromFlags decoded.flags
                flags := decoded.flags
                lat := decoded.latitude.getD 0
                lon := decoded.longitude.getD 0
                -- a remote clock that is ahead is not believed
                advertTimestamp := if parsed.timestamp > now then now else parsed.timestamp
                timestamp := stamp
                inboundPath := packet.path.take packet.getPathByteLen
                pathLenEncoded := packet.pathLen
                rawAdvertPacket := packet.writeTo.toOption })

end AdvertHandler

end OpenHop
