import OpenHop.Data.Bytes

/-! # Contacts

A contact is what a node knows about a peer: its key and name, what its last
advert said, and the path to it. The path length is encoded as in packets, and
negative while no path is known.
-/

namespace OpenHop

structure Contact where
  publicKey : Bytes
  name : List Char := []
  advType : ℕ := 0
  flags : ℕ := 0
  outPathLen : ℤ := -1
  outPath : Bytes := []
  lastAdvertTimestamp : ℕ := 0
  lastmod : ℕ := 0
  gpsLat : ℚ := 0
  gpsLon : ℚ := 0
  syncSince : ℕ := 0
  lastAdvertPacket : Option Bytes := none
  deriving DecidableEq

end OpenHop
