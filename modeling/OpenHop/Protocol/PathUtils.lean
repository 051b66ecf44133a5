import Mathlib.Data.Nat.Bitwise
import OpenHop.Protocol.Constants

/-! # Encoded path lengths

One byte packs the hop count (bits 0-5) and the hash width minus one (bits 6-7)
of a path. The bit operations of the codec are quotient and remainder by 64, and
encoding a width and a count below 64 is inverted by the two projections.
-/

namespace OpenHop

/-- The exceptions raised while a packet is built, written or parsed. -/
inductive PacketError where
  | indexOutOfRange
  | byteOutOfRange
  | intTooBig
  | structError
  | unsupportedVersion (version : ℕ)
  | missingTransportCodes
  | missingPathLen
  | truncatedPath
  | invalidPathLen (pathLen : ℕ)
  | pathLenTooLarge
  | pathLenMismatch (expected actual : ℕ)
  | negativePathLen (expected : ℤ) (actual : ℕ)
  | payloadLenMismatch (expected actual : ℕ)
  | payloadTooLarge (payloadLen : ℕ)
  | hopCount (count : ℤ)
  | pathTooLong (hopCount : ℕ)
  | routingPathTooLong (pathLen : ℕ)
  | pathItemTooShort (index : ℕ)
  | pathItemNotHex (index : ℕ)
  | pathItemOutOfRange (index : ℕ) (value : ℤ)
  | textTooLong (textLen limit : ℕ)
  | emptyPubKey
  | badPublicKey
  | badTransportKey
  | pathExtraTooLong
  | pathLenRequired (pathLen : ℕ)
  | pathHashMode (mode : ℕ)
  | channelsConfigRequired
  | channelNotFound (name : List Char)
  | invalidPayloadType (payloadType : ℕ)
  | advertDataTooLarge (size : ℕ)
  deriving DecidableEq, Repr

namespace PathUtils

def getPathHashSize (pathLenByte : ℕ) : ℕ := (pathLenByte >>> pathHashSizeShift) + 1

def getPathHashCount (pathLenByte : ℕ) : ℕ := pathLenByte &&& pathHashCountMask

def getPathByteLen (pathLenByte : ℕ) : ℕ :=
  (pathLenByte &&& pathHashCountMask) * ((pathLenByte >>> pathHashSizeShift) + 1)

/-- Pack a hash width and a hop count; a count that needs more than six bits is refused. -/
def encodePathLen (hashSize hashCount : ℕ) : Except PacketError ℕ :=
  if hashCount ≤ 63 then
    .ok (((hashSize - 1) <<< pathHashSizeShift) ||| (hashCount &&& pathHashCountMask))
  else .error (.hopCount hashCount)

/-- Width 4 is reserved, and a path never exceeds `maxPathSize` bytes. -/
def isValidPathLen (pathLenByte : ℕ) : Bool :=
  let hashSize := (pathLenByte >>> pathHashSizeShift) + 1
  if hashSize > 3 then false
  else decide ((pathLenByte &&& pathHashCountMask) * hashSize ≤ maxPathSize)

theorem getPathHashSize_eq (b : ℕ) : getPathHashSize b = b / 64 + 1 := by
  simp [getPathHashSize, Nat.shiftRight_eq_div_pow]

theorem getPathHashCount_eq (b : ℕ) : getPathHashCount b = b % 64 := by
  simpa [getPathHashCount] using Nat.and_two_pow_sub_one_eq_mod b 6

theorem getPathByteLen_eq (b : ℕ) :
    getPathByteLen b = getPathHashCount b * getPathHashSize b := rfl

theorem getPathHashSize_pos (b : ℕ) : 0 < getPathHashSize b := Nat.succ_pos _

theorem getPathHashCount_lt (b : ℕ) : getPathHashCount b < 64 := by
  rw [getPathHashCount_eq]; omega

theorem isValidPathLen_iff (b : ℕ) :
    isValidPathLen b = true ↔ getPathHashSize b ≤ 3 ∧ getPathByteLen b ≤ maxPathSize := by
  unfold isValidPathLen getPathHashSize getPathByteLen
  by_cases h : (b >>> pathHashSizeShift) + 1 > 3
  · simp only [h, if_true, Bool.false_eq_true, false_iff]
    omega
  · simp only [h, if_false, decide_eq_true_eq]
    exact ⟨fun hb => ⟨by omega, hb⟩, fun hb => hb.2⟩

theorem isValidPathLen_lt {b : ℕ} (h : isValidPathLen b = true) : b < 192 := by
  have h3 := ((isValidPathLen_iff b).mp h).1
  rw [getPathHashSize_eq] at h3
  omega

theorem shiftLeft_or_eq {w c : ℕ} (hc : c < 64) : (w <<< 6) ||| (c &&& 0x3F) = 64 * w + c := by
  have hm : c &&& 0x3F = c := by
    simpa [Nat.mod_eq_of_lt hc] using Nat.and_two_pow_sub_one_eq_mod c 6
  rw [hm, Nat.shiftLeft_eq, Nat.mul_comm]
  exact (Nat.two_pow_add_eq_or_of_lt (show c < 2 ^ 6 from hc) w).symm

theorem encodePathLen_eq_ok_iff {w c b : ℕ} :
    encodePathLen w c = .ok b ↔ c ≤ 63 ∧ 64 * (w - 1) + c = b := by
  unfold encodePathLen
  split
  · rename_i hc
    simp only [pathHashSizeShift, pathHashCountMask, shiftLeft_or_eq (show c < 64 by omega),
      Except.ok.injEq, hc, true_and]
  · rename_i hc
    simp [hc]

theorem encodePathLen_of_le {w c : ℕ} (hc : c ≤ 63) :
    encodePathLen w c = .ok (64 * (w - 1) + c) :=
  encodePathLen_eq_ok_iff.mpr ⟨hc, rfl⟩

theorem getPathHashSize_pack {w c : ℕ} (hw : 0 < w) (hc : c ≤ 63) :
    getPathHashSize (64 * (w - 1) + c) = w := by
  rw [getPathHashSize_eq]; omega

theorem getPathHashCount_pack {w c : ℕ} (hc : c ≤ 63) :
    getPathHashCount (64 * (w - 1) + c) = c := by
  rw [getPathHashCount_eq]; omega

theorem getPathByteLen_pack {w c : ℕ} (hw : 0 < w) (hc : c ≤ 63) :
    getPathByteLen (64 * (w - 1) + c) = c * w := by
  rw [getPathByteLen_eq, getPathHashSize_pack hw hc, getPathHashCount_pack hc]

theorem isValidPathLen_pack {w c : ℕ} (hw : 0 < w) (hc : c ≤ 63) :
    isValidPathLen (64 * (w - 1) + c) = true ↔ w ≤ 3 ∧ c * w ≤ maxPathSize := by
  rw [isValidPathLen_iff, getPathHashSize_pack hw hc, getPathByteLen_pack hw hc]

end PathUtils

end OpenHop
