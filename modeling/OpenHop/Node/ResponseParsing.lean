import Mathlib.Algebra.Order.Field.Rat
import Mathlib.Data.List.DropRight
import OpenHop.Data.Utf8

/-! # What a response says

The bytes behind the tag of a response are read as sensor records if they begin with the
battery voltage, as the counters of a repeater if these make sense, as text if all of it can
be printed, and otherwise as they are.
-/

namespace OpenHop

/-- The classes of characters that `str.strip` and `str.isprintable` go by. -/
structure CharClass where
  isSpace : Char → Bool
  isPrintable : Char → Bool

namespace Bytes

/-- `int.from_bytes(…, "big", signed=…)` -/
def toIntBE (d : Bytes) (signed : Bool) : ℤ :=
  let n := toNatLE d.reverse
  if signed ∧ 256 ^ d.length ≤ 2 * n then (n : ℤ) - 256 ^ d.length else n

end Bytes

/-- A record of the Cayenne format, with its values in the unit of its type. -/
structure Sensor where
  channel : ℕ
  typeId : ℕ
  value : List ℚ
  rawValue : Bytes
  deriving DecidableEq

/-- `_LPP_TYPES`: size in bytes, divisor and sign of each type. -/
def lppTypes : ℕ → Option (ℕ × ℕ × Bool)
  | 0x00 | 0x01 | 0x66 | 0x78 | 0x8E => some (1, 1, false)
  | 0x02 | 0x03 => some (2, 100, true)
  | 0x64 | 0x76 | 0x85 => some (4, 1, false)
  | 0x65 | 0x7D | 0x80 | 0x84 => some (2, 1, false)
  | 0x67 => some (2, 10, true)
  | 0x68 => some (1, 2, false)
  | 0x71 => some (6, 1000, true)
  | 0x73 => some (2, 10, false)
  | 0x74 => some (2, 100, false)
  | 0x75 => some (2, 1000, true)
  | 0x79 => some (2, 1, true)
  | 0x82 | 0x83 => some (4, 1000, false)
  | 0x86 => some (6, 100, true)
  | 0x87 => some (3, 1, false)
  | 0x88 => some (9, 1, true)
  | 0xF0 => some (8, 1, false)
  | _ => none

/-- The values in a record: position, three axes, colour, none of a line, otherwise one. -/
def lppValue (typeId divisor : ℕ) (signed : Bool) (raw : Bytes) : List ℚ :=
  if typeId = 0x88 then
    [Bytes.toIntBE (raw.take 3) true / 10000, Bytes.toIntBE ((raw.drop 3).take 3) true / 10000,
      Bytes.toIntBE ((raw.drop 6).take 3) true / 100]
  else if typeId = 0x71 ∨ typeId = 0x86 then
    [Bytes.toIntBE (raw.take 2) true / divisor, Bytes.toIntBE ((raw.drop 2).take 2) true / divisor,
      Bytes.toIntBE ((raw.drop 4).take 2) true / divisor]
  else if typeId = 0x87 then raw.map fun b => (b.toNat : ℚ)
  else if typeId = 0xF0 then []
  else [Bytes.toIntBE raw signed / divisor]

/-- Records up to channel zero, an unknown type or a record that is cut off. The first argument
bounds their number. -/
def decodeCayenneLpp : ℕ → Bytes → List Sensor
  | fuel + 1, channel :: typeId :: rest =>
    if channel = 0 then []
    else
      match lppTypes typeId.toNat with
      | none => []
      | some (size, divisor, signed) =>
        if rest.length < size then []
        else
          { channel := channel.toNat
            typeId := typeId.toNat
            value := lppValue typeId.toNat divisor signed (rest.take size)
            rawValue := rest.take size } :: decodeCayenneLpp fuel (rest.drop size)
  | _, _ => []

/-- A record of a known type and its full size, on a channel that is not zero. -/
def IsRecord (channel typeId : UInt8) (raw : Bytes) : Prop :=
  channel ≠ 0 ∧ ∃ divisor signed, lppTypes typeId.toNat = some (raw.length, divisor, signed)

/-- Complete records are read back, whatever number of zeros pads them. -/
theorem decodeCayenneLpp_records {records : List (UInt8 × UInt8 × Bytes)} {fuel : ℕ}
    (h : ∀ r ∈ records, IsRecord r.1 r.2.1 r.2.2) (hfuel : records.length ≤ fuel) (n : ℕ) :
    (decodeCayenneLpp fuel
        (records.flatMap (fun r => r.1 :: r.2.1 :: r.2.2) ++ List.replicate n 0)).map
        (fun s => (s.channel, s.typeId, s.rawValue)) =
      records.map fun r => (r.1.toNat, r.2.1.toNat, r.2.2) := by
  induction records generalizing fuel with
  | nil =>
    match fuel, n with
    | 0, _ => rfl
    | _ + 1, 0 => rfl
    | _ + 1, 1 => rfl
    | _ + 1, n + 2 => rfl
  | cons r records ih =>
    obtain ⟨channel, typeId, raw⟩ := r
    obtain ⟨hchannel, divisor, signed, htype⟩ := h _ List.mem_cons_self
    obtain ⟨fuel, rfl⟩ : ∃ k, fuel = k + 1 := ⟨fuel - 1, by simp at hfuel; omega⟩
    have hrest := ih (fun r hr => h r (List.mem_cons_of_mem _ hr)) (Nat.le_of_succ_le_succ hfuel)
    rw [List.flatMap_cons, List.append_assoc, List.cons_append, List.cons_append, decodeCayenneLpp,
      if_neg hchannel, htype]
    dsimp only
    rw [if_neg (by simp), List.take_left, List.drop_left, List.map_cons, List.map_cons, hrest]

/-- A voltage and a temperature. -/
theorem decodeCayenneLpp_voltage :
    (decodeCayenneLpp 2 [1, 0x74, 1, 72, 2, 0x67, 0, 215, 0]).map
        (fun s => (s.channel, s.typeId, s.rawValue)) =
      [(1, 0x74, [1, 72]), (2, 0x67, [0, 215])] := by
  have h : ∀ r ∈ [((1, 0x74, [1, 72]) : UInt8 × UInt8 × Bytes), (2, 0x67, [0, 215])],
      IsRecord r.1 r.2.1 r.2.2 :=
    List.forall_mem_cons.mpr ⟨⟨by decide, _, _, rfl⟩,
      List.forall_mem_singleton.mpr ⟨by decide, _, _, rfl⟩⟩
  exact decodeCayenneLpp_records h le_rfl 1

inductive ParsedResponse where
  | telemetry (reflectedTimestamp : ℕ) (sensors : List Sensor) (rawBytes : Bytes)
  | stats (fields : List ℤ) (rawBytes : Bytes)
  | text (content : List Char)
  | binary (data : Bytes)
  deriving DecidableEq

/-- A login reply: tag, a code of zero or one, and eight bytes more. -/
def isLoginReply (responseData : Bytes) : Bool :=
  responseData.length == 9 &&
    (responseData.head? == some 0x00 || responseData.head? == some 0x01)

def parseTelemetryResponse (data : Bytes) : Option ParsedResponse :=
  if data.length < 8 then none
  else
    let lppData := data.drop 4
    if lppData.take 2 ≠ [0x01, 0x74] then none
    else
      let sensors := decodeCayenneLpp lppData.length lppData
      if sensors = [] then none
      else some (.telemetry (Bytes.toNatLE (data.take 4)) sensors lppData)

/-- The fields of `RepeaterStats`: their widths, and whether they are signed. -/
def statsLayout : List (ℕ × Bool) :=
  [(2, false), (2, false), (2, true), (2, true)] ++ List.replicate 8 (4, false) ++
    [(2, false), (2, true), (2, false), (2, false), (4, false), (4, false)]

/-- `struct.unpack` of little-endian fields. -/
def unpackFields : List (ℕ × Bool) → Bytes → List ℤ
  | [], _ => []
  | (width, signed) :: fields, data =>
    Bytes.toIntBE (data.take width).reverse signed :: unpackFields fields (data.drop width)

/-- The counters of a repeater, if voltage and signal strength can be right. -/
def parseStatsResponse (data : Bytes) : Option ParsedResponse :=
  if data.length < 56 then none
  else
    let statsData := (data.drop 4).rightpad 56 0
    let fields := unpackFields statsLayout (statsData.take 56)
    let battMilliVolts := fields.getD 0 0
    let lastRssi := fields.getD 3 0
    if battMilliVolts > 20000 ∨ lastRssi < -200 ∨ lastRssi > 0 then none
    else some (.stats fields (statsData.take 56))

def parseTextResponse (cls : CharClass) (data : Bytes) : Option ParsedResponse :=
  if data.length ≤ 4 then none
  else
    (Utf8.decode? ((data.drop 4).rdropWhile (· = 0))).bind fun candidate =>
      let content := (candidate.dropWhile cls.isSpace).rdropWhile cls.isSpace
      if content ≠ [] ∧ content.all cls.isPrintable then some (.text content) else none

def parseProtocolResponse (cls : CharClass) (data : Bytes) : ParsedResponse :=
  if data.length = 13 ∧ isLoginReply (data.drop 4) then .binary data
  else
    ((parseTelemetryResponse data).or ((parseStatsResponse data).or
      (parseTextResponse cls data))).getD (.binary data)

end OpenHop
