import Mathlib.Data.List.TakeWhile
import OpenHop.Protocol.Advert
import OpenHop.Protocol.PacketBuilder

/-! # Advert application data

The encoder of an advert's application data sets the flag of each field it is given and
writes the fields in the order the decoder reads them. The name comes last and gets the
space that is left, cut at a byte.
-/

namespace OpenHop

@[simp] def advertFlagHasLocation : ℕ := 0x10
@[simp] def advertFlagHasFeature1 : ℕ := 0x20
@[simp] def advertFlagHasFeature2 : ℕ := 0x40
@[simp] def advertFlagHasName : ℕ := 0x80

/-- `struct.pack("<i", n)` -/
def packInt32 (n : ℤ) : Except PacketError Bytes :=
  if -2 ^ 31 ≤ n ∧ n < 2 ^ 31 then .ok (Bytes.le 4 (n % 2 ^ 32).toNat) else .error .structError

/-- `int(x)`, which drops the fraction. -/
def truncate (x : ℚ) : ℤ := x.num.tdiv x.den

/-- `struct.pack("<H", n)` -/
def packUInt16 (n : ℕ) : Except PacketError Bytes :=
  match Bytes.ofNatLE? 2 n with
  | some d => .ok d
  | none => .error .structError

namespace PacketBuilder

/-- `if given: flags |= flag` -/
def withFlag (given : Bool) (flag flags : ℕ) : ℕ := if given then flags ||| flag else flags

def advertFlags (name : List Char) (lat lon : ℚ) (feature1 feature2 flags : ℕ) : ℕ :=
  withFlag (name ≠ []) advertFlagHasName <|
    withFlag (feature2 ≠ 0) advertFlagHasFeature2 <|
      withFlag (feature1 ≠ 0) advertFlagHasFeature1 <|
        withFlag (lat ≠ 0 ∨ lon ≠ 0) advertFlagHasLocation flags

/-- `if flags & flag: buf += field` -/
def announced (flags flag : ℕ) (field : Except PacketError Bytes) : Except PacketError Bytes :=
  if flags &&& flag ≠ 0 then field else .ok []

def encodeAdvertData (name : List Char) (lat lon : ℚ) (feature1 feature2 flags : ℕ) :
    Except PacketError Bytes := do
  let finalFlags := advertFlags name lat lon feature1 feature2 flags
  let head ← Packet.byte finalFlags
  let location ← announced finalFlags advertFlagHasLocation do
    let latInt ← packInt32 (truncate (lat * 1000000))
    let lonInt ← packInt32 (truncate (lon * 1000000))
    return latInt ++ lonInt
  let first ← announced finalFlags advertFlagHasFeature1 (packUInt16 feature1)
  let second ← announced finalFlags advertFlagHasFeature2 (packUInt16 feature2)
  let buf := head ++ location ++ first ++ second
  -- the name gets the space that is left
  let remaining := maxAdvertDataSize - buf.length
  let nameBytes ← announced finalFlags advertFlagHasName
    (.ok ((Utf8.encode name).take remaining))
  return buf ++ nameBytes

/-- `sign` of the local identity. -/
structure Signer where
  sign : Bytes → Bytes
  length_sign : ∀ d, (sign d).length = signatureSize

def createAdvert {Seed : Type} (c : Crypto Seed) (signer : Signer) (localIdentity : Seed)
    (name : List Char) (lat lon : ℚ) (feature1 feature2 flags : ℕ) (route : RouteName)
    (timestamp : ℕ) : Except PacketError Packet := do
  let pubkey := c.publicKey localIdentity
  let tsBytes ← packUInt32 timestamp
  let appdata ← encodeAdvertData name lat lon feature1 feature2 flags
  if appdata.length > maxAdvertDataSize then .error (.advertDataTooLarge appdata.length)
  else
    let signature := signer.sign (pubkey ++ tsBytes ++ appdata)
    createPacket (createHeader payloadTypeAdvert route) (pubkey ++ tsBytes ++ signature ++ appdata)

theorem announced_ok (flags flag : ℕ) (d : Bytes) :
    announced flags flag (.ok d) = .ok (if flags &&& flag ≠ 0 then d else []) := by
  rw [announced]
  split <;> rfl

end PacketBuilder

theorem int32LE_le {n : ℤ} (hlo : -2 ^ 31 ≤ n) (hhi : n < 2 ^ 31) :
    int32LE (Bytes.le 4 (n % 2 ^ 32).toNat) = n := by
  have hlt : (n % 2 ^ 32).toNat < 256 ^ 4 := by omega
  simp only [int32LE, Bytes.toNatLE_le 4 _ hlt]
  split <;> omega

theorem truncate_intCast (n : ℤ) : truncate n = n := by
  simp [truncate]

/-- A coordinate that is held exactly by a signed number of micro-degrees. -/
def IsMicrodegrees (x : ℚ) : Prop := ∃ n : ℤ, -2 ^ 31 ≤ n ∧ n < 2 ^ 31 ∧ x = n / 1000000

theorem IsMicrodegrees.pack {x : ℚ} (h : IsMicrodegrees x) :
    ∃ d, packInt32 (truncate (x * 1000000)) = .ok d ∧ d.length = 4 ∧
      (int32LE d : ℚ) / 1000000 = x := by
  obtain ⟨n, hlo, hhi, rfl⟩ := h
  have hmul : (n : ℚ) / 1000000 * 1000000 = (n : ℚ) :=
    div_mul_cancel₀ _ (by norm_num)
  refine ⟨Bytes.le 4 (n % 2 ^ 32).toNat, ?_, Bytes.length_le _ _, ?_⟩
  · rw [hmul, truncate_intCast, packInt32, if_pos ⟨hlo, hhi⟩]
  · rw [int32LE_le hlo hhi]

def appdataLayout (flags : UInt8) (lat lon feature1 feature2 rest : Bytes) : Bytes :=
  [flags] ++ (if flags.toNat &&& advertFlagHasLocation ≠ 0 then lat ++ lon else []) ++
    (if flags.toNat &&& advertFlagHasFeature1 ≠ 0 then feature1 else []) ++
    (if flags.toNat &&& advertFlagHasFeature2 ≠ 0 then feature2 else []) ++ rest

theorem decodeAppdata_layout {flags : UInt8} {lat lon feature1 feature2 : Bytes}
    (hlat : lat.length = 4) (hlon : lon.length = 4) (h1 : feature1.length = 2)
    (h2 : feature2.length = 2) (rest : Bytes) :
    decodeAppdata (appdataLayout flags lat lon feature1 feature2 rest) = .ok
      { flags := flags.toNat
        latitude := if flags.toNat &&& advertFlagHasLocation ≠ 0 then
          some (int32LE lat / 1000000) else none
        longitude := if flags.toNat &&& advertFlagHasLocation ≠ 0 then
          some (int32LE lon / 1000000) else none
        feature1 := if flags.toNat &&& advertFlagHasFeature1 ≠ 0 then
          some (Bytes.toNatLE feature1) else none
        feature2 := if flags.toNat &&& advertFlagHasFeature2 ≠ 0 then
          some (Bytes.toNatLE feature2) else none
        nodeName := appdataName flags.toNat rest } := by
  obtain ⟨a, b, c, d, rfl⟩ := List.length_eq_four.mp hlat
  obtain ⟨e, f, g, i, rfl⟩ := List.length_eq_four.mp hlon
  obtain ⟨j, k, rfl⟩ := List.length_eq_two.mp h1
  obtain ⟨l, m, rfl⟩ := List.length_eq_two.mp h2
  unfold appdataLayout decodeAppdata
  by_cases hloc : flags.toNat &&& 0x10 = 0 <;> by_cases hone : flags.toNat &&& 0x20 = 0 <;>
    by_cases htwo : flags.toNat &&& 0x40 = 0 <;> simp [hloc, hone, htwo]

theorem length_appdataLayout {flags : UInt8} {lat lon feature1 feature2 : Bytes}
    (hlat : lat.length = 4) (hlon : lon.length = 4) (h1 : feature1.length = 2)
    (h2 : feature2.length = 2) (rest : Bytes) :
    (appdataLayout flags lat lon feature1 feature2 rest).length =
      1 + (if flags.toNat &&& advertFlagHasLocation ≠ 0 then 8 else 0) +
        (if flags.toNat &&& advertFlagHasFeature1 ≠ 0 then 2 else 0) +
        (if flags.toNat &&& advertFlagHasFeature2 ≠ 0 then 2 else 0) + rest.length := by
  unfold appdataLayout
  simp only [List.length_append, apply_ite List.length, hlat, hlon, h1, h2, List.length_nil,
    List.length_singleton]

namespace PacketBuilder

theorem withFlag_bits : ∀ t < 16, ∀ location first second named : Bool,
    let flags := withFlag named 0x80 (withFlag second 0x40 (withFlag first 0x20
      (withFlag location 0x10 t)))
    flags < 256 ∧ (flags &&& 0x10 ≠ 0 ↔ location = true) ∧ (flags &&& 0x20 ≠ 0 ↔ first = true) ∧
      (flags &&& 0x40 ≠ 0 ↔ second = true) ∧ (flags &&& 0x80 ≠ 0 ↔ named = true) ∧
      flags &&& 0x0F = t := by
  decide

/-- What the flag byte says of the fields. -/
structure FlagsOf (name : List Char) (lat lon : ℚ) (feature1 feature2 type flags : ℕ) : Prop where
  lt : flags < 256
  location : flags &&& advertFlagHasLocation ≠ 0 ↔ lat ≠ 0 ∨ lon ≠ 0
  first : flags &&& advertFlagHasFeature1 ≠ 0 ↔ feature1 ≠ 0
  second : flags &&& advertFlagHasFeature2 ≠ 0 ↔ feature2 ≠ 0
  named : flags &&& advertFlagHasName ≠ 0 ↔ name ≠ []
  type : flags &&& 0x0F = type

variable {name : List Char} {lat lon : ℚ} {feature1 feature2 type : ℕ}

theorem flagsOf_advertFlags (name : List Char) (lat lon : ℚ) (feature1 feature2 : ℕ)
    (htype : type < 16) :
    FlagsOf name lat lon feature1 feature2 type
      (advertFlags name lat lon feature1 feature2 type) := by
  obtain ⟨hlt, hlocation, hfirst, hsecond, hnamed, hnibble⟩ := withFlag_bits type htype
    (lat ≠ 0 ∨ lon ≠ 0) (feature1 ≠ 0) (feature2 ≠ 0) (name ≠ [])
  exact ⟨hlt, hlocation.trans decide_eq_true_iff, hfirst.trans decide_eq_true_iff,
    hsecond.trans decide_eq_true_iff, hnamed.trans decide_eq_true_iff, hnibble⟩

/-- The bytes that the other fields leave for the name. -/
def nameSpace (lat lon : ℚ) (feature1 feature2 : ℕ) : ℕ :=
  maxAdvertDataSize - (1 + (if lat ≠ 0 ∨ lon ≠ 0 then 8 else 0) +
    (if feature1 ≠ 0 then 2 else 0) + if feature2 ≠ 0 then 2 else 0)

theorem packUInt16_of_lt {n : ℕ} (h : n < 2 ^ 16) : packUInt16 n = .ok (Bytes.le 2 n) := by
  rw [packUInt16, Bytes.ofNatLE?_eq_some.mpr ⟨h, rfl⟩]

theorem encodeAdvertData_eq (hname : name ≠ []) (hlat : IsMicrodegrees lat)
    (hlon : IsMicrodegrees lon) (h1 : feature1 < 2 ^ 16) (h2 : feature2 < 2 ^ 16)
    (htype : type < 16) :
    ∃ latInt lonInt : Bytes, latInt.length = 4 ∧ lonInt.length = 4 ∧
      (int32LE latInt : ℚ) / 1000000 = lat ∧ (int32LE lonInt : ℚ) / 1000000 = lon ∧
      encodeAdvertData name lat lon feature1 feature2 type = .ok
        (appdataLayout (UInt8.ofNat (advertFlags name lat lon feature1 feature2 type))
          latInt lonInt (Bytes.le 2 feature1) (Bytes.le 2 feature2)
          ((Utf8.encode name).take (nameSpace lat lon feature1 feature2))) := by
  obtain ⟨latInt, hpackLat, hlatLen, hlatEq⟩ := hlat.pack
  obtain ⟨lonInt, hpackLon, hlonLen, hlonEq⟩ := hlon.pack
  refine ⟨latInt, lonInt, hlatLen, hlonLen, hlatEq, hlonEq, ?_⟩
  have hflags := flagsOf_advertFlags name lat lon feature1 feature2 htype
  generalize hf : advertFlags name lat lon feature1 feature2 type = flags at hflags ⊢
  have hbyte : (UInt8.ofNat flags).toNat = flags := Bytes.toNat_ofNat_of_lt hflags.lt
  have hspace : nameSpace lat lon feature1 feature2 =
      maxAdvertDataSize - (appdataLayout (UInt8.ofNat flags) latInt lonInt (Bytes.le 2 feature1)
        (Bytes.le 2 feature2) []).length := by
    rw [length_appdataLayout hlatLen hlonLen (Bytes.length_le _ _) (Bytes.length_le _ _), hbyte]
    simp only [hflags.location, hflags.first, hflags.second, nameSpace, List.length_nil,
      Nat.add_zero]
  have hlocation : (do
      let latInt ← packInt32 (truncate (lat * 1000000))
      let lonInt ← packInt32 (truncate (lon * 1000000))
      return latInt ++ lonInt) = Except.ok (latInt ++ lonInt) := by
    rw [hpackLat, hpackLon]
    rfl
  have hhead : Packet.byte flags = .ok [UInt8.ofNat flags] := if_pos hflags.lt
  have happend : ∀ rest, appdataLayout (UInt8.ofNat flags) latInt lonInt (Bytes.le 2 feature1)
      (Bytes.le 2 feature2) rest = appdataLayout (UInt8.ofNat flags) latInt lonInt
        (Bytes.le 2 feature1) (Bytes.le 2 feature2) [] ++ rest := by
    intro rest
    rw [appdataLayout, appdataLayout, List.append_nil]
  rw [happend, hspace]
  unfold encodeAdvertData appdataLayout
  simp only [hf, hbyte, hlocation, hhead, packUInt16_of_lt h1, packUInt16_of_lt h2, announced_ok,
    if_pos (hflags.named.mpr hname), List.append_nil]
  rfl

theorem length_encodeChar_le (c : Char) : (String.utf8EncodeChar c).length ≤ 4 := by
  rw [String.length_utf8EncodeChar]
  exact c.utf8Size_le_four

/-- The cut of a name to a number of bytes shows no trace: it is between two characters or inside
a replacement character. -/
def CutsCleanly (space : ℕ) (name : List Char) : Prop :=
  (Utf8.encode name).take space = Utf8.encode (Utf8.fit space name) ∨
    Utf8.fit space name ++ ['\uFFFD'] <+: name

theorem decodeName_take_encode (space : ℕ) (name : List Char) :
    decodeName ((Utf8.encode name).take space) = Utf8.fit space name ++
      if (Utf8.encode name).take space = Utf8.encode (Utf8.fit space name) then []
      else ['\uFFFD'] := by
  by_cases hcut : (Utf8.encode name).take space = Utf8.encode (Utf8.fit space name)
  · rw [if_pos hcut, hcut, decodeName, Utf8.decode?_encode, Option.getD_some, List.append_nil]
  · rw [decodeName, Utf8.decode?_take_encode_of_ne hcut, Option.getD_none,
      Utf8.decodeReplace_take_encode]

theorem cutsCleanly_iff (space : ℕ) (name : List Char) :
    decodeName ((Utf8.encode name).take space) <+: name ↔ CutsCleanly space name := by
  rw [decodeName_take_encode, CutsCleanly]
  split
  · rename_i hcut
    rw [List.append_nil]
    exact iff_of_true (Utf8.fit_longest space name).isPrefix (Or.inl hcut)
  · rename_i hcut
    exact (or_iff_right hcut).symm

theorem appdataName_take_encode {flags space : ℕ} (hflag : flags &&& 0x80 ≠ 0) (hspace : 4 ≤ space)
    (hname : name ≠ []) (hnul : '\x00' ∉ name) :
    appdataName flags ((Utf8.encode name).take space) =
      some (decodeName ((Utf8.encode name).take space)) := by
  have hzero : ((Utf8.encode name).take space).takeWhile (· ≠ 0) =
      (Utf8.encode name).take space := by
    rw [List.takeWhile_eq_self_iff]
    intro b hb
    exact decide_eq_true fun h0 => Utf8.zero_notMem_encode hnul (h0 ▸ List.mem_of_mem_take hb)
  have hdecoded : decodeName ((Utf8.encode name).take space) ≠ [] := by
    obtain ⟨c, cs, rfl⟩ := List.exists_cons_of_ne_nil hname
    rw [decodeName_take_encode, Utf8.fit, if_pos ((length_encodeChar_le c).trans hspace)]
    exact List.cons_ne_nil _ _
  have hrest : (Utf8.encode name).take space ≠ [] := by
    intro hnil
    rw [hnil] at hdecoded
    exact hdecoded rfl
  rw [appdataName, if_pos ⟨hflag, hrest⟩]
  dsimp only
  rw [hzero, if_pos hdecoded]

/-- What is encoded is decoded again, within the size of the application data; only the name may
come back changed, just if it is cut inside a character. -/
theorem decodeAppdata_encodeAdvertData (name : List Char) (lat lon : ℚ)
    (feature1 feature2 type : ℕ) (hname : name ≠ []) (hnul : '\x00' ∉ name)
    (hlat : IsMicrodegrees lat) (hlon : IsMicrodegrees lon) (h1 : feature1 < 2 ^ 16)
    (h2 : feature2 < 2 ^ 16) (htype : type < 16) :
    ∃ data decoded, encodeAdvertData name lat lon feature1 feature2 type = .ok data ∧
      data.length ≤ maxAdvertDataSize ∧ decodeAppdata data = .ok decoded ∧
      decoded.flags &&& 0x0F = type ∧
      (lat ≠ 0 ∨ lon ≠ 0 → decoded.latitude = some lat ∧ decoded.longitude = some lon) ∧
      (feature1 ≠ 0 → decoded.feature1 = some feature1) ∧
      (feature2 ≠ 0 → decoded.feature2 = some feature2) ∧
      ((∃ nodeName, decoded.nodeName = some nodeName ∧ nodeName <+: name) ↔
        CutsCleanly (nameSpace lat lon feature1 feature2) name) := by
  obtain ⟨latInt, lonInt, hlatLen, hlonLen, hlatEq, hlonEq, hencode⟩ :=
    encodeAdvertData_eq hname hlat hlon h1 h2 htype
  have hflags := flagsOf_advertFlags name lat lon feature1 feature2 htype
  have hbyte := Bytes.toNat_ofNat_of_lt hflags.lt
  refine ⟨_, _, hencode, ?_, decodeAppdata_layout hlatLen hlonLen (Bytes.length_le _ _)
    (Bytes.length_le _ _) _, ?_, ?_, ?_, ?_, ?_⟩
  · rw [length_appdataLayout hlatLen hlonLen (Bytes.length_le _ _) (Bytes.length_le _ _), hbyte,
      List.length_take]
    simp only [hflags.location, hflags.first, hflags.second, nameSpace]
    split_ifs <;> simp only [maxAdvertDataSize] <;> omega
  · rw [hbyte]
    exact hflags.type
  · intro hgiven
    simp only [hbyte, if_pos (hflags.location.mpr hgiven), hlatEq, hlonEq, and_self]
  · intro hgiven
    simp only [hbyte, if_pos (hflags.first.mpr hgiven), Bytes.toNatLE_le 2 feature1 h1]
  · intro hgiven
    simp only [hbyte, if_pos (hflags.second.mpr hgiven), Bytes.toNatLE_le 2 feature2 h2]
  · have hspace : 4 ≤ nameSpace lat lon feature1 feature2 := by
      unfold nameSpace
      split_ifs <;> decide
    dsimp only
    rw [hbyte, appdataName_take_encode (hflags.named.mpr hname) hspace hname hnul,
      ← cutsCleanly_iff]
    constructor
    · rintro ⟨nodeName, heq, hprefix⟩
      exact Option.some.inj heq ▸ hprefix
    · intro hprefix
      exact ⟨_, rfl, hprefix⟩

/-- A name of 32 bytes whose last character takes two of them: there is space for 31. -/
theorem decodeAppdata_cut_name :
    let name := List.replicate 30 'a' ++ ['é']
    ∃ data decoded nodeName, encodeAdvertData name 0 0 0 0 1 = .ok data ∧
      decodeAppdata data = .ok decoded ∧ decoded.nodeName = some nodeName ∧
      nodeName = List.replicate 30 'a' ++ ['\uFFFD'] ∧ ¬nodeName <+: name := by
  refine ⟨_, _, _, rfl, rfl, rfl, rfl, ?_⟩
  decide

/-- A name that fits comes back with the place. -/
theorem decodeAppdata_encodeAdvertData_fits :
    ∃ data decoded, encodeAdvertData ['K', 'ö', 'l', 'n'] (50938056 / 1000000) (6956944 / 1000000)
        7 0 2 = .ok data ∧ decodeAppdata data = .ok decoded ∧
      decoded.latitude = some (50938056 / 1000000) ∧ decoded.feature1 = some 7 ∧
      ∃ nodeName, decoded.nodeName = some nodeName ∧ nodeName <+: ['K', 'ö', 'l', 'n'] := by
  obtain ⟨data, decoded, hencode, -, hdecode, -, hplace, hfirst, -, hname⟩ :=
    decodeAppdata_encodeAdvertData ['K', 'ö', 'l', 'n'] (50938056 / 1000000) (6956944 / 1000000)
      7 0 2 (by decide) (by decide) ⟨50938056, by decide, by decide, rfl⟩
      ⟨6956944, by decide, by decide, rfl⟩ (by decide) (by decide) (by decide)
  refine ⟨data, decoded, hencode, hdecode, (hplace (Or.inl (by decide +kernel))).1,
    hfirst (by decide), hname.mpr (Or.inl (by decide +kernel))⟩

end PacketBuilder

end OpenHop
