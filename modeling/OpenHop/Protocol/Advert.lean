import OpenHop.Data.Result
import OpenHop.Data.Utf8
import OpenHop.Protocol.Constants

/-! # Advert payloads

An advert is a public key, a timestamp, a signature and application data. The
application data starts with a flag byte that says which of location, feature
words and name follow.
-/

namespace OpenHop

inductive AdvertError where
  | payloadTooShort (length minimum : ℕ)
  | appdataTooShort
  | appdataTruncated (available required : ℕ)
  deriving DecidableEq

/-- The fields of an advert payload. -/
structure Advert where
  pubkey : Bytes
  timestamp : ℕ
  signature : Bytes
  appdata : Bytes
  deriving DecidableEq

def parseAdvertPayload (payload : Bytes) : Except AdvertError Advert :=
  let minLen := pubKeySize + timestampSize + signatureSize
  if payload.length < minLen then .error (.payloadTooShort payload.length minLen)
  else
    let sigStart := pubKeySize + timestampSize
    .ok
      { pubkey := payload.take pubKeySize
        timestamp := Bytes.toNatLE ((payload.drop pubKeySize).take timestampSize)
        signature := (payload.drop sigStart).take signatureSize
        appdata := payload.drop (sigStart + signatureSize) }

theorem parseAdvertPayload_pubkey_length {payload : Bytes} {advert : Advert}
    (h : parseAdvertPayload payload = .ok advert) : advert.pubkey.length = pubKeySize := by
  simp only [parseAdvertPayload, ite_error_eq_ok] at h
  obtain ⟨hlen, hok⟩ := h
  cases hok
  simp only [pubKeySize, timestampSize, signatureSize, not_lt] at hlen ⊢
  rw [List.length_take]
  omega

def isSelfAdvert (payload selfPublicKey : Bytes) : Bool :=
  !selfPublicKey.isEmpty && decide (pubKeySize ≤ payload.length)
    && payload.take pubKeySize == selfPublicKey

/-- What the application data says. -/
structure Appdata where
  flags : ℕ
  latitude : Option ℚ := none
  longitude : Option ℚ := none
  feature1 : Option ℕ := none
  feature2 : Option ℕ := none
  nodeName : Option (List Char) := none

def int32LE (d : Bytes) : ℤ :=
  let n := Bytes.toNatLE d
  if n < 2 ^ 31 then n else n - 2 ^ 32

def decodeName (d : Bytes) : List Char := (Utf8.decode? d).getD (Utf8.decodeReplace d)

/-- The name fills the rest of the data up to a zero byte; an empty name counts as none. -/
def appdataName (flags : ℕ) (rest : Bytes) : Option (List Char) :=
  if flags &&& 0x80 ≠ 0 ∧ rest ≠ [] then
    let name := decodeName (rest.takeWhile (· ≠ 0))
    if name ≠ [] then some name else none
  else none

def decodeAppdata (appdata : Bytes) : Except AdvertError Appdata :=
  match appdata with
  | [] => .error .appdataTooShort
  | b :: _ =>
    let flags := b.toNat
    let hasLocation := flags &&& 0x10 ≠ 0
    let hasFeature1 := flags &&& 0x20 ≠ 0
    let hasFeature2 := flags &&& 0x40 ≠ 0
    -- where each optional field ends, so that the last one is also the required length
    let afterLocation := 1 + if hasLocation then 8 else 0
    let afterFeature1 := afterLocation + if hasFeature1 then 2 else 0
    let offset := afterFeature1 + if hasFeature2 then 2 else 0
    if appdata.length < offset then .error (.appdataTruncated appdata.length offset)
    else
      let coordinate (i : ℕ) : ℚ := int32LE ((appdata.drop i).take 4) / 1000000
      let feature (i : ℕ) : ℕ := Bytes.toNatLE ((appdata.drop i).take 2)
      .ok
        { flags := flags
          latitude := if hasLocation then some (coordinate 1) else none
          longitude := if hasLocation then some (coordinate 5) else none
          feature1 := if hasFeature1 then some (feature afterLocation) else none
          feature2 := if hasFeature2 then some (feature afterFeature1) else none
          nodeName := appdataName flags (appdata.drop offset) }

theorem appdataName_ne_nil {flags : ℕ} {rest : Bytes} {name : List Char}
    (h : appdataName flags rest = some name) : name ≠ [] := by
  unfold appdataName at h
  split at h
  · dsimp only at h
    split at h
    · rename_i hne
      exact Option.some.inj h ▸ hne
    · cases h
  · cases h

theorem decodeAppdata_nodeName_ne_nil {appdata : Bytes} {decoded : Appdata} {name : List Char}
    (h : decodeAppdata appdata = .ok decoded) (hname : decoded.nodeName = some name) :
    name ≠ [] := by
  cases appdata with
  | nil => cases h
  | cons b rest =>
    simp only [decodeAppdata, ite_error_eq_ok] at h
    obtain ⟨_, hok⟩ := h
    cases hok
    exact appdataName_ne_nil hname

def determineContactTypeFromFlags (flags : ℕ) : ℕ :=
  let nodeType := flags &&& 0x0F
  if nodeType = 0x03 then 3
  else if nodeType = 0x02 then 2
  else if nodeType = 0x01 then 1
  else if nodeType = 0x04 then 4
  else 0

end OpenHop
