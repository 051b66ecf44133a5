import OpenHop.Companion.AdvertEvents
import OpenHop.Companion.FrameServer
import OpenHop.Protocol.AdvertData

/-! # Contact frames

The app reads and edits contacts as records whose fields stand at fixed offsets. The encoder
pads each field to its width and the parser takes them apart again, with defaults for the
fields a short record leaves out.
-/

namespace OpenHop

@[simp] def contactNameSize : ℕ := 32
@[simp] def outPathUnknown : ℕ := 0xFF
@[simp] def respCodeOk : ℕ := 0
@[simp] def errCodeTableFull : ℕ := 3

/-- A field of `size` bytes, cut or padded with zeros. -/
def fixedField (size : ℕ) (d : Bytes) : Bytes := (d.take size).rightpad size 0

namespace Contact

def oplByte (c : Contact) : ℕ :=
  if c.outPathLen < 0 then outPathUnknown else min c.outPathLen.toNat 255

def encodeContactFields (c : Contact) : Except PacketError Bytes := do
  let head ← FrameServer.byteString [c.advType, c.flags, c.oplByte]
  let lastAdvert ← PacketBuilder.packUInt32 c.lastAdvertTimestamp
  let lat ← packInt32 (truncate (c.gpsLat * 1000000))
  let lon ← packInt32 (truncate (c.gpsLon * 1000000))
  let lastmod ← PacketBuilder.packUInt32 c.lastmod
  return [fixedField pubKeySize c.publicKey, head, fixedField maxPathSize c.outPath,
    fixedField contactNameSize (Utf8.encode c.name), lastAdvert, lat, lon, lastmod].flatten

/-- The contact that `_cmd_add_update_contact` builds from at least 36 bytes. -/
def ofFrame (data : Bytes) (now : ℕ) : Contact :=
  let lenByte := (data.getD 34 0).toNat
  let outPathLen : ℤ := if lenByte = outPathUnknown then -1 else lenByte
  let pathField := (data.drop 35).take maxPathSize
  -- only the bytes the length byte counts belong to the route
  let pathByteLen := if 0 ≤ outPathLen then PathUtils.getPathByteLen lenByte else 0
  let nameRaw := fixedField contactNameSize (data.drop 99)
  let coordinate (i : ℕ) : ℚ := int32LE ((data.drop i).take 4) / 1000000
  { publicKey := data.take pubKeySize
    name := Utf8.decodeReplace (nameRaw.takeWhile (· ≠ 0))
    advType := (data.getD 32 0).toNat
    flags := (data.getD 33 0).toNat
    outPathLen := outPathLen
    outPath := pathField.take pathByteLen
    lastAdvertTimestamp :=
      if 135 ≤ data.length then Bytes.toNatLE ((data.drop 131).take 4) else 0
    gpsLat := if 143 ≤ data.length then coordinate 135 else 0
    gpsLon := if 143 ≤ data.length then coordinate 139 else 0
    lastmod := if 147 ≤ data.length then Bytes.toNatLE ((data.drop 143).take 4) else now }

def dated (c : Contact) (now : ℕ) : Contact :=
  if c.lastmod = 0 then { c with lastmod := now } else c

end Contact

namespace ContactStore

def addUpdateContact (s : ContactStore) (c : Contact) (now : ℕ) : Bool × ContactStore :=
  s.add (c.dated now)

/-- The export of a stored peer: its last advert as it was received. -/
def exportContact (s : ContactStore) (key : Bytes) : Option Bytes :=
  match s.getByKey key with
  | some { lastAdvertPacket := some (b :: blob), .. } => some (b :: blob)
  | _ => none

/-- The zero-hop packet that `share_contact` sends, if it gets that far. -/
def shareContact (s : ContactStore) (key : Bytes) : Option Packet := do
  let blob ← s.exportContact key
  let pkt ← (Packet.readFrom {} blob).toOption
  if pkt.getPayloadType ≠ payloadTypeAdvert then none
  else if pubKeySize ≤ pkt.payload.length ∧ pkt.payload.take pubKeySize ≠ key then none
  else
    some { pkt with
      header := ((pkt.header >>> phTypeShift) <<< phTypeShift) ||| routeTypeDirect
      transportCodes := (0, 0)
      pathLen := 0
      path := [] }

end ContactStore

/-- The frame server with the contacts of its bridge; `saves` counts the calls of the
persistence hook. -/
structure ContactServer where
  server : FrameServer := {}
  contacts : ContactStore := {}
  saves : ℕ := 0

namespace ContactServer

def writeOk (s : FrameServer) : FrameServer := s.enqueueFrame [UInt8.ofNat respCodeOk]

/-- The clock is read at `now`, and at `later` once the record is parsed. -/
def cmdAddUpdateContact (s : ContactServer) (data : Bytes) (now later : ℕ) : ContactServer :=
  if data.length < 36 then { s with server := s.server.writeErr errCodeIllegalArg }
  else
    let (ok, contacts) := s.contacts.addUpdateContact (Contact.ofFrame data now) later
    if ok then { server := writeOk s.server, contacts, saves := s.saves + 1 }
    else { s with server := s.server.writeErr errCodeTableFull, contacts }

end ContactServer

@[simp] theorem length_fixedField (size : ℕ) (d : Bytes) : (fixedField size d).length = size := by
  simp only [fixedField, List.length_rightpad, List.length_take]
  omega

theorem fixedField_of_le {size : ℕ} {d : Bytes} (h : d.length ≤ size) :
    fixedField size d = d ++ List.replicate (size - d.length) 0 := by
  rw [fixedField, List.take_of_length_le h, List.rightpad]

theorem fixedField_eq_take {size : ℕ} {d : Bytes} (h : (d.take size).length = size) :
    fixedField size d = d.take size := by
  rw [fixedField, List.rightpad, h, Nat.sub_self, List.replicate_zero, List.append_nil]

theorem fixedField_of_length {size : ℕ} {d : Bytes} (h : d.length = size) :
    fixedField size d = d := by
  have htake : d.take size = d := List.take_of_length_le (le_of_eq h)
  rw [fixedField_eq_take (by rw [htake, h]), htake]

namespace Contact

/-- The contacts that fit the record: every field within its width, and a path that is either
unknown or as long as its length byte says. -/
structure FitsFrame (c : Contact) : Prop where
  key : c.publicKey.length = 32
  advType : c.advType < 256
  flags : c.flags < 256
  path : (c.outPathLen = -1 ∧ c.outPath = []) ∨
    ∃ l : ℕ, c.outPathLen = l ∧ PathUtils.isValidPathLen l = true ∧
      PathUtils.getPathByteLen l = c.outPath.length
  name : (Utf8.encode c.name).length ≤ 32
  no_nul : '\x00' ∉ c.name
  lat : IsMicrodegrees c.gpsLat
  lon : IsMicrodegrees c.gpsLon
  lastAdvert : c.lastAdvertTimestamp < 2 ^ 32
  lastmod : c.lastmod < 2 ^ 32
  modified : c.lastmod ≠ 0

variable {c : Contact}

theorem oplByte_lt (c : Contact) : c.oplByte < 256 := by
  unfold oplByte
  split
  · decide
  · omega

theorem FitsFrame.path_eq (h : c.FitsFrame) :
    (if c.oplByte = outPathUnknown then -1 else (c.oplByte : ℤ)) = c.outPathLen ∧
    (fixedField maxPathSize c.outPath).take
      (if 0 ≤ c.outPathLen then PathUtils.getPathByteLen c.oplByte else 0) = c.outPath := by
  obtain ⟨hlen, hpath⟩ | ⟨l, hlen, hvalid, hbytes⟩ := h.path
  · simp [oplByte, hlen, hpath]
  · have hlt := PathUtils.isValidPathLen_lt hvalid
    have hopl : c.oplByte = l := by
      rw [oplByte, hlen, if_neg (by omega), Int.toNat_natCast]
      omega
    have hsize : c.outPath.length ≤ maxPathSize := by
      rw [← hbytes]
      exact ((PathUtils.isValidPathLen_iff l).mp hvalid).2
    constructor
    · rw [hopl, hlen, if_neg (by simp only [outPathUnknown]; omega)]
    · rw [hopl, hlen, if_pos (Int.natCast_nonneg l), hbytes, fixedField_of_le hsize,
        List.take_left]

theorem ofFrame_flatten {key path name lastAdvert lat lon lastmod : Bytes} {t f l : UInt8}
    (hwidths : [key, [t, f, l], path, name, lastAdvert, lat, lon, lastmod].map List.length =
      [32, 3, 64, 32, 4, 4, 4, 4]) (now : ℕ) :
    let outPathLen : ℤ := if l.toNat = outPathUnknown then -1 else l.toNat
    ofFrame [key, [t, f, l], path, name, lastAdvert, lat, lon, lastmod].flatten now =
      { publicKey := key
        name := Utf8.decodeReplace (name.takeWhile (· ≠ 0))
        advType := t.toNat
        flags := f.toNat
        outPathLen
        outPath := path.take (if 0 ≤ outPathLen then PathUtils.getPathByteLen l.toNat else 0)
        lastAdvertTimestamp := Bytes.toNatLE lastAdvert
        gpsLat := int32LE lat / 1000000
        gpsLon := int32LE lon / 1000000
        lastmod := Bytes.toNatLE lastmod } := by
  intro outPathLen
  have hlens := hwidths
  simp only [List.map_cons, List.map_nil, List.cons.injEq, and_true] at hlens
  obtain ⟨hkey, -, hpath, hname, hadvert, hlat, hlon, hmod⟩ := hlens
  generalize hparts : [key, [t, f, l], path, name, lastAdvert, lat, lon, lastmod] = parts
  rw [hparts] at hwidths
  generalize hdata : parts.flatten = data
  have hlen : data.length = 147 := by
    rw [← hdata, List.length_flatten, hwidths]
    rfl
  have field {i k w : ℕ} {part : Bytes} (hi : parts[i]? = some part) (hw : part.length = w)
      (hk : ([32, 3, 64, 32, 4, 4, 4, 4].take i).sum = k) : (data.drop k).take w = part := by
    rw [← hdata, ← hw, ← hk]
    exact Bytes.field_flatten hwidths hi
  have keyField : data.take 32 = key := field (i := 0) (by rw [← hparts]; rfl) hkey rfl
  have bytesField : (data.drop 32).take 3 = [t, f, l] :=
    field (i := 1) (by rw [← hparts]; rfl) rfl rfl
  have pathField : (data.drop 35).take 64 = path :=
    field (i := 2) (by rw [← hparts]; rfl) hpath rfl
  have nameField : (data.drop 99).take 32 = name :=
    field (i := 3) (by rw [← hparts]; rfl) hname rfl
  have advertField : (data.drop 131).take 4 = lastAdvert :=
    field (i := 4) (by rw [← hparts]; rfl) hadvert rfl
  have latField : (data.drop 135).take 4 = lat := field (i := 5) (by rw [← hparts]; rfl) hlat rfl
  have lonField : (data.drop 139).take 4 = lon := field (i := 6) (by rw [← hparts]; rfl) hlon rfl
  have modField : (data.drop 143).take 4 = lastmod :=
    field (i := 7) (by rw [← hparts]; rfl) hmod rfl
  have byte {j : ℕ} (hj : j < 3) : data.getD (32 + j) 0 = [t, f, l].getD j 0 := by
    rw [List.getD_eq_getElem?_getD, List.getD_eq_getElem?_getD, ← bytesField,
      List.getElem?_take_of_lt hj, List.getElem?_drop]
  have typeByte : data.getD 32 0 = t := byte (j := 0) (by decide)
  have flagsByte : data.getD 33 0 = f := byte (j := 1) (by decide)
  have lenByte : data.getD 34 0 = l := byte (j := 2) (by decide)
  have nameRaw : fixedField 32 (data.drop 99) = name := by
    rw [fixedField_eq_take (by rw [nameField, hname]), nameField]
  simp only [ofFrame, pubKeySize, maxPathSize, contactNameSize, hlen, keyField, pathField, nameRaw,
    advertField, latField, lonField, modField, typeByte, flagsByte, lenByte, outPathLen]
  rfl

theorem FitsFrame.ofFrame_encode (h : c.FitsFrame) (now : ℕ) :
    ∃ body, c.encodeContactFields = .ok body ∧ body.length = 147 ∧
      ofFrame body now = { c with syncSince := 0, lastAdvertPacket := none } := by
  obtain ⟨lat, hlat, hlat4, hlatv⟩ := h.lat.pack
  obtain ⟨lon, hlon, hlon4, hlonv⟩ := h.lon.pack
  have hhead : ∀ n ∈ [c.advType, c.flags, c.oplByte], n < 256 := by
    simp only [List.mem_cons, List.not_mem_nil, or_false, forall_eq_or_imp, forall_eq]
    exact ⟨h.advType, h.flags, c.oplByte_lt⟩
  rw [encodeContactFields, FrameServer.byteString_of_lt hhead, ok_bind,
    PacketBuilder.packUInt32_of_lt h.lastAdvert, ok_bind, hlat, ok_bind, hlon, ok_bind,
    PacketBuilder.packUInt32_of_lt h.lastmod, ok_bind,
    show fixedField pubKeySize c.publicKey = c.publicKey from fixedField_of_length h.key]
  refine ⟨_, rfl, ?_, ?_⟩
  · simp [h.key, hlat4, hlon4]
  have hname : (fixedField contactNameSize (Utf8.encode c.name)).takeWhile (· ≠ 0) =
      Utf8.encode c.name := by
    rw [fixedField_of_le (show _ ≤ contactNameSize from h.name)]
    exact Bytes.takeWhile_append_zeros (Utf8.zero_notMem_encode h.no_nul) _
  obtain ⟨hlen, hpath⟩ := h.path_eq
  rw [List.map_cons, List.map_cons, List.map_cons, List.map_nil,
    ofFrame_flatten (by simp [h.key, hlat4, hlon4])]
  simp only [Bytes.toNat_ofNat_of_lt h.advType, Bytes.toNat_ofNat_of_lt h.flags,
    Bytes.toNat_ofNat_of_lt c.oplByte_lt, hname, Utf8.decodeReplace_encode, hlen, hpath,
    Bytes.toNatLE_le 4 _ h.lastAdvert, Bytes.toNatLE_le 4 _ h.lastmod, hlatv, hlonv]

end Contact

namespace ContactServer

variable (s : ContactServer) {data : Bytes} (now later : ℕ)

theorem contacts_short (h : data.length < 36) :
    (s.cmdAddUpdateContact data now later).contacts = s.contacts := by
  rw [cmdAddUpdateContact, if_pos h]

theorem contacts_long (h : 36 ≤ data.length) :
    (s.cmdAddUpdateContact data now later).contacts =
      (s.contacts.addUpdateContact (.ofFrame data now) later).2 := by
  rw [cmdAddUpdateContact, if_neg (by omega)]
  dsimp only
  split <;> rfl

theorem getByKey_edit (h : 36 ≤ data.length)
    (hroom : s.contacts.contacts.contains (data.take 32) = true ∨ s.contacts.isFull = false)
    (key : Bytes) :
    (s.cmdAddUpdateContact data now later).contacts.getByKey key =
      if key = data.take 32 then
        some ((Contact.ofFrame data now).dated later)
      else s.contacts.getByKey key := by
  rw [contacts_long s now later h, ContactStore.addUpdateContact]
  have hkey : ((Contact.ofFrame data now).dated later).publicKey = data.take 32 := by
    unfold Contact.dated
    split <;> rfl
  generalize (Contact.ofFrame data now).dated later = c at hkey
  have hadd : (s.contacts.add c).2 = s.contacts.put c := by
    rw [ContactStore.add, hkey]
    obtain hknown | hfull := hroom
    · rw [if_pos hknown]
    · rw [hfull]
      split <;> rfl
  rw [hadd, ContactStore.getByKey_put, hkey]

/-- A contact that fits the record is stored as it was encoded. -/
theorem cmdAddUpdateContact_encode {c : Contact} (hc : c.FitsFrame)
    (hroom : s.contacts.contacts.contains c.publicKey = true ∨ s.contacts.isFull = false) :
    ∃ body, c.encodeContactFields = .ok body ∧
      (s.cmdAddUpdateContact body now later).contacts.getByKey c.publicKey =
        some { c with syncSince := 0, lastAdvertPacket := none } := by
  obtain ⟨body, hbody, hlen, hframe⟩ := hc.ofFrame_encode now
  have hkey : body.take 32 = c.publicKey := congrArg Contact.publicKey hframe
  refine ⟨body, hbody, ?_⟩
  rw [getByKey_edit s now later (by omega) (by rwa [hkey]), if_pos hkey.symm, hframe,
    Contact.dated, if_neg hc.modified]

/-- A chat node two 2-byte hops away, the second of which begins with a zero byte. -/
def routedContact : Contact :=
  { publicKey := List.replicate 32 7
    name := ['ü', '1']
    advType := 1
    flags := 1
    outPathLen := 0x42
    outPath := [0xA1, 0xA2, 0, 0xB2]
    lastAdvertTimestamp := 1000
    lastmod := 2000
    gpsLat := -47123456 / 1000000
    gpsLon := 8500001 / 1000000 }

theorem routedContact_fits : routedContact.FitsFrame where
  key := by decide
  advType := by decide
  flags := by decide
  path := .inr ⟨0x42, by decide⟩
  name := by decide +kernel
  no_nul := by decide
  lat := ⟨-47123456, by decide, by decide, by simp [routedContact]⟩
  lon := ⟨8500001, by decide, by decide, by simp [routedContact]⟩
  lastAdvert := by decide
  lastmod := by decide
  modified := by decide

theorem cmdAddUpdateContact_encode_routed :
    ∃ body, routedContact.encodeContactFields = .ok body ∧
      (({} : ContactServer).cmdAddUpdateContact body 0 0).contacts.getByKey
        routedContact.publicKey = some routedContact :=
  cmdAddUpdateContact_encode {} 0 0 routedContact_fits (.inr (by decide))

/-- What an edit is expected to leave alone: in the edited contact the fields the record does
not carry, with the export and the sharing that rest on them, and all other contacts. -/
structure EditKeeps (before after : ContactStore) (key : Bytes) : Prop where
  fields : ∀ c, before.getByKey key = some c → ∃ c', after.getByKey key = some c' ∧
    c'.syncSince = c.syncSince ∧ c'.lastAdvertPacket = c.lastAdvertPacket
  exported : (before.exportContact key).isSome → (after.exportContact key).isSome
  shared : (before.shareContact key).isSome → (after.shareContact key).isSome
  others : ∀ k ≠ key, after.getByKey k = before.getByKey k

variable {s} {c : Contact}

theorem exportContact_eq_none {contacts : ContactStore} {key : Bytes}
    (hget : contacts.getByKey key = some c) (hnone : c.lastAdvertPacket = none) :
    contacts.exportContact key = none := by
  obtain ⟨_, _, _, _, _, _, _, _, _, _, _, _⟩ := c
  cases hnone
  rw [ContactStore.exportContact, hget]

theorem shareContact_eq_none {contacts : ContactStore} {key : Bytes}
    (h : contacts.exportContact key = none) : contacts.shareContact key = none := by
  rw [ContactStore.shareContact, h]
  rfl

theorem getByKey_edited (hlong : 36 ≤ data.length)
    (hget : s.contacts.getByKey (data.take 32) = some c) :
    ∃ c', (s.cmdAddUpdateContact data now later).contacts.getByKey (data.take 32) = some c' ∧
      c'.syncSince = 0 ∧ c'.lastAdvertPacket = none := by
  have hknown : s.contacts.contacts.contains (data.take 32) = true := congrArg Option.isSome hget
  rw [getByKey_edit s now later hlong (.inl hknown), if_pos rfl]
  refine ⟨_, rfl, ?_⟩
  unfold Contact.dated
  split <;> exact ⟨rfl, rfl⟩

theorem getByKey_other (hget : s.contacts.getByKey (data.take 32) = some c) {k : Bytes}
    (hk : k ≠ data.take 32) :
    (s.cmdAddUpdateContact data now later).contacts.getByKey k = s.contacts.getByKey k := by
  by_cases hlen : data.length < 36
  · rw [contacts_short s now later hlen]
  · have hknown : s.contacts.contacts.contains (data.take 32) = true :=
      congrArg Option.isSome hget
    rw [getByKey_edit s now later (by omega) (.inl hknown), if_neg hk]

/-- An edit of a known contact keeps what the record does not carry only if it is refused or there
was nothing to keep. -/
theorem editKeeps_iff (hget : s.contacts.getByKey (data.take 32) = some c) :
    (EditKeeps s.contacts (s.cmdAddUpdateContact data now later).contacts (data.take 32) ↔
      data.length < 36 ∨ (c.syncSince = 0 ∧ c.lastAdvertPacket = none)) ∧
    ∀ k ≠ data.take 32,
      (s.cmdAddUpdateContact data now later).contacts.getByKey k = s.contacts.getByKey k := by
  refine ⟨?_, fun k hk => getByKey_other now later hget hk⟩
  constructor
  · intro h
    by_cases hlen : data.length < 36
    · exact .inl hlen
    · obtain ⟨c', hc', hsync, hadvert⟩ := h.fields c hget
      obtain ⟨c'', hc'', hsync', hadvert'⟩ := getByKey_edited now later (by omega) hget
      cases hc'.symm.trans hc''
      exact .inr ⟨hsync ▸ hsync', hadvert ▸ hadvert'⟩
  · rintro (hlen | ⟨hsync, hadvert⟩)
    · rw [contacts_short s now later hlen]
      exact ⟨fun c hc => ⟨c, hc, rfl, rfl⟩, id, id, fun _ _ => rfl⟩
    · have hnone := exportContact_eq_none hget hadvert
      refine ⟨?_, ?_, ?_, fun k hk => getByKey_other now later hget hk⟩
      · intro d hd
        cases hd.symm.trans hget
        by_cases hlen : data.length < 36
        · rw [contacts_short s now later hlen]
          exact ⟨c, hget, rfl, rfl⟩
        · obtain ⟨c', hc', hsync', hadvert'⟩ := getByKey_edited now later (by omega) hget
          exact ⟨c', hc', by rw [hsync, hsync'], by rw [hadvert, hadvert']⟩
      · simp [hnone]
      · simp [shareContact_eq_none hnone]

/-- A room server whose advert was received and whose posts were read up to some time. -/
def heardContact : Contact :=
  { routedContact with advType := 3, syncSince := 900, lastAdvertPacket := some [0x11, 0, 7] }

def heardServer : ContactServer :=
  { contacts := ({} : ContactStore).put heardContact }

/-- The shortest record that is accepted. -/
def renameRecord : Bytes := List.replicate 32 7 ++ [3, 1, 0xFF, 0]

theorem editKeeps_iff_heard :
    heardServer.contacts.getByKey (renameRecord.take 32) = some heardContact ∧
    ((EditKeeps heardServer.contacts
        (heardServer.cmdAddUpdateContact renameRecord 3000 3000).contacts (renameRecord.take 32) ↔
      renameRecord.length < 36 ∨
        (heardContact.syncSince = 0 ∧ heardContact.lastAdvertPacket = none)) ∧
    ∀ k ≠ renameRecord.take 32,
      (heardServer.cmdAddUpdateContact renameRecord 3000 3000).contacts.getByKey k =
        heardServer.contacts.getByKey k) :=
  have hget : heardServer.contacts.getByKey (renameRecord.take 32) = some heardContact := by
    decide +kernel
  ⟨hget, editKeeps_iff 3000 3000 hget⟩

/-- The advert of the edited contact is gone, and with it the export. -/
theorem not_editKeeps_heard :
    ¬ EditKeeps heardServer.contacts
      (heardServer.cmdAddUpdateContact renameRecord 3000 3000).contacts
      (renameRecord.take 32) := by
  intro h
  have hbefore : (heardServer.contacts.exportContact (renameRecord.take 32)).isSome = true := by
    decide +kernel
  have hafter : ((heardServer.cmdAddUpdateContact renameRecord 3000 3000).contacts.exportContact
      (renameRecord.take 32)).isSome = false := by
    decide +kernel
  rw [h.exported hbefore] at hafter
  cases hafter

end ContactServer

end OpenHop
