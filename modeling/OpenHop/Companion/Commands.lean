import OpenHop.Companion.ContactCapacity
import OpenHop.Node.ProtocolResponse

/-! # Contact and channel commands

The app reads and changes contacts and channels by commands. A handler writes its response
as it goes and may end with an exception, which is answered with an error in place of what
it had not written.
-/

namespace OpenHop

@[simp] def errCodeNotFound : ℕ := 2
@[simp] def respCodeContactsStart : ℕ := 2
@[simp] def respCodeContact : ℕ := 3
@[simp] def respCodeEndOfContacts : ℕ := 4
@[simp] def respCodeExportContact : ℕ := 11
@[simp] def respCodeChannelInfo : ℕ := 18
@[simp] def respCodeAdvertPath : ℕ := 22
@[simp] def channelNameSize : ℕ := 32

namespace ContactStore

def getAll (s : ContactStore) (since : ℕ) : List Contact :=
  if since = 0 then s.contacts.values
  else s.contacts.values.filter fun c => since ≤ c.lastmod

def getContacts (s : ContactStore) (since : ℕ) : List Contact :=
  (s.getAll since).filter fun c => c.advType ≠ advTypeNone

def resetPath (s : ContactStore) (key : Bytes) : Bool × ContactStore :=
  match s.getByKey key with
  | none => (false, s)
  | some contact => (true, (s.update { contact with outPathLen := -1, outPath := [] }).2)

/-- The owner of the contacts hears of a path that the handler for responses has stored. -/
def onContactPathUpdated (s : ContactStore) (pub : Bytes) (pathLen : ℤ) (path : Bytes) :
    ContactStore :=
  match s.getByKey pub with
  | none => s
  | some contact => (s.update { contact with outPathLen := pathLen, outPath := path }).2

end ContactStore

def PathCache.getByPrefix (c : PathCache) (pubKeyPrefix : Bytes) : Option AdvertPath :=
  c.paths.find? fun p => p.publicKeyPrefix.take pubKeyPrefix.length = pubKeyPrefix

/-- What a node says of itself. -/
structure SelfPrefs where
  nodeName : List Char := []
  advType : ℕ := 1
  advertLocPolicy : ℕ := 0
  latitude : ℚ := 0
  longitude : ℚ := 0

/-- The contacts are those of the handler for responses; `discovered` are the adverts not yet
handled and `imported` those that the app brought. -/
structure CompanionNode (Seed : Type) where
  responses : ProtocolResponses Seed
  signer : PacketBuilder.Signer
  verify : (pubkey message signature : Bytes) → Bool
  server : FrameServer := {}
  saves : ℕ := 0
  channelSaves : ℕ := 0
  pathCache : PathCache := {}
  channels : ChannelStore := .empty
  prefs : Companion.AutoAddPrefs := {}
  selfPrefs : SelfPrefs := {}
  discovered : List NodeDiscovered := []
  imported : List Packet := []

/-- The commands about contacts and channels. -/
inductive ContactCommand where
  | getContacts | getContactByKey | addUpdateContact | removeContact | resetPath
  | getAdvertPath | importContact | exportContact | getChannel | setChannel
  deriving DecidableEq

namespace CompanionNode

variable {Seed : Type} (c : Crypto Seed)

def contacts (n : CompanionNode Seed) : ContactStore := n.responses.contacts

def setContacts (n : CompanionNode Seed) (contacts : ContactStore) : CompanionNode Seed :=
  { n with responses := { n.responses with contacts := contacts } }

def writeFrame (n : CompanionNode Seed) (data : Bytes) : CompanionNode Seed :=
  { n with server := n.server.enqueueFrame data }

def writeOk (n : CompanionNode Seed) : CompanionNode Seed :=
  { n with server := ContactServer.writeOk n.server }

def writeErr (n : CompanionNode Seed) (errCode : ℕ) : CompanionNode Seed :=
  { n with server := n.server.writeErr errCode }

/-- The node after a handler, and the exception that ended it. -/
abbrev Handled (Seed : Type) := CompanionNode Seed × Option PacketError

def writeBuilt (n : CompanionNode Seed) : Except PacketError Bytes → Handled Seed
  | .ok data => (n.writeFrame data, none)
  | .error e => (n, some e)

def writeAll (n : CompanionNode Seed) : List (Except PacketError Bytes) → Handled Seed
  | [] => (n, none)
  | .ok data :: frames => (n.writeFrame data).writeAll frames
  | .error e :: _ => (n, some e)

def contactFrame (contact : Contact) : Except PacketError Bytes := do
  return UInt8.ofNat respCodeContact :: (← contact.encodeContactFields)

def countFrame (code count : ℕ) : Except PacketError Bytes := do
  return UInt8.ofNat code :: (← PacketBuilder.packUInt32 count)

def cmdGetContacts (n : CompanionNode Seed) (data : Bytes) : Handled Seed :=
  let since := if 4 ≤ data.length then Bytes.toNatLE (data.take 4) else 0
  let contacts := n.contacts.getContacts since
  let mostRecent := (contacts.map (·.lastmod)).foldr max 0
  n.writeAll (countFrame respCodeContactsStart n.contacts.realCount :: contacts.map contactFrame ++
    [countFrame respCodeEndOfContacts mostRecent])

def cmdGetContactByKey (n : CompanionNode Seed) (data : Bytes) : Handled Seed :=
  if data.length < pubKeySize then (n.writeErr errCodeIllegalArg, none)
  else
    match n.contacts.getByKey (data.take pubKeySize) with
    | none => (n.writeErr errCodeNotFound, none)
    | some contact => n.writeBuilt (contactFrame contact)

def cmdAddUpdateContact (n : CompanionNode Seed) (data : Bytes) (now later : ℕ) : Handled Seed :=
  let s := ({ server := n.server, contacts := n.contacts, saves := n.saves } :
    ContactServer).cmdAddUpdateContact data now later
  ({ n.setContacts s.contacts with server := s.server, saves := s.saves }, none)

def cmdRemoveContact (n : CompanionNode Seed) (data : Bytes) : Handled Seed :=
  if data.length < 32 then (n.writeErr errCodeIllegalArg, none)
  else if n.contacts.contacts.contains (data.take 32) then
    ({ n.setContacts (n.contacts.remove (data.take 32)) with saves := n.saves + 1 }.writeOk, none)
  else (n.writeErr errCodeNotFound, none)

def cmdResetPath (n : CompanionNode Seed) (data : Bytes) : Handled Seed :=
  if data.length < 32 then (n.writeErr errCodeIllegalArg, none)
  else
    let (ok, contacts) := n.contacts.resetPath (data.take 32)
    let n := n.setContacts contacts
    (if ok then n.writeOk else n.writeErr errCodeNotFound, none)

def advertPathFrame (found : AdvertPath) : Except PacketError Bytes := do
  let recvTs ← PacketBuilder.packUInt32 found.recvTimestamp
  let pathLen ← FrameServer.byteString [found.pathLen]
  return UInt8.ofNat respCodeAdvertPath :: (recvTs ++ pathLen ++
    found.path.take (PathUtils.getPathByteLen found.pathLen))

def cmdGetAdvertPath (n : CompanionNode Seed) (data : Bytes) : Handled Seed :=
  if data.length < 1 + pubKeySize then (n.writeErr errCodeIllegalArg, none)
  else
    match n.pathCache.getByPrefix (((data.drop 1).take pubKeySize).take 7) with
    | none => (n.writeErr errCodeNotFound, none)
    | some found => n.writeBuilt (advertPathFrame found)

/-- An advert that parses is queued as if it had been flooded; its signature is checked later. -/
def importContact (n : CompanionNode Seed) (data : Bytes) : Bool × CompanionNode Seed :=
  match Packet.readFrom {} data with
  | .error _ => (false, n)
  | .ok packet =>
    if packet.getPayloadType ≠ payloadTypeAdvert then (false, n)
    else
      let packet := { packet with header := packet.header ||| routeTypeFlood }
      (true, { n with imported := n.imported ++ [packet] })

def cmdImportContact (n : CompanionNode Seed) (data : Bytes) : Handled Seed :=
  let (ok, n) := n.importContact data
  (if ok then n.writeOk else n.writeErr errCodeIllegalArg, none)

def advTypeToFlags (advType : ℕ) : ℕ :=
  if advType = 1 then 0x01
  else if advType = 2 then 0x02
  else if advType = 3 then 0x03
  else if advType = 4 then 0x04
  else 0x01

def exportSelf (n : CompanionNode Seed) (timestamp : ℕ) : Except PacketError Bytes := do
  let flags := advTypeToFlags n.selfPrefs.advType ||| advertFlagHasName
  let shared := n.selfPrefs.advertLocPolicy = 1
  let flags := if shared then flags ||| advertFlagHasLocation else flags
  let lat := if shared then n.selfPrefs.latitude else 0
  let lon := if shared then n.selfPrefs.longitude else 0
  let packet ← PacketBuilder.createAdvert c n.signer n.responses.localIdentity n.selfPrefs.nodeName
    lat lon 0 0 flags .flood timestamp
  packet.writeTo

def exportFrame (raw : Bytes) : Bytes := UInt8.ofNat respCodeExportContact :: raw

def cmdExportContact (n : CompanionNode Seed) (data : Bytes) (timestamp : ℕ) : Handled Seed :=
  if pubKeySize ≤ data.length then
    match n.contacts.exportContact (data.take pubKeySize) with
    | none => (n.writeErr errCodeNotFound, none)
    | some raw => (n.writeFrame (exportFrame raw), none)
  else n.writeBuilt ((n.exportSelf c timestamp).map exportFrame)

def channelInfoFrame (idx : ℕ) (channel : Option ChannelConfig) : Except PacketError Bytes := do
  let head ← FrameServer.byteString [respCodeChannelInfo, idx]
  let name := (channel.map fun ch => Utf8.encode ch.name).getD []
  let secret := (channel.map (·.secret)).getD []
  return head ++ fixedField channelNameSize name ++ fixedField 16 secret

/-- Without an index all slots are listed, and where there are none an empty one. -/
def cmdGetChannel (n : CompanionNode Seed) : Bytes → Handled Seed
  | [] =>
    if n.channels.maxChannels = 0 then n.writeBuilt (channelInfoFrame 0 none)
    else
      n.writeAll ((List.range n.channels.maxChannels).map fun idx =>
        channelInfoFrame idx (n.channels.get idx))
  | idx :: _ =>
    if idx.toNat ≥ n.channels.maxChannels then (n.writeErr errCodeNotFound, none)
    else n.writeBuilt (channelInfoFrame idx.toNat (n.channels.get idx.toNat))

/-- The secret in a `SET_CHANNEL` record: in hex, in full or without its second half. -/
def secretField (data : Bytes) : Option Bytes :=
  if 97 ≤ data.length then
    let field := (data.drop 33).take 64
    if field.all (·.toNat < 128) then fromHex? (field.map fun b => Char.ofNat b.toNat) else none
  else if 65 ≤ data.length then some ((data.drop 33).take 32)
  else if 49 ≤ data.length then some ((data.drop 33).take 16)
  else none

/-- `str.strip` -/
def strip (isSpace : Char → Bool) (text : List Char) : List Char :=
  (text.dropWhile isSpace).rdropWhile isSpace

def cmdSetChannel (n : CompanionNode Seed) (data : Bytes) : Handled Seed :=
  if data.length < 2 + channelNameSize then (n.writeErr errCodeIllegalArg, none)
  else
    let nameRaw := (data.drop 1).take channelNameSize
    let name := strip n.responses.cls.isSpace (Utf8.decodeReplace (nameRaw.takeWhile (· ≠ 0)))
    match secretField data with
    | none => (n.writeErr errCodeIllegalArg, none)
    | some secret =>
      let (ok, channels) := n.channels.setChannel (data.headD 0).toNat name secret
      if ok then ({ n with channels, channelSaves := n.channelSaves + 1 }.writeOk, none)
      else (n.writeErr errCodeNotFound, none)

def handler (n : CompanionNode Seed) (cmd : ContactCommand) (data : Bytes) (now later : ℕ) :
    Handled Seed :=
  match cmd with
  | .getContacts => n.cmdGetContacts data
  | .getContactByKey => n.cmdGetContactByKey data
  | .addUpdateContact => n.cmdAddUpdateContact data now later
  | .removeContact => n.cmdRemoveContact data
  | .resetPath => n.cmdResetPath data
  | .getAdvertPath => n.cmdGetAdvertPath data
  | .importContact => n.cmdImportContact data
  | .exportContact => n.cmdExportContact c data now
  | .getChannel => n.cmdGetChannel data
  | .setChannel => n.cmdSetChannel data

def answerRaised : Handled Seed → CompanionNode Seed
  | (n, none) => n
  | (n, some _) => n.writeErr errCodeIllegalArg

/-- `_handle_cmd` of the code of a command and the bytes behind it. -/
def handleCmd (n : CompanionNode Seed) (cmd : ContactCommand) (data : Bytes) (now later : ℕ) :
    CompanionNode Seed :=
  answerRaised (n.handler c cmd data now later)

def receiveAdvert (n : CompanionNode Seed) (packet : Packet) (now stamp : ℕ) :
    CompanionNode Seed :=
  let adverts : AdvertHandler :=
    { verify := n.verify, localPublicKey := some (c.publicKey n.responses.localIdentity) }
  match adverts.call packet now stamp with
  | none => n
  | some (_, event) => { n with discovered := n.discovered ++ [event] }

def handleDiscovered (n : CompanionNode Seed) (event : NodeDiscovered) (now recvAt : ℕ) :
    CompanionNode Seed :=
  let o := Companion.handleMeshEvent (c.publicKey n.responses.localIdentity) n.prefs
    { contacts := n.contacts, pathCache := n.pathCache } event now recvAt
  { n.setContacts o.stores.contacts with pathCache := o.stores.pathCache }

def pathsUpdated (s : ContactStore) : List ResponseEvent → ContactStore
  | [] => s
  | .contactPathUpdated contact :: events =>
    pathsUpdated (s.onContactPathUpdated contact.publicKey contact.outPathLen contact.outPath)
      events
  | _ :: events => pathsUpdated s events

def receiveResponse (n : CompanionNode Seed) (packet : Packet) (time : ℚ) (noise : Bytes) :
    CompanionNode Seed :=
  let (responses, events, _) := n.responses.call c time noise packet
  let n := { n with responses := responses }
  n.setContacts (pathsUpdated n.contacts events)

/-- What happens to a companion, with the clock readings and the noise that go into it. -/
inductive Event where
  | command (cmd : ContactCommand) (data : Bytes) (now later : ℕ)
  | receive (data : Bytes) (time : ℚ) (noise : Bytes) (now stamp : ℕ)
  | loopback (i now stamp : ℕ)
  | discovered (i now recvAt : ℕ)
  | anonRequest (key : Bytes) (now : ℕ)
  | setPrefs (prefs : Companion.AutoAddPrefs) (selfPrefs : SelfPrefs)
  | setServer (server : FrameServer)

def step (n : CompanionNode Seed) : Event → CompanionNode Seed
  | .command cmd data now later => n.handleCmd c cmd data now later
  | .receive data time noise now stamp =>
    match Packet.readFrom {} data with
    | .error _ => n
    | .ok packet =>
      if packet.getPayloadType = payloadTypeAdvert then n.receiveAdvert c packet now stamp
      else if packet.getPayloadType = payloadTypePath ∨
          packet.getPayloadType = payloadTypeResponse then n.receiveResponse c packet time noise
      else n
  | .loopback i now stamp =>
    match n.imported[i]? with
    | none => n
    | some packet => { n with imported := n.imported.eraseIdx i }.receiveAdvert c packet now stamp
  | .discovered i now recvAt =>
    match n.discovered[i]? with
    | none => n
    | some event =>
      { n with discovered := n.discovered.eraseIdx i }.handleDiscovered c event now recvAt
  | .anonRequest key now => n.setContacts (n.contacts.sendAnonReq key now)
  | .setPrefs prefs selfPrefs => { n with prefs, selfPrefs }
  | .setServer server => { n with server }

def run (n : CompanionNode Seed) (events : List Event) : CompanionNode Seed :=
  events.foldl (step c) n

variable {c}

def contactsAfter (s : ContactStore) (data : Bytes) (now later : ℕ) :
    ContactCommand → ContactStore
  | .addUpdateContact =>
    if data.length < 36 then s else (s.addUpdateContact (.ofFrame data now) later).2
  | .removeContact =>
    if data.length < 32 ∨ ¬ s.contacts.contains (data.take 32) then s else s.remove (data.take 32)
  | .resetPath => if data.length < 32 then s else (s.resetPath (data.take 32)).2
  | _ => s

/-- A command changes the contacts to given ones. It may queue the advert in its bytes, and leaves
everything else that adverts have brought as it is. -/
structure Changes (n n' : CompanionNode Seed) (data : Bytes) (contacts : ContactStore) : Prop where
  contacts : n'.contacts = contacts
  pathCache : n'.pathCache = n.pathCache
  discovered : n'.discovered = n.discovered
  imported : ∀ pkt ∈ n'.imported,
    pkt ∈ n.imported ∨ ∃ read, Packet.readFrom {} data = .ok read ∧ pkt.path = read.path
  connected : n'.server.writeQueue.isSome = n.server.writeQueue.isSome

theorem isSome_enqueueFrame (s : FrameServer) (data : Bytes) :
    (s.enqueueFrame data).writeQueue.isSome = s.writeQueue.isSome := by
  unfold FrameServer.enqueueFrame
  split
  · rfl
  · rename_i q hq
    split
    · rfl
    split
    · rfl
    · rw [hq]
      rfl

theorem Changes.of_server {n : CompanionNode Seed} {server : FrameServer}
    (h : server.writeQueue.isSome = n.server.writeQueue.isSome) (data : Bytes) :
    Changes n { n with server } data n.contacts :=
  ⟨rfl, rfl, rfl, fun _ hpkt => Or.inl hpkt, h⟩

theorem changes_writeFrame (n : CompanionNode Seed) (frame data : Bytes) :
    Changes n (n.writeFrame frame) data n.contacts :=
  .of_server (isSome_enqueueFrame ..) data

theorem changes_writeErr (n : CompanionNode Seed) (errCode : ℕ) (data : Bytes) :
    Changes n (n.writeErr errCode) data n.contacts :=
  .of_server (isSome_enqueueFrame ..) data

theorem changes_writeAll (n : CompanionNode Seed) (frames : List (Except PacketError Bytes))
    (data : Bytes) : Changes n (n.writeAll frames).1 data n.contacts := by
  induction frames generalizing n with
  | nil => exact .of_server rfl data
  | cons frame frames ih =>
    cases frame with
    | error e => exact .of_server rfl data
    | ok frame =>
      have hfirst := changes_writeFrame n frame data
      have hrest := ih (n.writeFrame frame)
      exact ⟨hrest.contacts, hrest.pathCache, hrest.discovered, hrest.imported,
        hrest.connected.trans hfirst.connected⟩

theorem writeBuilt_eq (n : CompanionNode Seed) (frame : Except PacketError Bytes) :
    n.writeBuilt frame = n.writeAll [frame] := by
  cases frame with
  | ok data => rfl
  | error e => rfl

theorem changes_writeBuilt (n : CompanionNode Seed) (frame : Except PacketError Bytes)
    (data : Bytes) : Changes n (n.writeBuilt frame).1 data n.contacts := by
  rw [writeBuilt_eq]
  exact changes_writeAll n [frame] data

theorem changes_handler (n : CompanionNode Seed) (cmd : ContactCommand) (data : Bytes)
    (now later : ℕ) :
    Changes n (n.handler c cmd data now later).1 data
      (contactsAfter n.contacts data now later cmd) := by
  have herr : ∀ errCode, Changes n (n.writeErr errCode) data n.contacts :=
    fun errCode => changes_writeErr n errCode data
  cases cmd with
  | getContacts => exact changes_writeAll ..
  | getContactByKey =>
    simp only [handler, cmdGetContactByKey]
    split
    · exact herr _
    split
    · exact herr _
    · exact changes_writeBuilt ..
  | addUpdateContact =>
    simp only [handler, cmdAddUpdateContact, contactsAfter]
    have hconnected : (ContactServer.cmdAddUpdateContact
        { server := n.server, contacts := n.contacts, saves := n.saves } data now
          later).server.writeQueue.isSome = n.server.writeQueue.isSome := by
      unfold ContactServer.cmdAddUpdateContact
      split
      · exact isSome_enqueueFrame ..
      · dsimp only
        split
        · exact isSome_enqueueFrame ..
        · exact isSome_enqueueFrame ..
    refine ⟨?_, rfl, rfl, fun _ hpkt => Or.inl hpkt, hconnected⟩
    split
    · rename_i hshort
      exact ContactServer.contacts_short _ now later hshort
    · rename_i hlong
      exact ContactServer.contacts_long _ now later (not_lt.mp hlong)
  | removeContact =>
    simp only [handler, cmdRemoveContact, contactsAfter]
    by_cases hshort : data.length < 32
    · rw [if_pos hshort, if_pos (Or.inl hshort)]
      exact herr _
    by_cases hknown : n.contacts.contacts.contains (data.take 32) = true
    · rw [if_neg hshort, if_pos hknown, if_neg (not_or.mpr ⟨hshort, not_not.mpr hknown⟩)]
      exact ⟨rfl, rfl, rfl, fun _ hpkt => Or.inl hpkt, isSome_enqueueFrame ..⟩
    · rw [if_neg hshort, if_neg hknown, if_pos (Or.inr hknown)]
      exact herr _
  | resetPath =>
    simp only [handler, cmdResetPath, contactsAfter]
    split
    · exact herr _
    · split
      · exact ⟨rfl, rfl, rfl, fun _ hpkt => Or.inl hpkt, isSome_enqueueFrame ..⟩
      · exact ⟨rfl, rfl, rfl, fun _ hpkt => Or.inl hpkt, isSome_enqueueFrame ..⟩
  | getAdvertPath =>
    simp only [handler, cmdGetAdvertPath]
    split
    · exact herr _
    split
    · exact herr _
    · exact changes_writeBuilt ..
  | importContact =>
    simp only [handler, cmdImportContact, importContact]
    split
    · exact herr _
    rename_i read hread
    split
    · exact herr _
    · refine ⟨rfl, rfl, rfl, fun pkt hpkt => ?_, isSome_enqueueFrame ..⟩
      rcases List.mem_append.mp hpkt with hpkt | hpkt
      · exact Or.inl hpkt
      · rw [List.mem_singleton.mp hpkt]
        exact Or.inr ⟨read, hread, rfl⟩
  | exportContact =>
    simp only [handler, cmdExportContact]
    split
    · split
      · exact herr _
      · exact changes_writeFrame ..
    · exact changes_writeBuilt ..
  | getChannel =>
    simp only [handler, cmdGetChannel]
    split
    · split
      · exact changes_writeBuilt ..
      · exact changes_writeAll ..
    · split
      · exact herr _
      · exact changes_writeBuilt ..
  | setChannel =>
    simp only [handler, cmdSetChannel]
    split
    · exact herr _
    split
    · exact herr _
    split
    · exact ⟨rfl, rfl, rfl, fun _ hpkt => Or.inl hpkt, isSome_enqueueFrame ..⟩
    · exact herr _

theorem changes_handleCmd (n : CompanionNode Seed) (cmd : ContactCommand) (data : Bytes)
    (now later : ℕ) :
    Changes n (n.handleCmd c cmd data now later) data
      (contactsAfter n.contacts data now later cmd) := by
  have h := n.changes_handler (c := c) cmd data now later
  unfold handleCmd
  generalize n.handler c cmd data now later = handled at h
  obtain ⟨n', _ | e⟩ := handled
  · exact h
  · exact { h with connected := (isSome_enqueueFrame ..).trans h.connected }

/-- A companion that knows nobody and takes every signature for good. -/
def fresh : CompanionNode Bytes :=
  { responses :=
      { localIdentity := [0xA0]
        cls := { isSpace := fun ch => ch = ' ', isPrintable := fun _ => true }
        contacts := {} }
    signer :=
      { sign := fun _ => List.replicate 64 0
        length_sign := fun _ => List.length_replicate }
    verify := fun _ _ _ => true }

end CompanionNode

end OpenHop
