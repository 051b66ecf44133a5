import OpenHop.Companion.Commands

/-! # Answers to commands

A response of at most 176 bytes gets into the queue of a connected client, and an exception
is answered with an error. The frames of the contact and channel commands have a fixed size
or hold a path, whose size is bounded by that of the packet it came with.
-/

namespace OpenHop

namespace FrameServer

variable {s : FrameServer} {data : Bytes}

/-- There is a frame in the queue. -/
def Answered (s : FrameServer) : Prop := ∃ q, s.writeQueue = some q ∧ q.frames ≠ []

theorem answered_enqueueFrame (h : s.writeQueue.isSome = true)
    (hsize : data.length ≤ maxFrameSize) : (s.enqueueFrame data).Answered := by
  obtain ⟨q, hq⟩ := Option.isSome_iff_exists.mp h
  unfold enqueueFrame
  rw [hq]
  dsimp only
  rw [if_neg (not_lt.mpr hsize)]
  split
  · rename_i hfull
    refine ⟨q, hq, ?_⟩
    rintro hnil
    simp [WriteQueue.isFull, hnil] at hfull
  · exact ⟨_, rfl, by simp⟩

theorem Answered.enqueueFrame (h : s.Answered) (data : Bytes) : (s.enqueueFrame data).Answered := by
  obtain ⟨q, hq, hne⟩ := h
  unfold FrameServer.enqueueFrame
  rw [hq]
  dsimp only
  split
  · exact ⟨q, hq, hne⟩
  split
  · exact ⟨q, hq, hne⟩
  · exact ⟨_, rfl, by simp⟩

theorem enqueueFrame_of_large (h : maxFrameSize < data.length) : s.enqueueFrame data = s := by
  unfold enqueueFrame
  split
  · rfl
  · rw [if_pos h]

end FrameServer

namespace CompanionNode

variable {Seed : Type} {c : Crypto Seed} {n : CompanionNode Seed}

def Fits (frame : Except PacketError Bytes) : Prop :=
  Yields frame fun data => data.length ≤ maxFrameSize

theorem answered_writeErr (h : n.server.writeQueue.isSome = true) (errCode : ℕ) :
    (n.writeErr errCode).server.Answered :=
  FrameServer.answered_enqueueFrame h (Nat.le_of_ble_eq_true rfl)

theorem answered_writeOk (h : n.server.writeQueue.isSome = true) :
    n.writeOk.server.Answered :=
  FrameServer.answered_enqueueFrame h (by decide)

theorem answered_writeAll (h : n.server.Answered) (frames : List (Except PacketError Bytes)) :
    (answerRaised (n.writeAll frames)).server.Answered := by
  induction frames generalizing n with
  | nil => exact h
  | cons frame frames ih =>
    cases frame with
    | ok data => exact ih (h.enqueueFrame data)
    | error e => exact h.enqueueFrame _

theorem answered_of_fits (h : n.server.writeQueue.isSome = true)
    {frame : Except PacketError Bytes} (hfits : Fits frame)
    (frames : List (Except PacketError Bytes)) :
    (answerRaised (n.writeAll (frame :: frames))).server.Answered := by
  cases frame with
  | ok data =>
    exact answered_writeAll (FrameServer.answered_enqueueFrame h (hfits data rfl)) frames
  | error e => exact answered_writeErr h _

theorem answered_writeBuilt (h : n.server.writeQueue.isSome = true)
    {frame : Except PacketError Bytes} (hfits : Fits frame) :
    (answerRaised (n.writeBuilt frame)).server.Answered := by
  rw [writeBuilt_eq]
  exact answered_of_fits h hfits []

theorem length_packUInt32 (k : ℕ) :
    Yields (PacketBuilder.packUInt32 k) fun packed => packed.length = 4 := by
  intro packed h
  unfold PacketBuilder.packUInt32 at h
  split at h
  · rename_i d hd
    cases h
    obtain ⟨-, rfl⟩ := Bytes.ofNatLE?_eq_some.mp hd
    exact Bytes.length_le 4 k
  · cases h

theorem length_packInt32 (k : ℤ) : Yields (packInt32 k) fun packed => packed.length = 4 := by
  intro packed h
  unfold packInt32 at h
  split at h
  · cases h
    exact Bytes.length_le 4 _
  · cases h

theorem length_byteString (ns : List ℕ) :
    Yields (FrameServer.byteString ns) fun packed => packed.length = ns.length := by
  intro packed h
  rw [FrameServer.byteString_of_lt (FrameServer.lt_of_byteString h)] at h
  cases h
  exact List.length_map _

theorem fits_countFrame (code count : ℕ) : Fits (countFrame code count) := by
  refine (length_packUInt32 count).bind fun packed hpacked => .ok ?_
  rw [List.length_cons, hpacked]
  decide

theorem fits_contactFrame (contact : Contact) : Fits (contactFrame contact) := by
  have hfields : Yields contact.encodeContactFields fun fields => fields.length = 147 := by
    refine (length_byteString _).bind fun head hhead => ?_
    refine (length_packUInt32 _).bind fun lastAdvert hlastAdvert => ?_
    refine (length_packInt32 _).bind fun lat hlat => ?_
    refine (length_packInt32 _).bind fun lon hlon => ?_
    refine (length_packUInt32 _).bind fun lastmod hlastmod => .ok ?_
    simp [hhead, hlastAdvert, hlat, hlon, hlastmod]
  refine hfields.bind fun fields hlen => .ok ?_
  rw [List.length_cons, hlen]
  decide

theorem fits_channelInfoFrame (idx : ℕ) (channel : Option ChannelConfig) :
    Fits (channelInfoFrame idx channel) := by
  refine (length_byteString _).bind fun head hhead => .ok ?_
  rw [List.length_append, List.length_append, length_fixedField, length_fixedField, hhead]
  exact Nat.le_of_ble_eq_true rfl

theorem fits_advertPathFrame {found : AdvertPath} (h : found.path.length ≤ maxPathSize) :
    Fits (advertPathFrame found) := by
  refine (length_packUInt32 _).bind fun recvTs hrecvTs => ?_
  refine (length_byteString _).bind fun pathLen hpathLen => .ok ?_
  simp only [List.length_cons, List.length_append, hrecvTs, hpathLen, List.length_nil,
    List.length_take, maxPathSize, maxFrameSize] at h ⊢
  omega

theorem getRawLength_advert {payload : Bytes} {packet : Packet}
    (h : PacketBuilder.createPacket (PacketBuilder.createHeader payloadTypeAdvert .flood) payload =
      .ok packet) : packet.getRawLength = 2 + payload.length := by
  have hheader : PacketBuilder.createHeader payloadTypeAdvert .flood = 0x11 := by decide
  have hpath : PathUtils.getPathByteLen 0 = 0 := by decide
  rw [hheader] at h
  obtain ⟨-, rfl⟩ := PacketBuilder.createPacket_ok h
  simp [Packet.getRawLength, Packet.getPathByteLen, Packet.hasTransportCodes, Packet.getRouteType,
    hpath]

theorem length_createAdvert (signer : PacketBuilder.Signer) (localIdentity : Seed)
    (name : List Char) (lat lon : ℚ) (feature1 feature2 flags timestamp : ℕ) :
    Yields (PacketBuilder.createAdvert c signer localIdentity name lat lon feature1 feature2 flags
      .flood timestamp) fun packet => packet.getRawLength ≤ 134 := by
  refine (length_packUInt32 _).bind fun tsBytes hts packet h => ?_
  obtain ⟨appdata, -, h⟩ := bind_eq_ok.mp h
  obtain ⟨hsize, h⟩ := ite_error_eq_ok.mp h
  rw [getRawLength_advert h]
  simp only [List.length_append, c.length_publicKey, signer.length_sign, hts, pubKeySize,
    signatureSize, maxAdvertDataSize] at hsize ⊢
  omega

theorem fits_exportSelf (n : CompanionNode Seed) (timestamp : ℕ) :
    Fits ((n.exportSelf c timestamp).map exportFrame) := by
  have hraw : Yields (n.exportSelf c timestamp) fun raw => raw.length ≤ 134 := by
    refine (length_createAdvert _ _ _ _ _ _ _ _ _).bind fun packet hlen raw hwrite => ?_
    obtain ⟨hwritable, rfl⟩ := Packet.writeTo_eq_ok.mp hwrite
    rw [Packet.length_encode hwritable]
    exact hlen
  refine hraw.map fun raw hlen => ?_
  rw [exportFrame, List.length_cons, maxFrameSize]
  omega

/-- Before anything has come over the air. -/
structure Initial (n : CompanionNode Seed) : Prop where
  cached : n.pathCache.paths = []
  discovered : n.discovered = []
  imported : n.imported = []

/-- The paths of adverts are as short as those of packets. -/
structure PathsFit (n : CompanionNode Seed) : Prop where
  cached : ∀ found ∈ n.pathCache.paths, found.path.length ≤ maxPathSize
  discovered : ∀ event ∈ n.discovered, event.inboundPath.length ≤ maxPathSize
  imported : ∀ packet ∈ n.imported, packet.path.length ≤ maxPathSize

theorem Initial.pathsFit (h : n.Initial) : n.PathsFit where
  cached := by simp [h.cached]
  discovered := by simp [h.discovered]
  imported := by simp [h.imported]

theorem length_path_of_readFrom {data : Bytes} {packet : Packet}
    (h : Packet.readFrom {} data = .ok packet) : packet.path.length ≤ maxPathSize := by
  obtain ⟨hwell, -, -⟩ := Packet.readFrom_sound h
  rw [← hwell.path_length]
  exact hwell.getPathByteLen_le

theorem length_inboundPath {adverts : AdvertHandler} {packet : Packet} {now stamp : ℕ}
    {advert : Advert} {event : NodeDiscovered}
    (h : adverts.call packet now stamp = some (advert, event)) :
    event.inboundPath.length ≤ packet.path.length := by
  unfold AdvertHandler.call at h
  dsimp only at h
  split at h
  · cases h
  split at h
  · cases h
  split at h
  · cases h
  split at h
  · cases h
  split at h
  · cases h
  split at h
  · cases h
  · cases h
    exact List.length_take_le' ..

theorem PathsFit.receiveAdvert (h : n.PathsFit) {packet : Packet}
    (hpacket : packet.path.length ≤ maxPathSize) (now stamp : ℕ) :
    (n.receiveAdvert c packet now stamp).PathsFit := by
  unfold CompanionNode.receiveAdvert
  dsimp only
  split
  · exact h
  · rename_i advert event hcall
    refine ⟨h.cached, fun e he => ?_, h.imported⟩
    rcases List.mem_append.mp he with he | he
    · exact h.discovered e he
    · rw [List.mem_singleton.mp he]
      exact (length_inboundPath hcall).trans hpacket

theorem PathsFit.handleDiscovered (h : n.PathsFit) {event : NodeDiscovered}
    (hevent : event.inboundPath.length ≤ maxPathSize) (now recvAt : ℕ) :
    (n.handleDiscovered c event now recvAt).PathsFit := by
  refine ⟨fun found hfound => ?_, h.discovered, h.imported⟩
  rcases Companion.handleMeshEvent_pathCache event now recvAt with hcache | ⟨p, hp, hcache⟩
  · rw [CompanionNode.handleDiscovered, hcache] at hfound
    exact h.cached found hfound
  · rw [CompanionNode.handleDiscovered, hcache] at hfound
    rcases PathCache.mem_update hfound with hfound | rfl
    · exact h.cached found hfound
    · rw [hp]
      exact hevent

theorem PathsFit.step (h : n.PathsFit) (e : Event) : (n.step c e).PathsFit := by
  cases e with
  | command cmd data now later =>
    have hchanges := changes_handleCmd (c := c) n cmd data now later
    refine ⟨?_, ?_, fun packet hpacket => ?_⟩
    · exact hchanges.pathCache ▸ h.cached
    · exact hchanges.discovered ▸ h.discovered
    · rcases hchanges.imported packet hpacket with hold | ⟨read, hread, hpath⟩
      · exact h.imported packet hold
      · rw [hpath]
        exact length_path_of_readFrom hread
  | receive data time noise now stamp =>
    rw [CompanionNode.step]
    split
    · exact h
    rename_i packet hread
    split
    · exact h.receiveAdvert (length_path_of_readFrom hread) now stamp
    split
    · exact ⟨h.cached, h.discovered, h.imported⟩
    · exact h
  | loopback i now stamp =>
    rw [CompanionNode.step]
    split
    · exact h
    · rename_i packet hpacket
      have hrest : PathsFit { n with imported := n.imported.eraseIdx i } :=
        ⟨h.cached, h.discovered, fun p hp => h.imported p (List.mem_of_mem_eraseIdx hp)⟩
      exact hrest.receiveAdvert (h.imported packet (List.mem_of_getElem? hpacket)) now stamp
  | discovered i now recvAt =>
    rw [CompanionNode.step]
    split
    · exact h
    · rename_i event hevent
      have hrest : PathsFit { n with discovered := n.discovered.eraseIdx i } :=
        ⟨h.cached, fun e he => h.discovered e (List.mem_of_mem_eraseIdx he), h.imported⟩
      exact hrest.handleDiscovered (h.discovered event (List.mem_of_getElem? hevent)) now recvAt
  | anonRequest key now => exact ⟨h.cached, h.discovered, h.imported⟩
  | setPrefs prefs selfPrefs => exact ⟨h.cached, h.discovered, h.imported⟩
  | setServer server => exact ⟨h.cached, h.discovered, h.imported⟩

theorem PathsFit.run (h : n.PathsFit) (events : List Event) : (n.run c events).PathsFit := by
  induction events generalizing n with
  | nil => exact h
  | cons e events ih => exact ih (h.step e)

/-- The app asks for the advert of a contact, and a frame does not hold it. -/
def Overlong (n : CompanionNode Seed) (cmd : ContactCommand) (data : Bytes) : Prop :=
  cmd = .exportContact ∧ pubKeySize ≤ data.length ∧
    ∃ raw, n.contacts.exportContact (data.take pubKeySize) = some raw ∧ maxFrameSize ≤ raw.length

theorem handleCmd_of_overlong {cmd : ContactCommand} {data : Bytes} (h : n.Overlong cmd data)
    (now later : ℕ) : n.handleCmd c cmd data now later = n := by
  obtain ⟨rfl, hlen, raw, hraw, hlarge⟩ := h
  have hframe : maxFrameSize < (exportFrame raw).length := Nat.lt_succ_of_le hlarge
  have hwrite : n.writeFrame (exportFrame raw) = n := by
    rw [writeFrame, FrameServer.enqueueFrame_of_large hframe]
  simp only [handleCmd, handler, cmdExportContact, if_pos hlen, hraw, answerRaised, hwrite]

theorem answered_handleCmd (hfit : n.PathsFit) (h : n.server.writeQueue.isSome = true)
    {cmd : ContactCommand} {data : Bytes} (hsize : ¬ n.Overlong cmd data) (now later : ℕ) :
    (n.handleCmd c cmd data now later).server.Answered := by
  have herr : ∀ errCode, (n.writeErr errCode).server.Answered := answered_writeErr h
  unfold handleCmd
  cases cmd with
  | getContacts => exact answered_of_fits h (fits_countFrame _ _) _
  | getContactByKey =>
    simp only [handler, cmdGetContactByKey]
    split
    · exact herr _
    split
    · exact herr _
    · exact answered_writeBuilt h (fits_contactFrame _)
  | addUpdateContact =>
    simp only [handler, cmdAddUpdateContact, ContactServer.cmdAddUpdateContact]
    split
    · exact herr _
    split
    · exact answered_writeOk h
    · exact herr _
  | removeContact =>
    simp only [handler, cmdRemoveContact]
    split
    · exact herr _
    split
    · exact answered_writeOk h
    · exact herr _
  | resetPath =>
    simp only [handler, cmdResetPath]
    split
    · exact herr _
    · dsimp only [answerRaised]
      split
      · exact answered_writeOk h
      · exact answered_writeErr h _
  | getAdvertPath =>
    simp only [handler, cmdGetAdvertPath]
    split
    · exact herr _
    split
    · exact herr _
    · rename_i found hfound
      refine answered_writeBuilt h (fits_advertPathFrame ?_)
      exact hfit.cached found (List.mem_of_find?_eq_some hfound)
  | importContact =>
    simp only [handler, cmdImportContact, importContact]
    split
    · exact herr _
    split
    · exact herr _
    · exact answered_writeOk h
  | exportContact =>
    simp only [handler, cmdExportContact]
    split
    · rename_i hlen
      split
      · exact herr _
      · rename_i raw hraw
        refine FrameServer.answered_enqueueFrame h ?_
        by_contra hlarge
        exact hsize ⟨rfl, hlen, raw, hraw, Nat.le_of_lt_succ (not_le.mp hlarge)⟩
    · exact answered_writeBuilt h (fits_exportSelf n now)
  | getChannel =>
    simp only [handler, cmdGetChannel]
    split
    · split
      · exact answered_writeBuilt h (fits_channelInfoFrame _ _)
      · rename_i hslots
        obtain ⟨slots, hslots⟩ := Nat.exists_eq_succ_of_ne_zero hslots
        rw [hslots, List.range_succ_eq_map, List.map_cons]
        exact answered_of_fits h (fits_channelInfoFrame _ _) _
    · split
      · exact herr _
      · exact answered_writeBuilt h (fits_channelInfoFrame _ _)
  | setChannel =>
    simp only [handler, cmdSetChannel]
    split
    · exact herr _
    split
    · exact herr _
    split
    · exact answered_writeOk h
    · exact herr _

/-- With an empty queue, a command is answered exactly if it does not ask for an advert that is
too large for a frame. -/
theorem answered_handleCmd_iff {start : CompanionNode Seed} (hstart : start.Initial)
    (events : List Event) {q : WriteQueue}
    (hconnected : (start.run c events).server.writeQueue = some q) (hempty : q.frames = [])
    (cmd : ContactCommand) (data : Bytes) (now later : ℕ) :
    ((start.run c events).handleCmd c cmd data now later).server.Answered ↔
      ¬ (start.run c events).Overlong cmd data := by
  constructor
  · rintro ⟨q', hq', hne⟩ hlong
    rw [handleCmd_of_overlong hlong, hconnected] at hq'
    cases hq'
    exact hne hempty
  · intro hshort
    refine answered_handleCmd (hstart.pathsFit.run events) ?_ hshort now later
    rw [hconnected]
    rfl

theorem initial_fresh : fresh.Initial := ⟨rfl, rfl, rfl⟩

def connect : Event := .setServer { writeQueue := some {} }

/-- An advert that came along 32 hops, or along none. -/
def advertFrom (far : Bool) : Bytes :=
  (if far then [0x11, 0x60] ++ List.replicate 64 0x0A else [0x11, 0]) ++ List.replicate 32 7 ++
    [0xE8, 3, 0, 0] ++ List.replicate 64 0 ++ 0x81 :: List.replicate 9 0x41

/-- The advert is received and its contact stored. -/
def contactFrom (far : Bool) : List Event :=
  [.receive (advertFrom far) 0 [] 2000 2000, .discovered 0 2000 2000, connect]

/-- The export of a neighbour. -/
theorem answered_handleCmd_iff_near :
    (fresh.run xorCrypto (contactFrom false)).contacts.exportContact (List.replicate 32 7) =
        some (advertFrom false) ∧
      ((fresh.run xorCrypto (contactFrom false)).handleCmd xorCrypto .exportContact
        (List.replicate 32 7) 2000 2000).server.Answered := by
  have hexport : (fresh.run xorCrypto (contactFrom false)).contacts.exportContact
      (List.replicate 32 7) = some (advertFrom false) := by
    decide +kernel
  have hconnected : (fresh.run xorCrypto (contactFrom false)).server.writeQueue = some {} := by
    decide +kernel
  refine ⟨hexport, (answered_handleCmd_iff initial_fresh _ hconnected rfl _ _ _ _).mpr ?_⟩
  rintro ⟨-, -, raw, hraw, hlarge⟩
  cases hexport.symm.trans hraw
  exact absurd hlarge (by decide)

theorem not_answered_farContact :
    fresh.Initial ∧ (fresh.run xorCrypto (contactFrom true)).server.writeQueue = some {} ∧
      (fresh.run xorCrypto (contactFrom true)).contacts.exportContact (List.replicate 32 7) =
        some (advertFrom true) ∧
      ¬ ((fresh.run xorCrypto (contactFrom true)).handleCmd xorCrypto .exportContact
        (List.replicate 32 7) 2000 2000).server.Answered := by
  have hconnected : (fresh.run xorCrypto (contactFrom true)).server.writeQueue = some {} := by
    decide +kernel
  have hexport : (fresh.run xorCrypto (contactFrom true)).contacts.exportContact
      (List.replicate 32 7) = some (advertFrom true) := by
    decide +kernel
  have hlong : (fresh.run xorCrypto (contactFrom true)).Overlong .exportContact
      (List.replicate 32 7) :=
    ⟨rfl, by decide, advertFrom true, hexport, by decide +kernel⟩
  refine ⟨initial_fresh, hconnected, hexport, ?_⟩
  rw [handleCmd_of_overlong hlong]
  rintro ⟨q, hq, hne⟩
  rw [hconnected] at hq
  cases hq
  exact hne rfl

end CompanionNode

end OpenHop
