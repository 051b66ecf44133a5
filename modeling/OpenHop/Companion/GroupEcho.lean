import OpenHop.Companion.ChannelSend

/-! # Echoes of channel traffic

Group packets carry no sender, so a companion tells its own from those of others by the hash
that it recorded when it sent them. The hash is that of type and payload, which no scope,
route or path changes.
-/

namespace OpenHop

inductive GroupAction where
  | sendMessage (cfg : SendConfig) (channelIdx : ℕ) (text : List Char) (timestamp : ℕ)
  | sendData (cfg : SendConfig) (channelIdx dataType : ℕ) (payload : Bytes) (path : Option Bytes)
      (pathLenEncoded : Option ℕ)
  | receive (packet : Packet)

/-- An action with the readings of the two clocks. A send is recorded before it is handed on, so
that everything after that may come in between. -/
structure GroupEvent where
  action : GroupAction
  mono : ℚ
  now : ℚ

inductive GroupReport where
  | text (event : ChannelMessageEvent)
  | data (event : ChannelDataEvent)

/-- A copy has the type and the payload, and any route and path. -/
def Packet.Copy (p q : Packet) : Prop :=
  q.getPayloadType = p.getPayloadType ∧ q.getPayload = p.getPayload

def Packet.IsGroup (p : Packet) : Prop :=
  p.getPayloadType = payloadTypeGrpTxt ∨ p.getPayloadType = payloadTypeGrpData

instance (p : Packet) : Decidable p.IsGroup := inferInstanceAs (Decidable (_ ∨ _))

variable {Seed : Type} (c : Crypto Seed)

namespace Inbox

/-- What an action does, and what it reports to the app. -/
def groupStep (b : Inbox) (e : GroupEvent) : Inbox × Option GroupReport :=
  match e.action with
  | .sendMessage cfg channelIdx text timestamp =>
    ((b.sendChannelMessage c cfg e.mono channelIdx text timestamp).1, none)
  | .sendData cfg channelIdx dataType payload path pathLenEncoded =>
    ((b.sendChannelData c cfg e.mono channelIdx dataType payload path pathLenEncoded).1, none)
  | .receive packet =>
    if packet.getPayloadType = payloadTypeGrpTxt then
      let (b, event) := b.receiveGroupText c e.mono e.now packet
      (b, event.map .text)
    else if packet.getPayloadType = payloadTypeGrpData then
      let (b, event) := b.handleGroupDataPacket c e.mono packet
      (b, event.map .data)
    else (b, none)

def groupRun (b : Inbox) (events : List GroupEvent) : Inbox :=
  events.foldl (fun b e => (b.groupStep c e).1) b

end Inbox

def Packet.hash? (p : Packet) : Option Bytes := (p.calculatePacketHash c.sha256).toOption

/-- The group packet that is sent or received. -/
def GroupEvent.packet (channels : ChannelStore) (e : GroupEvent) : Option Packet :=
  match e.action with
  | .sendMessage cfg channelIdx text timestamp =>
    (Inbox.sendChannelMessage c { channels } cfg e.mono channelIdx text timestamp).2
  | .sendData cfg channelIdx dataType payload path pathLenEncoded =>
    (Inbox.sendChannelData c { channels } cfg e.mono channelIdx dataType payload path
      pathLenEncoded).2
  | .receive packet => if packet.IsGroup then some packet else none

/-- The hashes of the group packets sent or received. -/
def groupHashes (channels : ChannelStore) (events : List GroupEvent) : Finset Bytes :=
  (events.filterMap fun e => (e.packet c channels).bind (Packet.hash? c)).toFinset

/-- A received packet is authenticated by a channel and can be read. -/
def opens (channels : ChannelStore) (p : Packet) : Bool :=
  if p.getPayloadType = payloadTypeGrpTxt then
    ((GroupTextHandler.selectChannel c channels.getChannels p.getPayload).bind fun found =>
      GroupTextHandler.parsePlaintextMessage found.2).isSome
  else if p.getPayloadType = payloadTypeGrpData then
    decide (4 ≤ p.getPayload.length) &&
      ((Inbox.selectSlot c { channels } p.getPayload).bind fun found =>
        Inbox.parseGroupData found.2).isSome
  else false

/-- What an event presents to the cache: whatever is sent, and of what is received that which can
be read. -/
def GroupEvent.call (channels : ChannelStore) (e : GroupEvent) : Option (Bytes × ℚ) :=
  match e.action with
  | .receive packet =>
    if opens c channels packet then (packet.hash? c).map fun packetHash => (packetHash, e.mono)
    else none
  | _ => ((e.packet c channels).bind (Packet.hash? c)).map fun packetHash => (packetHash, e.mono)

def Inbox.present (b : Inbox) (call : Bytes × ℚ) : Inbox :=
  { b with seenGroupPackets := (b.seenGroupPackets.checkAndAdd call.1 call.2).2 }

/-- What an event can do. -/
inductive GroupMove (b : Inbox) (e : GroupEvent) : Inbox × Option GroupReport → Prop where
  | skipped (hcall : e.call c b.channels = none) : GroupMove b e (b, none)
  | recorded {call : Bytes × ℚ} (hcall : e.call c b.channels = some call)
      (hsend : ∀ packet, e.action ≠ .receive packet) : GroupMove b e (b.present call, none)
  | duplicate {call : Bytes × ℚ} (hcall : e.call c b.channels = some call)
      (hhit : (b.seenGroupPackets.checkAndAdd call.1 call.2).1 = true) :
      GroupMove b e (b.present call, none)
  | passed {call : Bytes × ℚ} {b' : Inbox} {report : Option GroupReport}
      (hcall : e.call c b.channels = some call)
      (hmiss : (b.seenGroupPackets.checkAndAdd call.1 call.2).1 = false)
      (hchannels : b'.channels = b.channels)
      (hcache : b'.seenGroupPackets = (b.present call).seenGroupPackets)
      (hseen : ∀ k, b'.seenGrpTxt.entries.contains k = true →
        b.seenGrpTxt.entries.contains k = true ∨ k = call.1)
      (hreport : b.seenGrpTxt.entries.contains call.1 = false → report.isSome = true) :
      GroupMove b e (b', report)

section

variable {c} {b : Inbox} {mono now : ℚ} {packet : Packet}

theorem trackAndSend_cases (b : Inbox) (channels : ChannelStore) (mono : ℚ)
    (built : Except PacketError Packet) :
    ∃ p, (b.trackAndSend c mono built).2 = p ∧
      (Inbox.trackAndSend c { channels } mono built).2 = p ∧
      (b.trackAndSend c mono built).1 =
        ((p.bind (Packet.hash? c)).map fun packetHash => (packetHash, mono)).elim b b.present := by
  unfold Inbox.trackAndSend
  cases built with
  | error e => exact ⟨none, rfl, rfl, rfl⟩
  | ok pkt =>
    dsimp only
    cases hhash : pkt.calculatePacketHash c.sha256 with
    | error e => exact ⟨none, rfl, rfl, rfl⟩
    | ok packetHash =>
      refine ⟨some pkt, rfl, rfl, ?_⟩
      simp [Packet.hash?, hhash, Except.toOption, Inbox.present]

theorem SeenCache.contains_checkAndAdd {cache : SeenCache} {key k : Bytes} {now : ℚ}
    (h : (cache.checkAndAdd key now).2.entries.contains k = true) :
    cache.entries.contains k = true ∨ k = key := by
  unfold SeenCache.checkAndAdd at h
  split at h
  · exact .inl h
  have hset : ((cache.entries.filter fun _ ts => !decide (now - ts > cache.ttl)).set key
      now).contains k = true := by
    dsimp only at h
    split at h
    · rw [Dict.contains_iff] at h ⊢
      exact ((List.tail_sublist _).map _).subset h
    · exact h
  rw [Dict.contains, Dict.get?_set] at hset
  split at hset
  · rename_i hk
    exact .inr hk
  · rw [← Dict.contains, Dict.contains_iff] at hset
    exact .inl (Dict.contains_iff.mpr ((List.filter_sublist.map _).subset hset))

theorem Packet.hash?_of_ne_trace (h : packet.getPayloadType ≠ payloadTypeTrace) :
    packet.hash? c = some ((c.sha256 (UInt8.ofNat packet.getPayloadType ::
      packet.getPayload)).take maxHashSize) := by
  rw [Packet.hash?, Packet.calculatePacketHash, if_neg h]
  rfl

theorem handleNewChannelMessage_spec (b : Inbox) (now : ℚ) {data : ChannelMessageData}
    (hin : data.isOutgoing = false) :
    (b.handleNewChannelMessage now data).1.channels = b.channels ∧
      (b.handleNewChannelMessage now data).1.seenGroupPackets = b.seenGroupPackets ∧
      (∀ k, (b.handleNewChannelMessage now data).1.seenGrpTxt.entries.contains k = true →
        b.seenGrpTxt.entries.contains k = true ∨ k = data.packetHash) ∧
      (b.seenGrpTxt.entries.contains data.packetHash = false →
        (b.handleNewChannelMessage now data).2.isSome = true) := by
  unfold Inbox.handleNewChannelMessage
  rw [if_neg (by simp [hin])]
  dsimp only
  have hkeys : ∀ k, (b.seenGrpTxt.checkAndAdd data.packetHash now).2.entries.contains k = true →
      b.seenGrpTxt.entries.contains k = true ∨ k = data.packetHash :=
    fun k => SeenCache.contains_checkAndAdd
  split
  · rename_i hseen
    refine ⟨rfl, rfl, hkeys, fun habsent => ?_⟩
    simp [SeenCache.checkAndAdd, habsent] at hseen
  · exact ⟨rfl, rfl, hkeys, fun _ => rfl⟩

theorem call_of_opens (hopens : opens c b.channels packet = true) {packetHash : Bytes}
    (hhash : packet.calculatePacketHash c.sha256 = .ok packetHash) :
    GroupEvent.call c b.channels ⟨.receive packet, mono, now⟩ = some (packetHash, mono) := by
  simp [GroupEvent.call, hopens, Packet.hash?, hhash, Except.toOption]

theorem call_of_not_opens (hopens : opens c b.channels packet = false) :
    GroupEvent.call c b.channels ⟨.receive packet, mono, now⟩ = none := by
  simp [GroupEvent.call, hopens]

theorem GroupTextHandler.call_opened {h : GroupTextHandler} {channel : ChannelConfig}
    {plaintext packetHash : Bytes} {parsed : GroupTextHandler.ParsedMessage}
    (hselect : GroupTextHandler.selectChannel c h.channels packet.getPayload =
      some (channel, plaintext))
    (hparse : GroupTextHandler.parsePlaintextMessage plaintext = some parsed)
    (hhash : packet.calculatePacketHash c.sha256 = .ok packetHash) :
    h.call c mono packet =
      ({ h with seenGroupPackets := (h.seenGroupPackets.checkAndAdd packetHash mono).2 },
        if (h.seenGroupPackets.checkAndAdd packetHash mono).1 then none
        else some (GroupTextHandler.messageData packet channel parsed packetHash)) := by
  unfold GroupTextHandler.call
  rw [hselect]
  dsimp only
  rw [hparse, hhash]
  dsimp only
  split <;> rfl

theorem receiveText_move (hpacket : packet.getPayloadType = payloadTypeGrpTxt) :
    GroupMove c b ⟨.receive packet, mono, now⟩
      (b.groupStep c ⟨.receive packet, mono, now⟩) := by
  have hnotrace : packet.getPayloadType ≠ payloadTypeTrace := by
    rw [hpacket]
    decide
  obtain ⟨packetHash, hhash⟩ := Packet.exists_packetHash c.sha256 hnotrace
  have hopens : opens c b.channels packet =
      ((GroupTextHandler.selectChannel c b.channels.getChannels packet.getPayload).bind
        fun found => GroupTextHandler.parsePlaintextMessage found.2).isSome := if_pos hpacket
  have hstep : b.groupStep c ⟨.receive packet, mono, now⟩ =
      ((b.receiveGroupText c mono now packet).1,
        (b.receiveGroupText c mono now packet).2.map .text) := if_pos hpacket
  rw [hstep]
  cases hselect : GroupTextHandler.selectChannel c b.channels.getChannels packet.getPayload with
  | none =>
    rw [hselect] at hopens
    have hskip : b.receiveGroupText c mono now packet = (b, none) := by
      simp [Inbox.receiveGroupText, GroupTextHandler.call, hselect]
    rw [hskip]
    exact .skipped (call_of_not_opens hopens)
  | some found =>
    obtain ⟨channel, plaintext⟩ := found
    rw [hselect] at hopens
    cases hparse : GroupTextHandler.parsePlaintextMessage plaintext with
    | none =>
      have hskip : b.receiveGroupText c mono now packet = (b, none) := by
        simp [Inbox.receiveGroupText, GroupTextHandler.call, hselect, hparse]
      rw [hskip]
      refine .skipped (call_of_not_opens (hopens.trans ?_))
      simp [hparse]
    | some parsed =>
      have hopened : opens c b.channels packet = true := by
        rw [hopens, Option.bind_some, hparse, Option.isSome_some]
      have hcall : GroupEvent.call c b.channels ⟨.receive packet, mono, now⟩ =
          some (packetHash, mono) := call_of_opens hopened hhash
      have hreceive : b.receiveGroupText c mono now packet =
          if (b.seenGroupPackets.checkAndAdd packetHash mono).1 then
            (b.present (packetHash, mono), none)
          else (b.present (packetHash, mono)).handleNewChannelMessage now
            (GroupTextHandler.messageData packet channel parsed packetHash) := by
        unfold Inbox.receiveGroupText
        dsimp only
        rw [GroupTextHandler.call_opened (h := ⟨b.channels.getChannels, b.seenGroupPackets⟩)
          hselect hparse hhash]
        cases (b.seenGroupPackets.checkAndAdd packetHash mono).1 <;> rfl
      rw [hreceive]
      cases hhit : (b.seenGroupPackets.checkAndAdd packetHash mono).1 with
      | true => exact .duplicate hcall hhit
      | false =>
        obtain ⟨hchannels, hcache, hseen, hreport⟩ := handleNewChannelMessage_spec
          (b.present (packetHash, mono)) now
          (show (GroupTextHandler.messageData packet channel parsed packetHash).isOutgoing = false
            from rfl)
        rw [if_neg (by decide)]
        refine .passed hcall hhit hchannels hcache hseen fun habsent => ?_
        rw [Option.isSome_map]
        exact hreport habsent

theorem handleGroupDataPacket_opened (mono : ℚ) {idx : ℕ} {plaintext packetHash : Bytes}
    {parsed : ℕ × Bytes} (hlength : ¬packet.getPayload.length < 4)
    (hselect : b.selectSlot c packet.getPayload = some (idx, plaintext))
    (hparse : Inbox.parseGroupData plaintext = some parsed)
    (hhash : packet.calculatePacketHash c.sha256 = .ok packetHash) :
    ∃ queue event, b.handleGroupDataPacket c mono packet =
      if (b.seenGroupPackets.checkAndAdd packetHash mono).1 then
        (b.present (packetHash, mono), none)
      else ({ b.present (packetHash, mono) with messageQueue := queue }, some event) := by
  unfold Inbox.handleGroupDataPacket
  dsimp only
  rw [if_neg hlength, hhash]
  dsimp only
  rw [hselect]
  dsimp only
  rw [hparse]
  exact ⟨_, _, rfl⟩

theorem receiveData_move (hpacket : packet.getPayloadType = payloadTypeGrpData) :
    GroupMove c b ⟨.receive packet, mono, now⟩
      (b.groupStep c ⟨.receive packet, mono, now⟩) := by
  have hnotrace : packet.getPayloadType ≠ payloadTypeTrace := by
    rw [hpacket]
    decide
  have hnottext : packet.getPayloadType ≠ payloadTypeGrpTxt := by
    rw [hpacket]
    decide
  obtain ⟨packetHash, hhash⟩ := Packet.exists_packetHash c.sha256 hnotrace
  have hopens : opens c b.channels packet = (decide (4 ≤ packet.getPayload.length) &&
      ((b.selectSlot c packet.getPayload).bind fun found =>
        Inbox.parseGroupData found.2).isSome) := by
    rw [opens, if_neg hnottext, if_pos hpacket]
    rfl
  have hstep : b.groupStep c ⟨.receive packet, mono, now⟩ =
      ((b.handleGroupDataPacket c mono packet).1,
        (b.handleGroupDataPacket c mono packet).2.map .data) := by
    unfold Inbox.groupStep
    dsimp only
    rw [if_neg hnottext, if_pos hpacket]
  rw [hstep]
  by_cases hshort : packet.getPayload.length < 4
  · have hskip : b.handleGroupDataPacket c mono packet = (b, none) := if_pos hshort
    rw [hskip]
    refine .skipped (call_of_not_opens (hopens.trans ?_))
    rw [decide_eq_false (not_le.mpr hshort), Bool.false_and]
  rw [decide_eq_true (not_lt.mp hshort), Bool.true_and] at hopens
  cases hselect : b.selectSlot c packet.getPayload with
  | none =>
    have hskip : b.handleGroupDataPacket c mono packet = (b, none) := by
      simp [Inbox.handleGroupDataPacket, hhash, hselect]
    rw [hselect] at hopens
    rw [hskip]
    exact .skipped (call_of_not_opens hopens)
  | some found =>
    obtain ⟨idx, plaintext⟩ := found
    rw [hselect, Option.bind_some] at hopens
    cases hparse : Inbox.parseGroupData plaintext with
    | none =>
      have hskip : b.handleGroupDataPacket c mono packet = (b, none) := by
        simp [Inbox.handleGroupDataPacket, hhash, hselect, hparse]
      rw [hparse] at hopens
      rw [hskip]
      exact .skipped (call_of_not_opens hopens)
    | some parsed =>
      rw [hparse] at hopens
      have hcall : GroupEvent.call c b.channels ⟨.receive packet, mono, now⟩ =
          some (packetHash, mono) := call_of_opens hopens hhash
      obtain ⟨queue, event, hreceive⟩ :=
        handleGroupDataPacket_opened mono hshort hselect hparse hhash
      rw [hreceive]
      cases hhit : (b.seenGroupPackets.checkAndAdd packetHash mono).1 with
      | true => exact .duplicate hcall hhit
      | false => exact .passed hcall hhit rfl rfl (fun _ hk => .inl hk) fun _ => rfl

theorem call_of_send {e : GroupEvent} (hsend : ∀ packet, e.action ≠ .receive packet)
    (channels : ChannelStore) :
    e.call c channels =
      ((e.packet c channels).bind (Packet.hash? c)).map fun packetHash => (packetHash, e.mono) := by
  unfold GroupEvent.call
  split
  · rename_i packet haction
    exact absurd haction (hsend packet)
  · rfl

theorem send_move {e : GroupEvent} {built : Except PacketError Packet}
    (hsend : ∀ packet, e.action ≠ .receive packet)
    (hpacket : e.packet c b.channels =
      (Inbox.trackAndSend c { channels := b.channels } e.mono built).2) :
    GroupMove c b e ((b.trackAndSend c e.mono built).1, none) := by
  obtain ⟨p, -, hp, hstate⟩ := trackAndSend_cases (c := c) b b.channels e.mono built
  have hcall := call_of_send (c := c) hsend b.channels
  rw [hpacket, hp] at hcall
  rw [hstate]
  rw [← hcall]
  cases hpresented : e.call c b.channels with
  | none => exact .skipped hpresented
  | some call => exact .recorded hpresented hsend

theorem groupStep_move (b : Inbox) (e : GroupEvent) : GroupMove c b e (b.groupStep c e) := by
  obtain ⟨action, mono, now⟩ := e
  cases action with
  | sendMessage cfg channelIdx text timestamp =>
    have hsend : ∀ packet, (⟨.sendMessage cfg channelIdx text timestamp, mono, now⟩ :
        GroupEvent).action ≠ .receive packet := fun _ => nofun
    simp only [Inbox.groupStep, Inbox.sendChannelMessage]
    cases hchannel : b.channels.get channelIdx with
    | none =>
      refine .skipped ((call_of_send hsend b.channels).trans ?_)
      simp [GroupEvent.packet, Inbox.sendChannelMessage, hchannel]
    | some channel =>
      refine send_move hsend ?_
      simp [GroupEvent.packet, Inbox.sendChannelMessage, hchannel]
  | sendData cfg channelIdx dataType payload path pathLenEncoded =>
    have hsend : ∀ packet, (⟨.sendData cfg channelIdx dataType payload path pathLenEncoded, mono,
        now⟩ : GroupEvent).action ≠ .receive packet := fun _ => nofun
    have hskip (hpacket : GroupEvent.packet c b.channels ⟨.sendData cfg channelIdx dataType payload
        path pathLenEncoded, mono, now⟩ = none) := (call_of_send hsend b.channels).trans
      (congrArg (fun p => (p.bind (Packet.hash? c)).map fun packetHash => (packetHash, mono))
        hpacket)
    simp only [Inbox.groupStep, Inbox.sendChannelData]
    cases hchannel : b.channels.get channelIdx with
    | none =>
      refine .skipped (hskip ?_)
      simp [GroupEvent.packet, Inbox.sendChannelData, hchannel]
    | some channel =>
      dsimp only
      split
      · rename_i htype
        refine .skipped (hskip ?_)
        simp [GroupEvent.packet, Inbox.sendChannelData, hchannel, htype]
      split
      · rename_i htype hlength
        refine .skipped (hskip ?_)
        simp [GroupEvent.packet, Inbox.sendChannelData, hchannel, htype, hlength]
      · rename_i htype hlength
        refine send_move hsend ?_
        simp [GroupEvent.packet, Inbox.sendChannelData, hchannel, htype, hlength]
  | receive packet =>
    by_cases htext : packet.getPayloadType = payloadTypeGrpTxt
    · exact receiveText_move htext
    by_cases hdata : packet.getPayloadType = payloadTypeGrpData
    · exact receiveData_move hdata
    have hstep : b.groupStep c ⟨.receive packet, mono, now⟩ = (b, none) :=
      (if_neg htext).trans (if_neg hdata)
    rw [hstep]
    exact .skipped (call_of_not_opens ((if_neg htext).trans (if_neg hdata)))

theorem isGroup_of_opens {channels : ChannelStore} (h : opens c channels packet = true) :
    packet.IsGroup := by
  unfold opens at h
  split at h
  · exact .inl ‹_›
  split at h
  · exact .inr ‹_›
  · cases h

theorem call_eq_some {channels : ChannelStore} {e : GroupEvent} {call : Bytes × ℚ}
    (h : e.call c channels = some call) :
    (e.packet c channels).bind (Packet.hash? c) = some call.1 ∧ call.2 = e.mono := by
  have hcall : ∀ p : Option Packet,
      ((p.bind (Packet.hash? c)).map fun packetHash => (packetHash, e.mono)) = some call →
        p.bind (Packet.hash? c) = some call.1 ∧ call.2 = e.mono := by
    intro p hp
    obtain ⟨packetHash, hhash, rfl⟩ := Option.map_eq_some_iff.mp hp
    exact ⟨hhash, rfl⟩
  unfold GroupEvent.call at h
  split at h
  · rename_i packet haction
    split at h
    · rename_i hopens
      have hpacket : e.packet c channels = some packet := by
        rw [GroupEvent.packet, haction]
        exact if_pos (isGroup_of_opens hopens)
      rw [hpacket]
      exact hcall (some packet) h
    · cases h
  · exact hcall _ h

theorem GroupMove.channels_eq {e : GroupEvent} {r : Inbox × Option GroupReport}
    (h : GroupMove c b e r) : r.1.channels = b.channels := by
  cases h with
  | passed _ _ hchannels => exact hchannels
  | _ => rfl

theorem GroupMove.cache_eq {e : GroupEvent} {r : Inbox × Option GroupReport}
    (h : GroupMove c b e r) :
    r.1.seenGroupPackets = b.seenGroupPackets.afterCalls (e.call c b.channels).toList := by
  cases h with
  | skipped hcall => rw [hcall]; rfl
  | recorded hcall => rw [hcall]; rfl
  | duplicate hcall => rw [hcall]; rfl
  | passed hcall _ _ hcache => rw [hcall]; exact hcache

theorem GroupMove.seen_subset {e : GroupEvent} {r : Inbox × Option GroupReport}
    (h : GroupMove c b e r) {k : Bytes} (hk : r.1.seenGrpTxt.entries.contains k = true) :
    b.seenGrpTxt.entries.contains k = true ∨ k ∈ groupHashes c b.channels [e] := by
  cases h with
  | passed hcall _ _ _ hseen =>
    refine (hseen k hk).imp_right fun heq => ?_
    have hhash := (call_eq_some hcall).1
    simp [groupHashes, hhash, heq]
  | _ => exact .inl hk

theorem groupRun_spec (b : Inbox) (events : List GroupEvent) :
    (b.groupRun c events).channels = b.channels ∧
      (b.groupRun c events).seenGroupPackets =
        b.seenGroupPackets.afterCalls (events.filterMap (·.call c b.channels)) ∧
      ∀ k, (b.groupRun c events).seenGrpTxt.entries.contains k = true →
        b.seenGrpTxt.entries.contains k = true ∨ k ∈ groupHashes c b.channels events := by
  induction events using List.reverseRecOn with
  | nil => exact ⟨rfl, rfl, fun _ hk => .inl hk⟩
  | append_singleton events e ih =>
    obtain ⟨hchannels, hcache, hseen⟩ := ih
    have hrun : b.groupRun c (events ++ [e]) = ((b.groupRun c events).groupStep c e).1 := by
      rw [Inbox.groupRun, List.foldl_append]
      rfl
    have hmove := groupStep_move (c := c) (b.groupRun c events) e
    rw [hrun]
    refine ⟨hmove.channels_eq.trans hchannels, ?_, fun k hk => ?_⟩
    · rw [hmove.cache_eq, hcache, hchannels, List.filterMap_append, PacketHashCache.afterCalls,
        PacketHashCache.afterCalls, PacketHashCache.afterCalls, List.foldl_append]
      cases hcall : e.call c b.channels <;> simp [hcall]
    · rcases hmove.seen_subset hk with hold | hnew
      · refine (hseen k hold).imp_right fun hmem => ?_
        rw [groupHashes, List.filterMap_append, List.toFinset_append]
        exact Finset.mem_union_left _ hmem
      · rw [hchannels] at hnew
        rw [groupHashes, List.filterMap_append, List.toFinset_append]
        exact .inr (Finset.mem_union_right _ hnew)

theorem Packet.Copy.opens_eq {p q : Packet} (h : p.Copy q) (channels : ChannelStore) :
    opens c channels p = opens c channels q := by
  rw [opens, opens, h.1, h.2]

theorem Packet.IsGroup.ne_trace (h : packet.IsGroup) :
    packet.getPayloadType ≠ payloadTypeTrace := by
  rcases h with h | h <;> rw [h] <;> decide

theorem Packet.Copy.hash?_eq {p q : Packet} (h : p.Copy q) (hq : q.IsGroup) :
    p.hash? c = q.hash? c := by
  have hp : p.getPayloadType ≠ payloadTypeTrace := h.1 ▸ hq.ne_trace
  rw [Packet.hash?_of_ne_trace hp, Packet.hash?_of_ne_trace hq.ne_trace, h.1, h.2]

theorem call_of_packet {channels : ChannelStore} {e : GroupEvent} {p : Packet} {k : Bytes}
    (hpacket : e.packet c channels = some p) (hopens : opens c channels p = true)
    (hhash : p.hash? c = some k) : e.call c channels = some (k, e.mono) := by
  obtain ⟨action, mono, now⟩ := e
  cases action with
  | receive packet =>
    have hgroup : (if packet.IsGroup then some packet else none) = some p := hpacket
    obtain ⟨-, heq⟩ := Option.ite_none_right_eq_some.mp hgroup
    cases heq
    simp [GroupEvent.call, hopens, hhash]
  | sendMessage cfg channelIdx text timestamp =>
    refine (call_of_send (by simp) channels).trans ?_
    rw [hpacket, Option.bind_some, hhash]
    rfl
  | sendData cfg channelIdx dataType payload path pathLenEncoded =>
    refine (call_of_send (by simp) channels).trans ?_
    rw [hpacket, Option.bind_some, hhash]
    rfl

theorem calls_pairwise (channels : ChannelStore) {events : List GroupEvent}
    (hclock : events.Pairwise fun a b => a.mono ≤ b.mono) :
    (events.filterMap (·.call c channels)).Pairwise fun a b => a.2 ≤ b.2 := by
  refine hclock.filterMap _ fun e e' hle call hcall call' hcall' => ?_
  rw [(call_eq_some hcall).2, (call_eq_some hcall').2]
  exact hle

theorem mem_groupHashes_of_call {channels : ChannelStore} {events : List GroupEvent} {k : Bytes}
    (h : k ∈ (events.filterMap (·.call c channels)).map Prod.fst) :
    k ∈ groupHashes c channels events := by
  obtain ⟨call, hmem, rfl⟩ := List.mem_map.mp h
  obtain ⟨e, he, hcall⟩ := List.mem_filterMap.mp hmem
  exact List.mem_toFinset.mpr (List.mem_filterMap.mpr ⟨e, he, (call_eq_some hcall).1⟩)

theorem groupRun_hit_iff {events : List GroupEvent} {e : GroupEvent} {k : Bytes}
    (hempty : b.seenGroupPackets.entries = Dict.empty)
    (hclock : (events ++ [e]).Pairwise fun a b => a.mono ≤ b.mono)
    (hcall : e.call c b.channels = some (k, e.mono)) :
    ((b.groupRun c events).seenGroupPackets.checkAndAdd k e.mono).1 = true ↔
      Recency.Recent b.seenGroupPackets.maxEntries b.seenGroupPackets.ttlSeconds
        (events.filterMap (·.call c b.channels)) k e.mono := by
  obtain ⟨-, hcache, -⟩ := groupRun_spec (c := c) b events
  obtain ⟨httl, -, hentries⟩ := PacketHashCache.afterCalls_eq b.seenGroupPackets
    (events.filterMap (·.call c b.channels))
  have hsorted := calls_pairwise (c := c) b.channels hclock
  rw [List.filterMap_append, List.filterMap_cons, hcall] at hsorted
  rw [hcache, PacketHashCache.checkAndAdd_hit_iff, httl, hentries, hempty]
  exact Recency.mem_keys_foldl_present _ _ hsorted

/-- A packet that was sent or received is recent if neither its age nor what came since is too
much. -/
theorem recent_of_event {channels : ChannelStore} {before since : List GroupEvent} {e : GroupEvent}
    {k : Bytes} {room : ℕ} {ttl later : ℚ}
    (hclock : (before ++ e :: since).Pairwise fun a b => a.mono ≤ b.mono)
    (hcall : e.call c channels = some (k, e.mono)) (hage : later - e.mono ≤ ttl)
    (hroom : ((groupHashes c channels since).filter fun h => some k ≠ some h).card < room) :
    Recency.Recent room ttl ((before ++ e :: since).filterMap (·.call c channels)) k later := by
  have hsorted := calls_pairwise (c := c) channels hclock
  rw [List.filterMap_append, List.filterMap_cons, hcall] at hsorted ⊢
  refine Recency.recent_of_presented hsorted hage (lt_of_le_of_lt (Finset.card_le_card ?_) hroom)
  intro h hmem
  obtain ⟨hne, hmem⟩ := Finset.mem_erase.mp hmem
  refine Finset.mem_filter.mpr ⟨mem_groupHashes_of_call (List.mem_toFinset.mp hmem), ?_⟩
  simpa [eq_comm] using hne

/-- From empty caches: a copy of a group packet that the cache still holds is neither queued nor
reported, and what can be read is reported if no group packet before had its hash. -/
theorem groupRun_echo (b : Inbox) (hcache : b.seenGroupPackets.entries = Dict.empty)
    (hseen : b.seenGrpTxt.entries = Dict.empty) (events : List GroupEvent) (echo : GroupEvent)
    (q : Packet) (hecho : echo.action = .receive q)
    (hclock : (events ++ [echo]).Pairwise fun a b => a.mono ≤ b.mono) :
    (∀ before e since p, events = before ++ e :: since → e.packet c b.channels = some p →
      p.Copy q → echo.mono - e.mono ≤ b.seenGroupPackets.ttlSeconds →
      ((groupHashes c b.channels since).filter fun k => q.hash? c ≠ some k).card <
        b.seenGroupPackets.maxEntries →
      ((b.groupRun c events).groupStep c echo).2 = none ∧
        ((b.groupRun c events).groupStep c echo).1.messageQueue =
          (b.groupRun c events).messageQueue) ∧
    (opens c b.channels q = true → (∀ k ∈ groupHashes c b.channels events, q.hash? c ≠ some k) →
      ((b.groupRun c events).groupStep c echo).2.isSome = true) := by
  obtain ⟨action, mono, now⟩ := echo
  obtain rfl : action = .receive q := hecho
  obtain ⟨hchannels, -, hkeys⟩ := groupRun_spec (c := c) b events
  have hmove := groupStep_move (c := c) (b.groupRun c events) ⟨.receive q, mono, now⟩
  generalize (b.groupRun c events).groupStep c ⟨.receive q, mono, now⟩ = r at hmove
  -- what can be read has a hash and presents it
  have hread (hopens : opens c b.channels q = true) : ∃ k, q.hash? c = some k ∧
      GroupEvent.call c b.channels ⟨.receive q, mono, now⟩ = some (k, mono) := by
    have hgroup := isGroup_of_opens hopens
    have hhash := Packet.hash?_of_ne_trace (c := c) hgroup.ne_trace
    exact ⟨_, hhash, call_of_packet (if_pos hgroup) hopens hhash⟩
  constructor
  · rintro before e since p rfl hpacket hcopy hage hroom
    cases hmove with
    | skipped => exact ⟨rfl, rfl⟩
    | recorded => exact ⟨rfl, rfl⟩
    | duplicate => exact ⟨rfl, rfl⟩
    | passed hcall hmiss =>
      rw [hchannels] at hcall
      have hopens : opens c b.channels q = true := by
        by_contra hclosed
        rw [call_of_not_opens (Bool.eq_false_iff.mpr hclosed)] at hcall
        cases hcall
      obtain ⟨k, hhash, hpresented⟩ := hread hopens
      cases hpresented.symm.trans hcall
      have hsent := call_of_packet hpacket ((hcopy.opens_eq b.channels).trans hopens)
        ((hcopy.hash?_eq (isGroup_of_opens hopens)).trans hhash)
      rw [hhash] at hroom
      have hrecent := recent_of_event (List.pairwise_append.mp hclock).1 hsent hage hroom
      have hhit := (groupRun_hit_iff hcache hclock hpresented).mpr hrecent
      cases hmiss.symm.trans hhit
  · intro hopens hnew
    obtain ⟨k, hhash, hpresented⟩ := hread hopens
    have hfresh : k ∉ groupHashes c b.channels events := fun hmem => hnew k hmem hhash
    cases hmove with
    | skipped hcall =>
      rw [hchannels, hpresented] at hcall
      cases hcall
    | recorded _ hsend => exact absurd rfl (hsend q)
    | duplicate hcall hhit =>
      rw [hchannels] at hcall
      cases hpresented.symm.trans hcall
      obtain ⟨before, t, since, hevents, -⟩ :=
        (groupRun_hit_iff hcache hclock hpresented).mp hhit
      refine absurd (mem_groupHashes_of_call ?_) hfresh
      rw [hevents]
      simp
    | passed hcall _ _ _ _ hreport =>
      rw [hchannels] at hcall
      cases hpresented.symm.trans hcall
      refine hreport (Bool.eq_false_iff.mpr fun hcontains => ?_)
      rcases hkeys k hcontains with hold | hmem
      · rw [hseen] at hold
        cases hold
      · exact hfresh hmem

end

/-- A relayed copy of `dataPacket`, with one hop on its path. -/
def relayedPacket : Packet := { Inbox.dataPacket with path := [9], pathLen := 1 }

def foreignPacket : Packet :=
  ((Inbox.dataSender.sendChannelData xorCrypto {} 0 0 301 [9]).2).getD {}

def sentEvent : GroupEvent := ⟨.sendData {} 0 300 [9] none none, 0, 0⟩

def foreignEvent : GroupEvent := ⟨.receive foreignPacket, 500, 500⟩

def relayedEvent : GroupEvent := ⟨.receive relayedPacket, 600, 600⟩

/-- Data of another node is reported, and the copy of what was sent at 0 is not at 600. -/
theorem groupRun_echo_relayed :
    ((Inbox.dataSender.groupRun xorCrypto [sentEvent]).groupStep xorCrypto
      foreignEvent).2.isSome = true ∧
    ((Inbox.dataSender.groupRun xorCrypto [sentEvent, foreignEvent]).groupStep xorCrypto
      relayedEvent).2 = none := by
  constructor
  · exact (groupRun_echo Inbox.dataSender rfl rfl [sentEvent] foreignEvent foreignPacket rfl
      (by decide +kernel)).2 (by decide +kernel) (by decide +kernel)
  · refine ((groupRun_echo Inbox.dataSender rfl rfl [sentEvent, foreignEvent] relayedEvent
      relayedPacket rfl (by decide +kernel)).1 [] sentEvent [foreignEvent] Inbox.dataPacket rfl
      ?_ ⟨rfl, rfl⟩ (by decide +kernel) (by decide +kernel)).1
    exact Inbox.sendChannelData_dataPacket

end OpenHop
