import OpenHop.Companion.ChannelSend

/-! # Slots and names

A slot is turned into a name when text is sent to it, and the name back into a secret by the
builder. A received text turns its secret into a name and the name back into a slot.
-/

namespace OpenHop

/-- The packet has the digest byte of a secret and its authentication code matches. -/
def Authenticates {Seed : Type} (c : Crypto Seed) (secret payload : Bytes) : Prop :=
  4 ≤ payload.length ∧ deriveChannelHash c secret = payload.headD 0 ∧
    (GroupTextHandler.decryptChannelMessage c secret ((payload.take 3).drop 1)
      (payload.drop 3)).isSome = true

/-- A packet authenticates under the secret of this slot and of no other. -/
structure OnlySlot {Seed : Type} (c : Crypto Seed) (s : ChannelStore) (idx : ℕ) (payload : Bytes) :
    Prop where
  holds : ∃ channel, s.get idx = some channel ∧ Authenticates c channel.secret payload
  unique : ∀ j channel, s.get j = some channel → Authenticates c channel.secret payload → j = idx

/-- Text sent to a slot is built with a given secret, whatever the primitives. -/
def SendsUnder (s : ChannelStore) (idx : ℕ) (secret : Bytes) : Prop :=
  ∀ (Seed : Type) (c : Crypto Seed) (b : Inbox) (cfg : SendConfig) (mono : ℚ) (text : List Char)
    (timestamp : ℕ), b.channels = s →
    b.sendChannelMessage c cfg mono idx text timestamp =
      b.trackAndSend c mono (Inbox.finishFlood c cfg
        (PacketBuilder.groupDatagram c secret text cfg.nodeName timestamp))

/-- A published text that authenticates under this slot only is queued and reported under it. -/
def ReceivesAs (s : ChannelStore) (idx : ℕ) : Prop :=
  ∀ (Seed : Type) (c : Crypto Seed) (b : Inbox) (mono now : ℚ) (p : Packet)
    (data : ChannelMessageData), b.channels = s → OnlySlot c s idx p.getPayload →
    (GroupTextHandler.call c ⟨s.getChannels, b.seenGroupPackets⟩ mono p).2 = some data →
    (b.seenGrpTxt.checkAndAdd data.packetHash now).1 = false →
    ∃ e msg, (b.receiveGroupText c mono now p).2 = some e ∧
      (b.receiveGroupText c mono now p).1.messageQueue = (b.messageQueue.push msg).2 ∧
      e.queued = (b.messageQueue.push msg).1 ∧ e.channelIdx = idx ∧ msg.channelIdx = idx

section

variable {Seed : Type} {c : Crypto Seed}

theorem authenticates_of_selectChannel {channels : List ChannelConfig} {payload plaintext : Bytes}
    {channel : ChannelConfig}
    (h : GroupTextHandler.selectChannel c channels payload = some (channel, plaintext)) :
    channel ∈ channels ∧ Authenticates c channel.secret payload := by
  unfold GroupTextHandler.selectChannel at h
  split at h
  · cases h
  rename_i hlen
  obtain ⟨ch, hmem, hopen⟩ := List.exists_of_findSome?_eq_some h
  obtain ⟨hin, hhash⟩ := List.mem_filter.mp hmem
  obtain ⟨opened, hopened, heq⟩ := Option.map_eq_some_iff.mp hopen
  cases heq
  exact ⟨hin, by omega, of_decide_eq_true hhash, by rw [hopened]; rfl⟩

theorem selectChannel_of_call {h : GroupTextHandler} {mono : ℚ} {p : Packet}
    {data : ChannelMessageData} (hcall : (h.call c mono p).2 = some data) :
    ∃ channel plaintext,
      GroupTextHandler.selectChannel c h.channels p.getPayload = some (channel, plaintext) ∧
      data.channelName = channel.name ∧ data.isOutgoing = false := by
  unfold GroupTextHandler.call at hcall
  split at hcall
  · cases hcall
  · rename_i channel plaintext hselect
    split at hcall
    · dsimp only at hcall
      split at hcall
      · cases hcall
      · cases hcall
        exact ⟨channel, plaintext, hselect, rfl, rfl⟩
    · cases hcall

theorem channelName_of_onlySlot {s : ChannelStore} {idx : ℕ} {payload : Bytes} {p : Packet}
    {seen : PacketHashCache} {mono : ℚ} {data : ChannelMessageData} {channel : ChannelConfig}
    (hpayload : p.getPayload = payload) (hslot : s.get idx = some channel)
    (honly : OnlySlot c s idx payload)
    (hcall : (GroupTextHandler.call c ⟨s.getChannels, seen⟩ mono p).2 = some data) :
    data.channelName = channel.name ∧ data.isOutgoing = false := by
  obtain ⟨selected, plaintext, hselect, hname, hout⟩ := selectChannel_of_call hcall
  rw [hpayload] at hselect
  obtain ⟨hmem, hauth⟩ := authenticates_of_selectChannel hselect
  obtain ⟨j, hj⟩ := ChannelStore.mem_getChannels.mp hmem
  obtain rfl := honly.unique j selected hj hauth
  cases hslot.symm.trans hj
  exact ⟨hname, hout⟩

theorem handleNewChannelMessage_fresh {b : Inbox} {now : ℚ} {data : ChannelMessageData}
    (hout : data.isOutgoing = false)
    (hfresh : (b.seenGrpTxt.checkAndAdd data.packetHash now).1 = false) :
    ∃ e, (b.handleNewChannelMessage now data).2 = some e ∧
      (b.handleNewChannelMessage now data).1.messageQueue =
        (b.messageQueue.push (b.channelMessage data)).2 ∧
      e.queued = (b.messageQueue.push (b.channelMessage data)).1 ∧
      e.channelIdx = (b.channelMessage data).channelIdx := by
  simp only [Inbox.handleNewChannelMessage, hout, hfresh, Bool.false_eq_true, if_false]
  exact ⟨_, rfl, rfl, rfl, rfl⟩

theorem receivesAs_of_secret {s : ChannelStore} {idx : ℕ} {channel : ChannelConfig}
    (hslot : s.get idx = some channel)
    (hname : ∀ first other, s.findByName channel.name = some first → s.get first = some other →
      other.secret = channel.secret) : ReceivesAs s idx := by
  rintro Seed c b mono now p data rfl honly hcall hfresh
  obtain ⟨hdata, hout⟩ := channelName_of_onlySlot rfl hslot honly hcall
  obtain ⟨first, other, hfind, -, hother, -⟩ := ChannelStore.exists_findByName hslot
  have hauth : Authenticates c other.secret p.getPayload := by
    obtain ⟨ch, hch, hauth⟩ := honly.holds
    cases hslot.symm.trans hch
    rw [hname first other hfind hother]
    exact hauth
  obtain rfl := honly.unique first other hother hauth
  obtain ⟨e, he, hqueue, hqueued, hidx⟩ := handleNewChannelMessage_fresh
    (b := { b with seenGroupPackets := (GroupTextHandler.call c
      ⟨b.channels.getChannels, b.seenGroupPackets⟩ mono p).1.seenGroupPackets }) hout hfresh
  have hmsg : (b.channels.findByName data.channelName).getD 0 = first := by
    rw [hdata, hfind]
    rfl
  refine ⟨e, _, ?_, ?_, hqueued, hidx.trans hmsg, hmsg⟩
  · simp only [Inbox.receiveGroupText, hcall]
    exact he
  · simp only [Inbox.receiveGroupText, hcall]
    exact hqueue

theorem sendChannelMessage_eq {b : Inbox} {idx : ℕ} {channel other : ChannelConfig} {first : ℕ}
    (hslot : b.channels.get idx = some channel)
    (hfind : b.channels.findByName channel.name = some first)
    (hother : b.channels.get first = some other) (cfg : SendConfig) (mono : ℚ) (text : List Char)
    (timestamp : ℕ) :
    b.sendChannelMessage c cfg mono idx text timestamp =
      b.trackAndSend c mono (Inbox.finishFlood c cfg
        (PacketBuilder.groupDatagram c other.secret text cfg.nodeName timestamp)) := by
  have hlookup : (b.channels.getChannels.find? fun ch => ch.name = channel.name) = some other := by
    rw [ChannelStore.find?_getChannels, hfind]
    exact hother
  simp only [Inbox.sendChannelMessage, hslot, PacketBuilder.createGroupDatagram, hlookup]

theorem exists_finishFlood (p : Packet) : ∃ q, Inbox.finishFlood c {} (.ok p) = .ok q := by
  have hscope : ∃ q, SendConfig.applyFloodScope c {} p = .ok q := by
    unfold SendConfig.applyFloodScope
    split
    · exact ⟨_, rfl⟩
    split
    · exact ⟨_, rfl⟩
    · exact ⟨_, rfl⟩
  have hmode : ∀ r : Packet, ∃ q, SendConfig.applyPathHashMode {} r = .ok q := by
    intro r
    rw [SendConfig.applyPathHashMode, Packet.applyPathHashMode, if_neg (by decide)]
    split
    · exact ⟨_, rfl⟩
    split
    · exact ⟨_, rfl⟩
    · exact ⟨_, rfl⟩
  obtain ⟨r, hr⟩ := hscope
  obtain ⟨q, hq⟩ := hmode r
  refine ⟨q, ?_⟩
  rw [Inbox.finishFlood, ok_bind, hr, ok_bind, hq]

theorem trackAndSend_empty {secret : Bytes} (hsecret : secret.length = 32) (b : Inbox) :
    ∃ p, (b.trackAndSend c 0 (Inbox.finishFlood c {}
        (PacketBuilder.groupDatagram c secret [] [] 0))).2 = some p ∧
      p.payload = deriveChannelHash c secret :: c.encryptThenMac (secret.take 16) secret
        (PacketBuilder.ackSpan 0 0 [] [0x3A, 0x20]) := by
  have hsize : (deriveChannelHash c secret :: c.encryptThenMac (secret.take 16) secret
      (PacketBuilder.ackSpan 0 0 [] [0x3A, 0x20])).length ≤ maxPacketPayload := by
    rw [List.length_cons, c.length_encryptThenMac]
    decide
  obtain ⟨p, hp, hpayload, htype, hwell⟩ :=
    PacketBuilder.createPacket_spec payloadTypeGrpTxt (by decide) .flood false hsize
  have hbuilt : PacketBuilder.groupDatagram c secret [] [] 0 = .ok p := by
    rw [PacketBuilder.groupDatagram_eq (PacketBuilder.digestHead_channelHashInput hsecret) [] []
      (by decide), normalizeChannelSecret_of_length hsecret]
    exact hp
  obtain ⟨q, hq⟩ := exists_finishFlood (c := c) p
  obtain ⟨-, hqtype, hqpayload⟩ := Inbox.finishFlood_wellFormed hwell hq
  refine ⟨q, ?_, hqpayload.trans hpayload⟩
  rw [hbuilt, hq]
  exact Inbox.trackAndSend_of_ok ((hqtype.trans htype).trans_ne (by decide)) b 0

end

/-- Primitives whose authentication code tells whether the key is a given one. -/
def keyedCrypto (secret : Bytes) : Crypto Bytes :=
  { xorCrypto with
    hmacSha256 := fun key _ => List.replicate 32 (if key = secret then 1 else 0)
    length_hmacSha256 := fun _ _ => List.length_replicate }

theorem secret_of_sendsUnder {s : ChannelStore} (hs : s.StoredSecrets) {idx first : ℕ}
    {channel other : ChannelConfig} (hslot : s.get idx = some channel)
    (hfind : s.findByName channel.name = some first) (hother : s.get first = some other)
    (hsends : SendsUnder s idx channel.secret) : other.secret = channel.secret := by
  have hsent := hsends Bytes (keyedCrypto channel.secret) { channels := s } {} 0 [] 0 rfl
  rw [sendChannelMessage_eq hslot hfind hother] at hsent
  obtain ⟨p, hp, hpayload⟩ := trackAndSend_empty (c := keyedCrypto channel.secret)
    (hs first other hother) { channels := s }
  obtain ⟨q, hq, hqpayload⟩ := trackAndSend_empty (c := keyedCrypto channel.secret)
    (hs idx channel hslot) { channels := s }
  have hpq : some p = some q := by
    rw [← hp, ← hq]
    exact congrArg Prod.snd hsent
  cases hpq
  have hmac := congrArg (fun d => d.tail.head?) (hpayload.symm.trans hqpayload)
  by_contra hne
  simp [Crypto.encryptThenMac, keyedCrypto, hne] at hmac

/-- Slots are told apart exactly where the first slot with the channel's name holds the channel's
own secret. -/
theorem channelSlots_iff {s : ChannelStore} (hs : s.Reachable) {idx : ℕ} {channel : ChannelConfig}
    (hslot : s.get idx = some channel) :
    SendsUnder s idx channel.secret ∧ ReceivesAs s idx ↔
      ∀ first other, s.findByName channel.name = some first → s.get first = some other →
        other.secret = channel.secret := by
  constructor
  · rintro ⟨hsends, -⟩ first other hfind hother
    exact secret_of_sendsUnder hs.storedSecrets hslot hfind hother hsends
  · intro hname
    refine ⟨?_, receivesAs_of_secret hslot hname⟩
    rintro Seed c b cfg mono text timestamp rfl
    obtain ⟨first, other, hfind, -, hother, -⟩ := ChannelStore.exists_findByName hslot
    rw [sendChannelMessage_eq hslot hfind hother, hname first other hfind hother]

/-! Two channels of one name. -/

def twinOps (second : List Char) : List ChannelOp :=
  [.setChannel 0 ['t'] (List.replicate 32 7), .setChannel 1 second (List.replicate 32 9)]

def twinStore : ChannelStore := (twinOps ['t']).foldl ChannelStore.apply (.empty 2)

/-- A text under the secret of the second channel. -/
def secondHi : Packet :=
  { header := 21
    payload := [32, 0, 0, 12, 9, 9, 9, 9, 72, 51, 41, 97, 96, 9, 9, 9, 9, 9, 9]
    payloadLen := 19 }

/-- Text sent to the second slot is encrypted for the first, and text that only the second slot
authenticates is reported under the first. -/
theorem channelSlots_confused :
    twinStore.Reachable ∧ twinStore.get 1 = some ⟨['t'], List.replicate 32 9⟩ ∧
    PacketBuilder.groupDatagram xorCrypto (List.replicate 32 9) ['h', 'i'] ['A'] 5 =
      .ok secondHi ∧
    (Inbox.sendChannelMessage xorCrypto { channels := twinStore } { nodeName := ['A'] } 0 1
      ['h', 'i'] 5).2.map (·.payload) =
        (PacketBuilder.groupDatagram xorCrypto (List.replicate 32 7) ['h', 'i'] ['A']
          5).toOption.map (·.payload) ∧
    (Inbox.sendChannelMessage xorCrypto { channels := twinStore } { nodeName := ['A'] } 0 1
      ['h', 'i'] 5).2.map (·.payload) ≠ some secondHi.payload ∧
    OnlySlot xorCrypto twinStore 1 secondHi.getPayload ∧
    (Inbox.receiveGroupText xorCrypto { channels := twinStore } 0 0 secondHi).2.map
      (·.channelIdx) = some 0 := by
  have honly : OnlySlot xorCrypto twinStore 1 secondHi.getPayload := by
    refine ⟨⟨⟨['t'], List.replicate 32 9⟩, by decide, by decide, by decide, by decide⟩, ?_⟩
    rintro j channel hj ⟨-, hhash, -⟩
    match j with
    | 0 =>
      cases hj
      exact absurd hhash (by decide)
    | 1 => rfl
    | j + 2 => cases hj
  refine ⟨⟨2, twinOps ['t'], rfl⟩, by decide, by decide +kernel, by decide +kernel,
    by decide +kernel, honly, by decide +kernel⟩

theorem channelSlots_iff_named :
    SendsUnder ((twinOps ['u']).foldl ChannelStore.apply (.empty 2)) 1 (List.replicate 32 9) ∧
    ReceivesAs ((twinOps ['u']).foldl ChannelStore.apply (.empty 2)) 1 := by
  have hslot : ((twinOps ['u']).foldl ChannelStore.apply (.empty 2)).get 1 =
      some ⟨['u'], List.replicate 32 9⟩ := by decide
  refine (channelSlots_iff ⟨2, twinOps ['u'], rfl⟩ hslot).mpr ?_
  intro first other hfind hother
  obtain rfl : 1 = first := Option.some.inj hfind
  cases hslot.symm.trans hother
  rfl

end OpenHop
