import OpenHop.Companion.PathDiscovery

/-! # The scope of what a companion sends

Before it hands a packet over, an operation of the companion decides the scope of a flood:
the app's key of the moment, else the persisted one, else none.
-/

namespace OpenHop

/-- The key that the app's choice comes to, if there is one and floods are to be scoped. -/
def SendConfig.scopeKey (config : SendConfig) : Option Bytes :=
  if config.floodUnscoped then none else config.resolveFloodTransportKey

/-- A flood that was decided by the app's choice: under the code of its own payload if there is a
key, and plain exactly if there is none. -/
structure InScope {Seed : Type} (c : Crypto Seed) (config : SendConfig) (p : Packet) : Prop where
  applied : p.floodScopeApplied = true
  plain : p.getRouteType = routeTypeFlood ↔ config.scopeKey = none
  transport : ∀ key, config.scopeKey = some key →
    p.getRouteType = routeTypeTransportFlood ∧
      ∃ code, calcTransportCode c key p = some code ∧ p.transportCodes = (code, 0)

/-- A packet as an operation built it and as it was handed to `_send_packet`, with the
preferences at that time. -/
structure Handed where
  config : SendConfig
  built : Packet
  sent : Packet

/-- The preferences, the answers of the world and what has become of the proxy by the time of one
attempt. -/
structure Attempt where
  config : SendConfig
  timestamp : ℕ
  proxy : Contact → Contact := id
  expired : Bool := false
  sendOk : Bool := true
  answered : Bool := false

/-- What the operations that send read of a companion. -/
structure SendOps (Seed : Type) where
  identity : Seed
  contacts : ContactStore
  inbox : Inbox
  config : SendConfig
  hasTextHandler : Bool := true
  hasLoginHandler : Bool := true
  hasProtocolHandler : Bool := true

/-- A request without a named route has the length of a stored path or none, never a negative
one. -/
def Draft.toPacket (d : Draft) : Packet := { d.packet with pathLen := d.pathLen.toNat }

namespace SendOps

variable {Seed : Type} (c : Crypto Seed)

/-- Decide the scope, then the hash width. Nothing is handed over if either raises. -/
def hand (config : SendConfig) (built : Packet) : Option Handed :=
  (Inbox.finishFlood c config (.ok built)).toOption.map fun sent => ⟨config, built, sent⟩

def handBuilt (config : SendConfig) (built : Except PacketError Packet) : List Handed :=
  (built.toOption.bind (hand c config)).toList

def withProxy (s : SendOps Seed) (pubKey : Bytes) (send : Contact → List Handed) : List Handed :=
  match s.contacts.getByKey pubKey with
  | none => []
  | some contact => send contact

/-- `DEFAULT_MAX_ATTEMPTS` -/
def defaultMaxAttempts : ℕ := 3

def takeBuiltPacket (built : Except PacketError Packet) : Option Packet :=
  built.toOption.filter fun pkt => !(pkt.floodScopeApplied || pkt.pathHashModeApplied)

def buildRetryPacket (build : Contact → ℕ → Except PacketError Packet) (proxy : Contact)
    (timestamp : ℕ) : Option Packet :=
  if proxy.outPathLen < 0 then takeBuiltPacket (build proxy timestamp)
  else takeBuiltPacket (build { proxy with outPathLen := -1 } timestamp)

/-- The packet of an attempt, built and decided. -/
def attempt (build : Contact → ℕ → Except PacketError Packet) (proxy : Contact) (retry : Bool)
    (a : Attempt) : Option Handed :=
  (if retry then buildRetryPacket build (a.proxy proxy) a.timestamp
    else takeBuiltPacket (build (a.proxy proxy) a.timestamp)).bind (hand c a.config)

/-- The attempts after the first, until one is answered, cannot be sent or comes too late. -/
def finishStartedRequest (build : Contact → ℕ → Except PacketError Packet) (proxy : Contact) :
    List Attempt → List Handed
  | [] => []
  | a :: attempts =>
    match attempt c build proxy true a with
    | none => []
    | some handed =>
      if a.expired then []
      else handed :: if a.sendOk ∧ ¬ a.answered then finishStartedRequest build proxy attempts
        else []

def startRequest (build : Contact → ℕ → Except PacketError Packet) (proxy : Contact)
    (attempts : List Attempt) : List Handed :=
  match attempts.take defaultMaxAttempts with
  | [] => []
  | a :: attempts =>
    match attempt c build proxy false a with
    | none => []
    | some handed =>
      handed :: if a.sendOk ∧ ¬ a.answered then finishStartedRequest c build proxy attempts else []

def retryLoop (build : Contact → ℕ → Except PacketError Packet) (proxy : Contact) (retry : Bool) :
    List Attempt → List Handed
  | [] => []
  | a :: attempts =>
    match attempt c build proxy retry a with
    | none => []
    | some handed =>
      if a.expired then []
      else handed :: if a.answered then [] else retryLoop build proxy true attempts

def requestWithRetries (build : Contact → ℕ → Except PacketError Packet) (proxy : Contact)
    (attempts : List Attempt) : List Handed :=
  retryLoop c build proxy false (attempts.take defaultMaxAttempts)

/-- `PROTOCOL_CODE_RAW_DATA` -/
def protocolCodeRawData : ℕ := 0x00

/-- `REQ_TYPE_GET_STATUS` -/
def reqTypeGetStatus : ℕ := 0x01

/-- `PROTOCOL_CODE_BINARY_REQ` -/
def protocolCodeBinaryReq : ℕ := 0x02

/-- `PROTOCOL_CODE_ANON_REQ` -/
def protocolCodeAnonReq : ℕ := 0x07

/-- The request of the builder, on the route that the contact's path tells. -/
def protocolRequest (identity : Seed) (protocolCode : ℕ) (data : Bytes) (proxy : Contact)
    (timestamp : ℕ) : Except PacketError Packet :=
  (PacketBuilder.createProtocolRequest c proxy identity protocolCode data timestamp none).map
    fun r => r.1.toPacket

def textRoute (proxy : Contact) : PacketBuilder.RouteName :=
  if proxy.outPathLen < 0 then .flood else .direct

def sendTextMessage (s : SendOps Seed) (pubKey : Bytes) (text : List Char)
    (txtType attempt timestamp : ℕ) : List Handed :=
  s.withProxy pubKey fun proxy =>
    handBuilt c s.config ((PacketBuilder.createTextMessage c proxy s.identity text attempt
      (textRoute proxy) none txtType timestamp).map Prod.fst)

def handChannel (config : SendConfig) (built : Except PacketError Packet) (sent : Option Packet) :
    List Handed :=
  match built, sent with
  | .ok built, some sent => [⟨config, built, sent⟩]
  | _, _ => []

def sendChannelMessage (s : SendOps Seed) (mono : ℚ) (channelIdx : ℕ) (text : List Char)
    (timestamp : ℕ) : List Handed :=
  match s.inbox.channels.get channelIdx with
  | none => []
  | some channel =>
    handChannel s.config
      (PacketBuilder.createGroupDatagram c channel.name text s.config.nodeName
        (some s.inbox.channels.getChannels) timestamp)
      (s.inbox.sendChannelMessage c s.config mono channelIdx text timestamp).2

def routedChannelData (secret : Bytes) (dataType : ℕ) (payload : Bytes) (path : Option Bytes)
    (pathLenEncoded : Option ℕ) : Except PacketError Packet := do
  let secretBytes :=
    if secret.length < 32 then secret ++ List.replicate (32 - secret.length) 0 else secret.take 32
  let hashInput :=
    if 32 ≤ secretBytes.length ∧ (secretBytes.drop 16).take 16 = List.replicate 16 0 then
      secretBytes.take 16
    else secretBytes
  let pkt ← PacketBuilder.createGroupDataPacket c payloadTypeGrpData (c.digestHead hashInput)
    (Inbox.groupDataPlaintext dataType payload) secretBytes
  if Inbox.isFloodLen pathLenEncoded then return pkt
  else
    Packet.setPath { pkt with header := (pkt.header / 4 * 4) ||| routeTypeDirect } (path.getD [])
      pathLenEncoded

def sendChannelData (s : SendOps Seed) (mono : ℚ) (channelIdx dataType : ℕ) (payload : Bytes)
    (path : Option Bytes) (pathLenEncoded : Option ℕ) : List Handed :=
  match s.inbox.channels.get channelIdx with
  | none => []
  | some channel =>
    handChannel s.config (routedChannelData c channel.secret dataType payload path pathLenEncoded)
      (s.inbox.sendChannelData c s.config mono channelIdx dataType payload path pathLenEncoded).2

def sendBinaryReq (s : SendOps Seed) (pubKey data : Bytes) (timestamp : ℕ) : List Handed :=
  s.withProxy pubKey fun proxy =>
    handBuilt c s.config
      (protocolRequest c s.identity (data.headD 0).toNat data.tail proxy timestamp)

/-- A node that is not known becomes a transient contact without hops, if there is room. -/
def anonContacts (s : SendOps Seed) (pubKey : Bytes) (now : ℕ) : Option ContactStore :=
  if s.contacts.contacts.contains pubKey then some s.contacts
  else
    let (ok, _, contacts) := s.contacts.addTransient
      { publicKey := pubKey, advType := advTypeNone, outPathLen := 0, lastmod := now }
    if ok then some contacts else none

def sendAnonReq (s : SendOps Seed) (pubKey data : Bytes) (timestamp now : ℕ) : List Handed :=
  match s.anonContacts pubKey now with
  | none => []
  | some contacts =>
    withProxy { s with contacts := contacts } pubKey fun proxy =>
      handBuilt c s.config ((PacketBuilder.createAnonRequest c proxy s.identity data timestamp).map
        fun r => r.1.toPacket)

def sendPathDiscoveryReq (s : SendOps Seed) (pubKey : Bytes) (timestamp random : ℕ) : List Handed :=
  s.withProxy pubKey fun proxy =>
    let invPerm : UInt8 := 0xFF &&& ~~~ DiscoveryNode.telemPermBase
    handBuilt c s.config ((PacketBuilder.createProtocolRequest c proxy s.identity
      DiscoveryNode.reqTypeGetTelemetryData ([invPerm, 0, 0, 0] ++ Bytes.le 4 random) timestamp
      (some .flood)).map fun r => r.1.toPacket)

def sendRawData (s : SendOps Seed) (destKey data : Bytes) (timestamp : ℕ) : List Handed :=
  s.withProxy destKey fun proxy =>
    ((protocolRequest c s.identity protocolCodeRawData data proxy timestamp).toOption.bind
      fun built => (s.config.applyPathHashMode built).toOption.map fun sent =>
        ⟨s.config, built, sent⟩).toList

def sendLogin (s : SendOps Seed) (pubKey : Bytes) (password : List Char)
    (attempts : List Attempt) : List Handed :=
  s.withProxy pubKey fun proxy =>
    if ¬ s.hasLoginHandler then []
    else
      startRequest c
        (fun proxy timestamp =>
          PacketBuilder.createLoginPacket c proxy s.identity password timestamp)
        proxy attempts

def startFrameLoginRequest (s : SendOps Seed) (pubKey : Bytes) (password : List Char)
    (timestamp : ℕ) : List Handed :=
  s.withProxy pubKey fun proxy =>
    if ¬ s.hasLoginHandler then []
    else
      handBuilt c s.config (PacketBuilder.createLoginPacket c proxy s.identity password timestamp)

/-- The key of a contact as an attribute: proxies have it in hex, the store in bytes. -/
inductive KeyAttribute where
  | hex
  | bytes

/-- `bytes.fromhex` reads a string of digits and raises on the bytes of a key. -/
def fromHex : KeyAttribute → Except PacketError Unit
  | .hex => .ok ()
  | .bytes => .error .badPublicKey

def createLogoutPacket (contact : Contact) (key : KeyAttribute) (identity : Seed)
    (timestamp : ℕ) : Except PacketError Packet := do
  fromHex key
  let (pkt, _) ← PacketBuilder.createTextMessage c contact identity ['l', 'o', 'g', 'o', 'u', 't'] 0
    .direct none txtTypeCliData timestamp
  return pkt

def sendLogout (s : SendOps Seed) (pubKey : Bytes) (timestamp : ℕ) : List Handed :=
  s.withProxy pubKey fun contact =>
    ((createLogoutPacket c contact .bytes s.identity timestamp).toOption.bind fun built =>
      (s.config.applyPathHashMode built).toOption.map fun sent => ⟨s.config, built, sent⟩).toList

def startProtocolRequest (s : SendOps Seed) (pubKey : Bytes) (protocolCode : ℕ) (data : Bytes)
    (attempts : List Attempt) : List Handed :=
  s.withProxy pubKey fun proxy =>
    if ¬ s.hasProtocolHandler then []
    else startRequest c (protocolRequest c s.identity protocolCode data) proxy attempts

def sendStatusRequest (s : SendOps Seed) (pubKey : Bytes) (attempts : List Attempt) : List Handed :=
  s.startProtocolRequest c pubKey reqTypeGetStatus [] attempts

/-- `_compute_inverse_perm_mask` -/
def computeInversePermMask (wantBase wantLocation wantEnvironment : Bool) : UInt8 :=
  (if wantBase then 0 else 0x01) ||| (if wantLocation then 0 else 0x02) |||
    (if wantEnvironment then 0 else 0x04)

def sendTelemetryRequest (s : SendOps Seed) (pubKey : Bytes)
    (wantBase wantLocation wantEnvironment : Bool) (attempts : List Attempt) : List Handed :=
  s.startProtocolRequest c pubKey DiscoveryNode.reqTypeGetTelemetryData
    [computeInversePermMask wantBase wantLocation wantEnvironment] attempts

def sendProtocolRequest (s : SendOps Seed) (pubKey : Bytes) (protocolCode : ℕ) (data : Bytes)
    (attempts : List Attempt) : List Handed :=
  s.withProxy pubKey fun proxy =>
    if ¬ s.hasProtocolHandler then []
    else requestWithRetries c (protocolRequest c s.identity protocolCode data) proxy attempts

def sendBinaryRequest (s : SendOps Seed) (pubKey data : Bytes) (attempts : List Attempt) :
    List Handed :=
  s.sendProtocolRequest c pubKey protocolCodeBinaryReq data attempts

def sendAnonRequest (s : SendOps Seed) (pubKey data : Bytes) (attempts : List Attempt) :
    List Handed :=
  s.sendProtocolRequest c pubKey protocolCodeAnonReq data attempts

def sendRepeaterCommand (s : SendOps Seed) (pubKey : Bytes) (command parameters : List Char)
    (txtType timestamp : ℕ) : List Handed :=
  if txtType ≠ txtTypeCliData ∧ txtType ≠ txtTypeCliCommand then []
  else
    s.withProxy pubKey fun proxy =>
      if ¬ s.hasTextHandler then []
      else
        let fullCommand := if parameters = [] then command else command ++ ' ' :: parameters
        handBuilt c s.config ((PacketBuilder.createTextMessage c proxy s.identity fullCommand 1
          (textRoute proxy) none txtType timestamp).map Prod.fst)

/-- The operations that originate encrypted and channel packets. -/
inductive Operation where
  | textMessage (pubKey : Bytes) (text : List Char) (txtType attempt timestamp : ℕ)
  | channelMessage (mono : ℚ) (channelIdx : ℕ) (text : List Char) (timestamp : ℕ)
  | channelData (mono : ℚ) (channelIdx dataType : ℕ) (payload : Bytes) (path : Option Bytes)
    (pathLenEncoded : Option ℕ)
  | binaryReq (pubKey data : Bytes) (timestamp : ℕ)
  | anonReq (pubKey data : Bytes) (timestamp now : ℕ)
  | pathDiscovery (pubKey : Bytes) (timestamp random : ℕ)
  | rawData (destKey data : Bytes) (timestamp : ℕ)
  | login (pubKey : Bytes) (password : List Char) (attempts : List Attempt)
  | frameLogin (pubKey : Bytes) (password : List Char) (timestamp : ℕ)
  | logout (pubKey : Bytes) (timestamp : ℕ)
  | status (pubKey : Bytes) (attempts : List Attempt)
  | telemetry (pubKey : Bytes) (wantBase wantLocation wantEnvironment : Bool)
    (attempts : List Attempt)
  | binaryRequest (pubKey data : Bytes) (attempts : List Attempt)
  | anonRequest (pubKey data : Bytes) (attempts : List Attempt)
  | repeaterCommand (pubKey : Bytes) (command parameters : List Char) (txtType timestamp : ℕ)

/-- What an operation hands to `_send_packet`. -/
def handed (s : SendOps Seed) : Operation → List Handed
  | .textMessage pubKey text txtType attempt timestamp =>
    s.sendTextMessage c pubKey text txtType attempt timestamp
  | .channelMessage mono channelIdx text timestamp =>
    s.sendChannelMessage c mono channelIdx text timestamp
  | .channelData mono channelIdx dataType payload path pathLenEncoded =>
    s.sendChannelData c mono channelIdx dataType payload path pathLenEncoded
  | .binaryReq pubKey data timestamp => s.sendBinaryReq c pubKey data timestamp
  | .anonReq pubKey data timestamp now => s.sendAnonReq c pubKey data timestamp now
  | .pathDiscovery pubKey timestamp random => s.sendPathDiscoveryReq c pubKey timestamp random
  | .rawData destKey data timestamp => s.sendRawData c destKey data timestamp
  | .login pubKey password attempts => s.sendLogin c pubKey password attempts
  | .frameLogin pubKey password timestamp => s.startFrameLoginRequest c pubKey password timestamp
  | .logout pubKey timestamp => s.sendLogout c pubKey timestamp
  | .status pubKey attempts => s.sendStatusRequest c pubKey attempts
  | .telemetry pubKey wantBase wantLocation wantEnvironment attempts =>
    s.sendTelemetryRequest c pubKey wantBase wantLocation wantEnvironment attempts
  | .binaryRequest pubKey data attempts => s.sendBinaryRequest c pubKey data attempts
  | .anonRequest pubKey data attempts => s.sendAnonRequest c pubKey data attempts
  | .repeaterCommand pubKey command parameters txtType timestamp =>
    s.sendRepeaterCommand c pubKey command parameters txtType timestamp

end SendOps

variable {Seed : Type} {c : Crypto Seed}

def Packet.Undecided (p : Packet) : Prop := p.floodScopeApplied = false

namespace PacketBuilder

theorem undecided_createPacket (header : ℕ) (payload : Bytes) :
    Yields (createPacket header payload) Packet.Undecided := by
  intro p hp
  obtain ⟨-, rfl⟩ := createPacket_ok hp
  rfl

theorem undecided_createTextMessage {contact : Contact} {identity : Seed} {message : List Char}
    {attempt txtType timestamp : ℕ} {route : RouteName} {outPath : Option (List PathItem)} :
    Yields (createTextMessage c contact identity message attempt route outPath txtType timestamp)
      fun r => r.1.Undecided := by
  intro r hr
  simp only [createTextMessage, bind_eq_ok, pure_eq_ok, Except.ok.injEq] at hr
  obtain ⟨_, _, _, _, _, _, _, _, _, _, pkt, hpkt, rfl⟩ := hr
  obtain ⟨path, pathLen, rfl⟩ := setRoutingPath_eq hpkt
  rfl

theorem requestPath_eq {packet : Packet} {contact : Contact} {d : Draft} {tag tag' : ℕ}
    {alongPath : Prop} [Decidable alongPath]
    (h : (if alongPath then do
        let draft ← setRequestPath packet contact
        return (draft, tag)
      else return (.ofPacket packet, tag) : Except PacketError (Draft × ℕ)) = .ok (d, tag')) :
    d.toPacket.header = packet.header ∧
      d.toPacket.floodScopeApplied = packet.floodScopeApplied := by
  split at h
  · obtain ⟨draft, hdraft, hd⟩ := bind_eq_ok.mp h
    cases hd
    obtain ⟨path, pathLen, hpacket⟩ := setRequestPath_eq hdraft
    rw [Draft.toPacket, hpacket]
    exact ⟨rfl, rfl⟩
  · cases h
    exact ⟨rfl, rfl⟩

theorem createProtocolRequest_eq {contact : Contact} {identity : Seed} {code timestamp tag : ℕ}
    {data : Bytes} {route : Option RouteName} {d : Draft}
    (h : createProtocolRequest c contact identity code data timestamp route = .ok (d, tag)) :
    d.toPacket.header = createHeader payloadTypeReq (route.getD (routeTo contact)) ∧
      d.toPacket.Undecided := by
  obtain ⟨plaintext, -, h⟩ := bind_eq_ok.mp h
  obtain ⟨payload, -, h⟩ := bind_eq_ok.mp h
  obtain ⟨packet, hpacket, h⟩ := bind_eq_ok.mp h
  obtain ⟨hheader, happlied⟩ := requestPath_eq h
  obtain ⟨-, rfl⟩ := createPacket_ok hpacket
  exact ⟨hheader, happlied⟩

theorem undecided_createProtocolRequest {contact : Contact} {identity : Seed}
    {code timestamp : ℕ} {data : Bytes} {route : Option RouteName} :
    Yields ((createProtocolRequest c contact identity code data timestamp route).map
      fun r => r.1.toPacket) Packet.Undecided := by
  intro p hp
  obtain ⟨r, hr, rfl⟩ := map_eq_ok.mp hp
  exact (createProtocolRequest_eq hr).2

theorem undecided_createAnonRequest {contact : Contact} {identity : Seed} {data : Bytes}
    {timestamp : ℕ} :
    Yields ((createAnonRequest c contact identity data timestamp).map fun r => r.1.toPacket)
      Packet.Undecided := by
  intro p hp
  obtain ⟨r, hr, rfl⟩ := map_eq_ok.mp hp
  obtain ⟨plaintext, -, hr⟩ := bind_eq_ok.mp hr
  obtain ⟨secrets, -, hr⟩ := bind_eq_ok.mp hr
  obtain ⟨destHash, -, hr⟩ := bind_eq_ok.mp hr
  obtain ⟨packet, hpacket, hr⟩ := bind_eq_ok.mp hr
  obtain ⟨-, happlied⟩ := requestPath_eq hr
  exact happlied.trans (undecided_createPacket _ _ packet hpacket)

theorem undecided_createLoginPacket {contact : Contact} {identity : Seed} {password : List Char}
    {timestamp : ℕ} :
    Yields (createLoginPacket c contact identity password timestamp) Packet.Undecided := by
  intro p hp
  obtain ⟨plaintext, -, hp⟩ := bind_eq_ok.mp hp
  obtain ⟨secrets, -, hp⟩ := bind_eq_ok.mp hp
  obtain ⟨packet, hpacket, hp⟩ := bind_eq_ok.mp hp
  obtain ⟨destHash, -, hpacket⟩ := bind_eq_ok.mp hpacket
  have hfresh := undecided_createPacket _ _ packet hpacket
  split at hp
  · obtain ⟨path, pathLen, rfl⟩ := setRoutingPath_eq hp
    exact hfresh
  · cases hp
    exact hfresh

theorem undecided_createGroupDatagram {name message senderName : List Char}
    {channels : Option (List ChannelConfig)} {timestamp : ℕ} :
    Yields (createGroupDatagram c name message senderName channels timestamp)
      Packet.Undecided := by
  intro p hp
  obtain ⟨_, channel, -, -, hp⟩ := createGroupDatagram_ok hp
  obtain ⟨plaintext, -, hp⟩ := bind_eq_ok.mp hp
  exact undecided_createPacket _ _ p hp

theorem undecided_createGroupDataPacket {ptype : ℕ} {channelHash : UInt8}
    {plaintext secret : Bytes} :
    Yields (createGroupDataPacket c ptype channelHash plaintext secret) Packet.Undecided := by
  intro p hp
  obtain ⟨-, hp⟩ := ite_error_eq_ok.mp hp
  exact undecided_createPacket _ _ p hp

end PacketBuilder

theorem InScope.withPathLen {config : SendConfig} {p : Packet} (h : InScope c config p)
    (pathLen : ℕ) (applied : Bool) :
    InScope c config { p with pathLen := pathLen, pathHashModeApplied := applied } :=
  ⟨h.applied, h.plain, h.transport⟩

theorem scopePacket_flood {p q : Packet} {key : Bytes} (h : scopePacket c p key = some q) :
    q.floodScopeApplied = p.floodScopeApplied ∧ q.getRouteType = routeTypeTransportFlood ∧
      ∃ code, calcTransportCode c key q = some code ∧ q.transportCodes = (code, 0) := by
  have htype := (scopePacket_carries h).2
  have hroute := getRouteType_scopePacket h
  obtain ⟨code, hcode, rfl⟩ := Option.map_eq_some_iff.mp h
  refine ⟨rfl, hroute, code, ?_, rfl⟩
  rw [← hcode, calcTransportCode, calcTransportCode, htype]
  rfl

theorem inScope_applyFloodScope {config : SendConfig} {p q : Packet} (hfresh : p.Undecided)
    (hflood : p.getRouteType = routeTypeFlood) (h : config.applyFloodScope c p = .ok q) :
    InScope c config q := by
  have hplain : config.scopeKey = none →
      InScope c config { p with floodScopeApplied := true } := fun hnone =>
    ⟨rfl, iff_of_true hflood hnone, fun key hkey => by rw [hnone] at hkey; cases hkey⟩
  unfold SendConfig.applyFloodScope at h
  rw [hfresh, if_neg (by decide), if_neg (not_not.mpr hflood)] at h
  dsimp only at h
  split at h
  · rename_i hunscoped
    cases h
    exact hplain (if_pos hunscoped)
  rename_i hscoped
  have hkey : config.scopeKey = config.resolveFloodTransportKey := if_neg hscoped
  split at h
  · rename_i hnone
    cases h
    exact hplain (hkey.trans hnone)
  · rename_i key hsome
    split at h
    · rename_i marked hmarked
      cases h
      obtain ⟨happlied, hroute, hcode⟩ := scopePacket_flood hmarked
      have hsome' : config.scopeKey = some key := hkey.trans hsome
      refine ⟨happlied, iff_of_false ?_ ?_, fun key' hkey' => ?_⟩
      · rw [hroute]
        decide
      · rw [hsome']
        exact Option.some_ne_none key
      · cases hsome'.symm.trans hkey'
        exact ⟨hroute, hcode⟩
    · cases h

theorem inScope_finishFlood {config : SendConfig} {p q : Packet} (hfresh : p.Undecided)
    (hflood : p.getRouteType = routeTypeFlood)
    (h : Inbox.finishFlood c config (.ok p) = .ok q) : InScope c config q := by
  rw [Inbox.finishFlood, ok_bind] at h
  obtain ⟨decided, hdecided, hmode⟩ := bind_eq_ok.mp h
  obtain ⟨pathLen, applied, rfl⟩ := Packet.applyPathHashMode_eq hmode
  exact (inScope_applyFloodScope hfresh hflood hdecided).withPathLen pathLen applied

/-- The packet was built without a decision, which was then made. -/
structure Handed.Decided (c : Crypto Seed) (h : Handed) : Prop where
  fresh : h.built.Undecided
  finished : Inbox.finishFlood c h.config (.ok h.built) = .ok h.sent

theorem Handed.Decided.inScope {h : Handed} (hd : h.Decided c)
    (hflood : h.built.getRouteType = routeTypeFlood) : InScope c h.config h.sent :=
  inScope_finishFlood hd.fresh hflood hd.finished

namespace SendOps

variable {s : SendOps Seed} {h : Handed}

theorem decided_hand {config : SendConfig} {built : Packet} (hfresh : built.Undecided)
    (hhand : hand c config built = some h) : h.Decided c := by
  obtain ⟨sent, hsent, rfl⟩ := Option.map_eq_some_iff.mp hhand
  exact ⟨hfresh, toOption_eq_some.mp hsent⟩

theorem decided_handBuilt {config : SendConfig} {built : Except PacketError Packet}
    (hfresh : Yields built Packet.Undecided) (hmem : h ∈ handBuilt c config built) :
    h.Decided c := by
  obtain ⟨p, hp, hhand⟩ := Option.bind_eq_some_iff.mp (Option.mem_toList.mp hmem)
  exact decided_hand (hfresh p (toOption_eq_some.mp hp)) hhand

theorem mem_withProxy {pubKey : Bytes} {send : Contact → List Handed}
    (hmem : h ∈ s.withProxy pubKey send) : ∃ proxy, s.contacts.getByKey pubKey = some proxy ∧
      h ∈ send proxy := by
  unfold withProxy at hmem
  split at hmem
  · cases hmem
  · rename_i proxy hproxy
    exact ⟨proxy, hproxy, hmem⟩

section

variable {build : Contact → ℕ → Except PacketError Packet} {proxy : Contact}

theorem undecided_takeBuiltPacket {built : Except PacketError Packet} {p : Packet}
    (h : takeBuiltPacket built = some p) : p.Undecided := by
  obtain ⟨-, hp⟩ := Option.filter_eq_some_iff.mp h
  rw [Bool.not_eq_true', Bool.or_eq_false_iff] at hp
  exact hp.1

theorem decided_attempt {retry : Bool} {a : Attempt}
    (hattempt : attempt c build proxy retry a = some h) : h.Decided c := by
  obtain ⟨p, hp, hhand⟩ := Option.bind_eq_some_iff.mp hattempt
  refine decided_hand ?_ hhand
  split at hp
  · unfold buildRetryPacket at hp
    split at hp
    · exact undecided_takeBuiltPacket hp
    · exact undecided_takeBuiltPacket hp
  · exact undecided_takeBuiltPacket hp

theorem decided_finishStartedRequest {attempts : List Attempt}
    (hmem : h ∈ finishStartedRequest c build proxy attempts) : h.Decided c := by
  induction attempts with
  | nil => cases hmem
  | cons a attempts ih =>
    unfold finishStartedRequest at hmem
    split at hmem
    · cases hmem
    rename_i first hfirst
    split at hmem
    · cases hmem
    rcases List.mem_cons.mp hmem with rfl | hlater
    · exact decided_attempt hfirst
    split at hlater
    · exact ih hlater
    · cases hlater

theorem decided_startRequest {attempts : List Attempt}
    (hmem : h ∈ startRequest c build proxy attempts) : h.Decided c := by
  unfold startRequest at hmem
  split at hmem
  · cases hmem
  split at hmem
  · cases hmem
  rename_i first hfirst
  rcases List.mem_cons.mp hmem with rfl | hlater
  · exact decided_attempt hfirst
  split at hlater
  · exact decided_finishStartedRequest hlater
  · cases hlater

theorem decided_retryLoop {attempts : List Attempt} {retry : Bool}
    (hmem : h ∈ retryLoop c build proxy retry attempts) : h.Decided c := by
  induction attempts generalizing retry with
  | nil => cases hmem
  | cons a attempts ih =>
    unfold retryLoop at hmem
    split at hmem
    · cases hmem
    rename_i first hfirst
    split at hmem
    · cases hmem
    rcases List.mem_cons.mp hmem with rfl | hlater
    · exact decided_attempt hfirst
    split at hlater
    · cases hlater
    · exact ih hlater

end

theorem mem_handChannel {config : SendConfig} {built : Except PacketError Packet}
    {sent : Option Packet} (hmem : h ∈ handChannel config built sent) :
    h.config = config ∧ built = .ok h.built ∧ sent = some h.sent := by
  unfold handChannel at hmem
  split at hmem
  · cases List.mem_singleton.mp hmem
    exact ⟨rfl, rfl, rfl⟩
  · cases hmem

theorem decided_sendChannelMessage {mono : ℚ} {channelIdx timestamp : ℕ} {text : List Char}
    (hmem : h ∈ s.sendChannelMessage c mono channelIdx text timestamp) : h.Decided c := by
  unfold sendChannelMessage at hmem
  split at hmem
  · cases hmem
  rename_i channel hchannel
  obtain ⟨hconfig, hbuilt, hsent⟩ := mem_handChannel hmem
  rw [Inbox.sendChannelMessage, hchannel] at hsent
  have hfinished := Inbox.trackAndSend_eq_some hsent
  rw [hbuilt, ← hconfig] at hfinished
  exact ⟨PacketBuilder.undecided_createGroupDatagram _ hbuilt, hfinished⟩

theorem buildChannelData_eq {config : SendConfig} {secret payload : Bytes} {dataType : ℕ}
    {path : Option Bytes} {pathLenEncoded : Option ℕ} {built sent : Packet}
    (hbuilt : routedChannelData c secret dataType payload path pathLenEncoded = .ok built)
    (hsent : Inbox.buildChannelData c config secret dataType payload path pathLenEncoded =
      .ok sent) (hflood : built.getRouteType = routeTypeFlood) :
    built.Undecided ∧ Inbox.finishFlood c config (.ok built) = .ok sent := by
  unfold routedChannelData at hbuilt
  unfold Inbox.buildChannelData at hsent
  dsimp only at hbuilt hsent
  obtain ⟨pkt, hpkt, hbuilt⟩ := bind_eq_ok.mp hbuilt
  rw [hpkt, ok_bind] at hsent
  have hfresh := PacketBuilder.undecided_createGroupDataPacket _ hpkt
  split at hbuilt
  · rename_i hlen
    rw [if_pos hlen] at hsent
    cases hbuilt
    exact ⟨hfresh, hsent⟩
  · obtain ⟨pathLen, rfl⟩ := Packet.setPath_eq hbuilt
    have hdirect : (pkt.header / 4 * 4 ||| routeTypeDirect) &&& 3 = routeTypeDirect := by
      rw [Inbox.withRoute_eq _ (by decide), Nat.and_two_pow_sub_one_eq_mod _ 2]
      show (_ + 2) % 4 = 2
      omega
    exact absurd (hdirect.symm.trans hflood) (by decide)

theorem inScope_sendChannelData {mono : ℚ} {channelIdx dataType : ℕ} {payload : Bytes}
    {path : Option Bytes} {pathLenEncoded : Option ℕ}
    (hmem : h ∈ s.sendChannelData c mono channelIdx dataType payload path pathLenEncoded)
    (hflood : h.built.getRouteType = routeTypeFlood) : InScope c h.config h.sent := by
  unfold sendChannelData at hmem
  split at hmem
  · cases hmem
  rename_i channel hchannel
  obtain ⟨hconfig, hbuilt, hsent⟩ := mem_handChannel hmem
  obtain ⟨-, -, -, hbuild⟩ := Inbox.sendChannelData_ok hchannel hsent
  rw [← hconfig] at hbuild
  obtain ⟨hfresh, hfinished⟩ := buildChannelData_eq hbuilt hbuild hflood
  exact inScope_finishFlood hfresh hflood hfinished

theorem decided_startProtocolRequest {pubKey data : Bytes} {code : ℕ} {attempts : List Attempt}
    (hmem : h ∈ s.startProtocolRequest c pubKey code data attempts) : h.Decided c := by
  obtain ⟨proxy, -, hmem⟩ := mem_withProxy hmem
  split at hmem
  · cases hmem
  · exact decided_startRequest hmem

theorem decided_sendProtocolRequest {pubKey data : Bytes} {code : ℕ} {attempts : List Attempt}
    (hmem : h ∈ s.sendProtocolRequest c pubKey code data attempts) : h.Decided c := by
  obtain ⟨proxy, -, hmem⟩ := mem_withProxy hmem
  split at hmem
  · cases hmem
  · exact decided_retryLoop hmem

theorem undecided_text {proxy : Contact} {identity : Seed} {text : List Char}
    {attempt txtType timestamp : ℕ} {route : PacketBuilder.RouteName} :
    Yields ((PacketBuilder.createTextMessage c proxy identity text attempt route none txtType
      timestamp).map Prod.fst) Packet.Undecided :=
  PacketBuilder.undecided_createTextMessage.map fun _ hr => hr

theorem sendLogout_eq_nil (s : SendOps Seed) (pubKey : Bytes) (timestamp : ℕ) :
    s.sendLogout c pubKey timestamp = [] := by
  unfold sendLogout withProxy
  split
  · rfl
  · rfl

theorem inScope_handed {op : Operation} (hop : ∀ destKey data timestamp,
      op ≠ .rawData destKey data timestamp)
    (hmem : h ∈ s.handed c op) (hflood : h.built.getRouteType = routeTypeFlood) :
    InScope c h.config h.sent := by
  cases op with
  | textMessage pubKey text txtType attempt timestamp =>
    obtain ⟨proxy, -, hmem⟩ := mem_withProxy hmem
    exact (decided_handBuilt undecided_text hmem).inScope hflood
  | channelMessage mono channelIdx text timestamp =>
    exact (decided_sendChannelMessage hmem).inScope hflood
  | channelData mono channelIdx dataType payload path pathLenEncoded =>
    exact inScope_sendChannelData hmem hflood
  | binaryReq pubKey data timestamp =>
    obtain ⟨proxy, -, hmem⟩ := mem_withProxy hmem
    exact (decided_handBuilt PacketBuilder.undecided_createProtocolRequest hmem).inScope hflood
  | anonReq pubKey data timestamp now =>
    simp only [handed, sendAnonReq] at hmem
    split at hmem
    · cases hmem
    · obtain ⟨proxy, -, hmem⟩ := mem_withProxy hmem
      exact (decided_handBuilt PacketBuilder.undecided_createAnonRequest hmem).inScope hflood
  | pathDiscovery pubKey timestamp random =>
    obtain ⟨proxy, -, hmem⟩ := mem_withProxy hmem
    exact (decided_handBuilt PacketBuilder.undecided_createProtocolRequest hmem).inScope hflood
  | rawData destKey data timestamp => exact absurd rfl (hop destKey data timestamp)
  | login pubKey password attempts =>
    obtain ⟨proxy, -, hmem⟩ := mem_withProxy hmem
    split at hmem
    · cases hmem
    · exact (decided_startRequest hmem).inScope hflood
  | frameLogin pubKey password timestamp =>
    obtain ⟨proxy, -, hmem⟩ := mem_withProxy hmem
    split at hmem
    · cases hmem
    · exact (decided_handBuilt PacketBuilder.undecided_createLoginPacket hmem).inScope hflood
  | logout pubKey timestamp =>
    rw [handed, sendLogout_eq_nil] at hmem
    cases hmem
  | status pubKey attempts => exact (decided_startProtocolRequest hmem).inScope hflood
  | telemetry pubKey wantBase wantLocation wantEnvironment attempts =>
    exact (decided_startProtocolRequest hmem).inScope hflood
  | binaryRequest pubKey data attempts => exact (decided_sendProtocolRequest hmem).inScope hflood
  | anonRequest pubKey data attempts => exact (decided_sendProtocolRequest hmem).inScope hflood
  | repeaterCommand pubKey command parameters txtType timestamp =>
    simp only [handed, sendRepeaterCommand] at hmem
    split at hmem
    · cases hmem
    obtain ⟨proxy, -, hmem⟩ := mem_withProxy hmem
    split at hmem
    · cases hmem
    · exact (decided_handBuilt undecided_text hmem).inScope hflood

/-- Raw data goes out as it was built but for the hash width: as a flood if no path is known, and
never decided. -/
theorem mem_sendRawData {destKey data : Bytes} {timestamp : ℕ}
    (hmem : h ∈ s.sendRawData c destKey data timestamp) :
    ∃ proxy, s.contacts.getByKey destKey = some proxy ∧
      (h.built.getRouteType = routeTypeFlood ↔ proxy.outPathLen < 0) ∧
      h.sent.floodScopeApplied = false := by
  obtain ⟨proxy, hproxy, hmem⟩ := mem_withProxy hmem
  obtain ⟨built, hbuilt, hsent⟩ := Option.bind_eq_some_iff.mp (Option.mem_toList.mp hmem)
  obtain ⟨sent, hmode, rfl⟩ := Option.map_eq_some_iff.mp hsent
  obtain ⟨r, hr, rfl⟩ := map_eq_ok.mp (toOption_eq_some.mp hbuilt)
  obtain ⟨hheader, hfresh⟩ := PacketBuilder.createProtocolRequest_eq hr
  obtain ⟨pathLen, applied, rfl⟩ := Packet.applyPathHashMode_eq (toOption_eq_some.mp hmode)
  refine ⟨proxy, hproxy, ?_, hfresh⟩
  dsimp only
  rw [Packet.getRouteType, hheader, Option.getD_none, PacketBuilder.routeTo]
  by_cases hpath : 0 ≤ proxy.outPathLen
  · rw [if_pos hpath]
    exact iff_of_false (by decide) (not_lt.mpr hpath)
  · rw [if_neg hpath]
    exact iff_of_true (by decide) (not_le.mp hpath)

theorem exists_applyPathHashMode (p : Packet) {config : SendConfig} :
    (∃ q, config.applyPathHashMode p = .ok q) ↔ config.pathHashMode ≤ 2 := by
  unfold SendConfig.applyPathHashMode Packet.applyPathHashMode
  split
  · exact iff_of_false nofun (by omega)
  refine iff_of_true ?_ (by omega)
  split
  · exact ⟨p, rfl⟩
  split
  · exact ⟨p, rfl⟩
  · exact ⟨_, rfl⟩

theorem sendRawData_eq_nil_iff {destKey data : Bytes} {timestamp : ℕ} {contact : Contact}
    (hcontact : s.contacts.getByKey destKey = some contact) :
    s.sendRawData c destKey data timestamp = [] ↔
      2 < s.config.pathHashMode ∨ ∀ r, PacketBuilder.createProtocolRequest c contact s.identity
        protocolCodeRawData data timestamp none ≠ .ok r := by
  unfold sendRawData withProxy protocolRequest
  rw [hcontact]
  dsimp only
  cases PacketBuilder.createProtocolRequest c contact s.identity protocolCodeRawData data
    timestamp none with
  | error e => exact iff_of_true rfl (.inr nofun)
  | ok r =>
    rw [or_iff_left fun hnone => hnone r rfl, ← not_le,
      ← exists_applyPathHashMode r.1.toPacket]
    cases hsent : s.config.applyPathHashMode r.1.toPacket with
    | error e => simp [Except.map, Except.toOption, hsent]
    | ok sent => simp [Except.map, Except.toOption, hsent]

/-- No flood of an operation escapes the app's choice, unless raw data is built for a contact
without a path and a hash width exists for it. -/
theorem handed_inScope_iff (s : SendOps Seed) (op : Operation) :
    (∀ h ∈ s.handed c op, h.built.getRouteType = routeTypeFlood → InScope c h.config h.sent) ↔
      ∀ destKey data timestamp, op = .rawData destKey data timestamp →
        ∀ contact, s.contacts.getByKey destKey = some contact → contact.outPathLen < 0 →
          2 < s.config.pathHashMode ∨ ∀ r, PacketBuilder.createProtocolRequest c contact
            s.identity protocolCodeRawData data timestamp none ≠ .ok r := by
  constructor
  · rintro hscope destKey data timestamp rfl contact hcontact hpath
    refine (sendRawData_eq_nil_iff hcontact).mp ?_
    refine List.eq_nil_iff_forall_not_mem.mpr fun h hmem => ?_
    obtain ⟨proxy, hproxy, hflood, hundecided⟩ := mem_sendRawData hmem
    cases hcontact.symm.trans hproxy
    have happlied := (hscope h hmem (hflood.mpr hpath)).applied
    rw [hundecided] at happlied
    cases happlied
  · intro hraw h hmem hflood
    by_cases hop : ∃ destKey data timestamp, op = .rawData destKey data timestamp
    · obtain ⟨destKey, data, timestamp, rfl⟩ := hop
      obtain ⟨proxy, hproxy, hroute, -⟩ := mem_sendRawData hmem
      have hnil := (sendRawData_eq_nil_iff hproxy).mpr
        (hraw destKey data timestamp rfl proxy hproxy (hroute.mp hflood))
      rw [handed, hnil] at hmem
      cases hmem
    · refine inScope_handed (fun destKey data timestamp heq => hop ?_) hmem hflood
      exact ⟨destKey, data, timestamp, heq⟩

def regionKey : Bytes := List.replicate 16 7

/-- The app has chosen a region, and no path is known to the only contact. -/
def regionSender : SendOps Bytes :=
  { identity := [0xA0]
    contacts := ContactStore.put {} { publicKey := xorCrypto.publicKey [0xB0] }
    inbox := { channels := .empty }
    config := { floodTransportKey := some regionKey } }

/-- The request for raw data goes out as a plain flood, and no scope was decided for it. -/
theorem rawData_escapes :
    regionSender.config.scopeKey = some regionKey ∧
      (regionSender.handed xorCrypto
        (.rawData (xorCrypto.publicKey [0xB0]) [1, 2, 3] 7)).map (fun h =>
          (h.built.getRouteType, h.sent.getRouteType, h.sent.floodScopeApplied)) =
        [(routeTypeFlood, routeTypeFlood, false)] := by
  decide +kernel

/-- The second attempt at a status request is in the scope of its own time, which is none. -/
theorem handed_inScope_iff_status :
    (regionSender.handed xorCrypto (.status (xorCrypto.publicKey [0xB0])
        [{ config := regionSender.config, timestamp := 7 },
          { config := { floodUnscoped := true }, timestamp := 8, answered := true }])).map (fun h =>
            (h.built.getRouteType, h.sent.getRouteType, h.sent.floodScopeApplied)) =
        [(routeTypeFlood, routeTypeTransportFlood, true), (routeTypeFlood, routeTypeFlood, true)] ∧
      ∀ h ∈ regionSender.handed xorCrypto (.status (xorCrypto.publicKey [0xB0])
          [{ config := regionSender.config, timestamp := 7 },
            { config := { floodUnscoped := true }, timestamp := 8, answered := true }]),
        h.built.getRouteType = routeTypeFlood → InScope xorCrypto h.config h.sent := by
  refine ⟨by decide +kernel, (handed_inScope_iff regionSender _).mpr ?_⟩
  intro destKey data timestamp hop
  cases hop

end SendOps

end OpenHop
