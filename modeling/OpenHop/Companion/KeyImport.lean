import OpenHop.Companion.BridgeReceive
import OpenHop.Companion.Commands

/-! # Importing a key at the bridge

The bridge holds its identity itself and gives it, when it is constructed, to the handlers
for texts, responses, logins and login requests. An import replaces the bridge's own
identity alone.
-/

namespace OpenHop

theorem ContactStore.Keyed.update {s : ContactStore} (h : s.Keyed) (contact : Contact) :
    (s.update contact).2.Keyed := by
  unfold ContactStore.update
  split
  · unfold ContactStore.add
    split
    · exact h.put contact
    split
    · exact h
    · exact h.put contact
  · exact h.put contact

theorem ContactStore.Keyed.resetPath {s : ContactStore} (h : s.Keyed) (key : Bytes) :
    (s.resetPath key).2.Keyed := by
  unfold ContactStore.resetPath
  split
  · exact h
  · exact h.update _

namespace CompanionBridge

variable {Seed : Type}

def withIdentity (b : CompanionBridge Seed) (identity : Seed) : CompanionBridge Seed :=
  { b with
    responses := { b.responses with localIdentity := identity }
    keyed := b.keyed }

def withContacts (b : CompanionBridge Seed) (contacts : ContactStore) (keyed : contacts.Keyed) :
    CompanionBridge Seed :=
  { b with
    responses := { b.responses with contacts := contacts }
    keyed := keyed }

end CompanionBridge

/-- A packet with the clocks and the random bytes that its handlers read. -/
structure BridgeArrival where
  packet : Packet
  now : Clocks := ⟨0, 0⟩
  noise : Bytes := []
  lastByte : UInt8 := 0
  currentTime : ℕ := 0
  random : Bytes := []

/-- What the handler of a packet made of it. -/
inductive Reaction where
  | text (outcome : Except PacketError TextOutcome)
  | login (outcome : LoginOutcome)
  | events (events : List BridgeEvent) (forUs : Bool)
  | unhandled
  deriving DecidableEq

/-- The text of a delivered message, and how many acknowledgements are sent for it. -/
def Reaction.deliveredText : Reaction → Option (List Char × ℕ)
  | .text (.ok (.delivered d)) => some (d.text, d.acks.length)
  | _ => none

/-- `identity` is the bridge's own; that of its handlers is in `bridge`. -/
structure ImportingBridge (Seed : Type) where
  identity : Seed
  bridge : CompanionBridge Seed
  regionMap : Option RegionMap := none
  multiAcks : ℤ := 0
  shouldAck : Option (Bytes → ℕ → ℕ → Bool) := none
  pendingCommandResponses : List Bytes := []
  authenticate : AuthenticateCall → Bool × ℕ := fun _ => (false, 0)
  takesSyncSince : Bool := false

namespace ImportingBridge

variable {Seed : Type} (c : Crypto Seed)

def handlersIdentity (b : ImportingBridge Seed) : Seed := b.bridge.responses.localIdentity

def contacts (b : ImportingBridge Seed) : ContactStore := b.bridge.responses.contacts

/-- `CompanionBridge.__init__`, with the tables that are filled later. -/
def construct (identity : Seed) (tables : ImportingBridge Seed) : ImportingBridge Seed :=
  { tables with
    identity := identity
    bridge := tables.bridge.withIdentity identity }

def textHandler (b : ImportingBridge Seed) : TextMessageHandler Seed :=
  { localIdentity := b.handlersIdentity
    contacts := b.contacts.contacts.values
    multiAcks := b.multiAcks
    shouldAck := b.shouldAck
    pendingCommandResponses := b.pendingCommandResponses }

def getLoginOutPath (b : ImportingBridge Seed) (clientPubkey : Bytes) : Option (Bytes × ℤ) :=
  match b.contacts.getByKey clientPubkey with
  | none => none
  | some contact =>
    if contact.outPathLen < 0 then none else some (contact.outPath, contact.outPathLen)

def loginServerHandler (b : ImportingBridge Seed) : LoginServerHandler Seed :=
  { localIdentity := b.handlersIdentity
    isRoomServer := false
    takesSyncSince := b.takesSyncSince
    authenticate := b.authenticate
    getOutPath := some b.getLoginOutPath }

/-- The contact a signed text comes from, with its watermark raised. This happens before the
acknowledgement is built. -/
def raisedContact (b : ImportingBridge Seed) (payload : Bytes) : Option Contact := do
  let (contact, _, decrypted) ← b.textHandler.matchContact c payload
  let timestamp := Bytes.toNatLE (decrypted.take 4)
  let txtType := ((decrypted.getD 4 0).toNat >>> 2) &&& 0x3F
  if 4 ≤ payload.length ∧ 9 ≤ decrypted.length ∧ txtType = txtTypeSignedPlain ∧
      timestamp > contact.syncSince then
    some { contact with syncSince := timestamp }
  else none

def raiseSyncSince (b : ImportingBridge Seed) (payload : Bytes) : CompanionBridge Seed :=
  match b.raisedContact c payload with
  | none => b.bridge
  | some contact =>
    b.bridge.withContacts (b.contacts.update contact).2 (b.bridge.keyed.update contact)

def remainingCommands (b : ImportingBridge Seed) : Except PacketError TextOutcome → List Bytes
  | .ok (.delivered d) =>
    if d.commandResponse then b.pendingCommandResponses.erase d.contact.publicKey
    else b.pendingCommandResponses
  | _ => b.pendingCommandResponses

def callText (b : ImportingBridge Seed) (a : BridgeArrival) : ImportingBridge Seed × Reaction :=
  let outcome := b.textHandler.call c a.packet a.lastByte
  ({ b with
      bridge := b.raiseSyncSince c a.packet.payload
      pendingCommandResponses := b.remainingCommands outcome },
    .text outcome)

def clearLoginOutPath (b : ImportingBridge Seed) : Option Bytes → CompanionBridge Seed
  | none => b.bridge
  | some clientPubkey =>
    b.bridge.withContacts (b.contacts.resetPath clientPubkey).2
      (b.bridge.keyed.resetPath clientPubkey)

def callLoginServer (b : ImportingBridge Seed) (a : BridgeArrival) :
    ImportingBridge Seed × Reaction :=
  let outcome := b.loginServerHandler.call c a.packet a.currentTime a.random
  ({ b with bridge := b.clearLoginOutPath outcome.clearedOutPath }, .login outcome)

/-- The tables after the acknowledgement in a path return, which is read under `identity`. -/
def pathAck (identity : Seed) (b : CompanionBridge Seed) (now : Clocks) (pkt : Packet) :
    CompanionBridge Seed × List BridgeEvent × Bool :=
  match BridgeAckHandler.processPathAckVariants c b.responses.contacts.contacts.values identity
    pkt with
  | none => (b, [], false)
  | some crc =>
    ((b.tryConfirmSend now.monotonic crc).1, (b.tryConfirmSend now.monotonic crc).2, true)

/-- The handlers for responses and logins see a path return under their identity, the one for
acknowledgements under the bridge's. -/
def callPath (b : ImportingBridge Seed) (a : BridgeArrival) : ImportingBridge Seed × Reaction :=
  let answered := b.bridge.callResponses c a.now a.noise a.packet
  let loggedIn := answered.1.loginResponse c a.now a.noise a.packet
  let acked := pathAck c b.identity loggedIn.1 a.now a.packet
  ({ b with bridge := acked.1 },
    .events (answered.2.1 ++ loggedIn.2.1 ++ acked.2.1) (answered.2.2 || loggedIn.2.2 || acked.2.2))

def callLoginResponse (b : ImportingBridge Seed) (a : BridgeArrival) :
    ImportingBridge Seed × Reaction :=
  let answered := b.bridge.loginResponse c a.now a.noise a.packet
  ({ b with bridge := answered.1 }, .events answered.2.1 answered.2.2)

def callAck (b : ImportingBridge Seed) (a : BridgeArrival) : ImportingBridge Seed × Reaction :=
  ({ b with bridge := (b.bridge.callAck a.now a.packet).1 },
    .events (b.bridge.callAck a.now a.packet).2 false)

/-- Adverts, channel texts and raw packets are not opened with a key of the node. -/
def callHandler (b : ImportingBridge Seed) (a : BridgeArrival) :
    Option BridgeHandler → ImportingBridge Seed × Reaction
  | some .ack => b.callAck a
  | some .text => b.callText c a
  | some .path => b.callPath c a
  | some .loginServer => b.callLoginServer c a
  | some .loginResponse => b.callLoginResponse c a
  | some .advert | some .groupText | some .rawCustom | none => (b, .unhandled)

def processReceivedPacket (b : ImportingBridge Seed) (a : BridgeArrival) :
    ImportingBridge Seed × Reaction :=
  b.callHandler c { a with packet := captureRecvRegion c b.regionMap a.packet }
    (CompanionBridge.handlers.lookup a.packet.getPayloadType)

/-- `LocalIdentity(seed=key)`: no key at all stands for a generated one. `load` is none for the
keys that are refused. -/
def localIdentity (load : Bytes → Option Seed) (generated : Seed) (key : Bytes) : Option Seed :=
  if key = [] then some generated else load key

def importPrivateKey (load : Bytes → Option Seed) (b : ImportingBridge Seed) (generated : Seed)
    (key : Bytes) : ImportingBridge Seed × Bool :=
  match localIdentity load generated key with
  | none => (b, false)
  | some identity => ({ b with identity := identity }, true)

def sendTextMessage (b : ImportingBridge Seed) (now : ℚ) (contact : Contact) (text : List Char)
    (attempt : ℕ) (messageType : PacketBuilder.RouteName) (txtType timestamp : ℕ) :
    ImportingBridge Seed × Option Packet :=
  match PacketBuilder.createTextMessage c contact b.identity text attempt messageType none txtType
    timestamp with
  | .error _ => (b, none)
  | .ok (pkt, ackCrc) => ({ b with bridge := b.bridge.trackPendingAck now ackCrc }, some pkt)

/-- What happens at a bridge. `tables` stands for all that leaves the keys alone: adverts, requests
that are started, settings and changes to the contacts. -/
inductive Op (Seed : Type) where
  | importPrivateKey (key : Bytes) (generated : Seed)
  | receive (a : BridgeArrival)
  | send (now : ℚ) (contact : Contact) (text : List Char) (attempt : ℕ)
    (messageType : PacketBuilder.RouteName) (txtType timestamp : ℕ)
  | tables (tables : ImportingBridge Seed)

def step (load : Bytes → Option Seed) (b : ImportingBridge Seed) : Op Seed → ImportingBridge Seed
  | .importPrivateKey key generated => (importPrivateKey load b generated key).1
  | .receive a => (b.processReceivedPacket c a).1
  | .send now contact text attempt messageType txtType timestamp =>
    (b.sendTextMessage c now contact text attempt messageType txtType timestamp).1
  | .tables tables =>
    { tables with
      identity := b.identity
      bridge := tables.bridge.withIdentity b.handlersIdentity }

def imported (load : Bytes → Option Seed) (key : Seed) : Op Seed → Seed
  | .importPrivateKey bytes generated => (localIdentity load generated bytes).getD key
  | _ => key

def rebuilt (b : ImportingBridge Seed) : ImportingBridge Seed := construct b.identity b

/-- Every packet has the outcome, and leaves the tables, that it would with handlers made for the
bridge's own key. -/
def TakesEffect (b : ImportingBridge Seed) : Prop :=
  ∀ a, (b.processReceivedPacket c a).2 = (b.rebuilt.processReceivedPacket c a).2 ∧
    (b.processReceivedPacket c a).1.rebuilt = (b.rebuilt.processReceivedPacket c a).1.rebuilt

section

variable {c} {load : Bytes → Option Seed}

/-- Both keys are what they were. -/
structure SameKeys (b b' : ImportingBridge Seed) : Prop where
  identity : b'.identity = b.identity
  handlers : b'.handlersIdentity = b.handlersIdentity

theorem localIdentity_pathAck (identity : Seed) (b : CompanionBridge Seed) (now : Clocks)
    (pkt : Packet) :
    (pathAck c identity b now pkt).1.responses.localIdentity = b.responses.localIdentity := by
  unfold pathAck
  split
  · rfl
  · exact (CompanionBridge.reads_tryConfirmSend b now.monotonic _).identity

theorem sameKeys_callAck (b : ImportingBridge Seed) (a : BridgeArrival) :
    SameKeys b (b.callAck a).1 := by
  refine ⟨rfl, ?_⟩
  change (b.bridge.callAck a.now a.packet).1.responses.localIdentity = b.handlersIdentity
  unfold CompanionBridge.callAck
  split
  · rfl
  · exact (CompanionBridge.reads_tryConfirmSend b.bridge a.now.monotonic _).identity

theorem sameKeys_callText (b : ImportingBridge Seed) (a : BridgeArrival) :
    SameKeys b (b.callText c a).1 := by
  refine ⟨rfl, ?_⟩
  change (b.raiseSyncSince c a.packet.payload).responses.localIdentity = b.handlersIdentity
  unfold raiseSyncSince
  split <;> rfl

theorem sameKeys_callPath (b : ImportingBridge Seed) (a : BridgeArrival) :
    SameKeys b (b.callPath c a).1 := by
  refine ⟨rfl, ?_⟩
  have hanswered := (CompanionBridge.reads_callResponses (c := c) b.bridge a.now a.noise
    a.packet).identity
  have hlogin := (CompanionBridge.reads_loginResponse (c := c)
    (b.bridge.callResponses c a.now a.noise a.packet).1 a.now a.noise a.packet).identity
  exact (localIdentity_pathAck b.identity _ a.now a.packet).trans (hlogin.trans hanswered)

theorem sameKeys_callLoginServer (b : ImportingBridge Seed) (a : BridgeArrival) :
    SameKeys b (b.callLoginServer c a).1 := by
  refine ⟨rfl, ?_⟩
  unfold callLoginServer
  dsimp only
  cases (b.loginServerHandler.call c a.packet a.currentTime a.random).clearedOutPath with
  | none => rfl
  | some clientPubkey => rfl

theorem sameKeys_processReceivedPacket (b : ImportingBridge Seed) (a : BridgeArrival) :
    SameKeys b (b.processReceivedPacket c a).1 := by
  unfold processReceivedPacket callHandler
  split
  · exact sameKeys_callAck b _
  · exact sameKeys_callText b _
  · exact sameKeys_callPath b _
  · exact sameKeys_callLoginServer b _
  · exact ⟨rfl, (CompanionBridge.reads_loginResponse b.bridge _ _ _).identity⟩
  all_goals exact ⟨rfl, rfl⟩

/-- An operation moves the bridge's own key by an import only, and that of the handlers never. -/
theorem step_keys (b : ImportingBridge Seed) (op : Op Seed) :
    (step c load b op).identity = imported load b.identity op ∧
      (step c load b op).handlersIdentity = b.handlersIdentity := by
  cases op with
  | importPrivateKey key generated =>
    simp only [step, imported, importPrivateKey]
    cases localIdentity load generated key with
    | none => exact ⟨rfl, rfl⟩
    | some identity => exact ⟨rfl, rfl⟩
  | receive a =>
    obtain ⟨hown, hhandlers⟩ := sameKeys_processReceivedPacket (c := c) b a
    exact ⟨hown, hhandlers⟩
  | send now contact text attempt messageType txtType timestamp =>
    simp only [step, imported, sendTextMessage]
    split
    · exact ⟨rfl, rfl⟩
    · exact ⟨rfl, rfl⟩
  | tables tables => exact ⟨rfl, rfl⟩

theorem foldl_step_keys (b : ImportingBridge Seed) (ops : List (Op Seed)) :
    (ops.foldl (step c load) b).identity = ops.foldl (imported load) b.identity ∧
      (ops.foldl (step c load) b).handlersIdentity = b.handlersIdentity := by
  induction ops generalizing b with
  | nil => exact ⟨rfl, rfl⟩
  | cons op ops ih =>
    obtain ⟨hown, hhandlers⟩ : (step c load b op).identity = imported load b.identity op ∧
        (step c load b op).handlersIdentity = b.handlersIdentity := step_keys b op
    obtain ⟨ihown, ihhandlers⟩ := ih (step c load b op)
    rw [List.foldl_cons, List.foldl_cons, ← hown]
    exact ⟨ihown, ihhandlers.trans hhandlers⟩

theorem processReceivedPacket_of_ne_path (b : ImportingBridge Seed) (key : Seed)
    {a : BridgeArrival} (ha : a.packet.getPayloadType ≠ payloadTypePath) :
    (b.processReceivedPacket c a).2 =
      (({ b with identity := key } : ImportingBridge Seed).processReceivedPacket c a).2 := by
  have hlookup : CompanionBridge.handlers.lookup a.packet.getPayloadType ≠ some .path := by
    rcases CompanionBridge.handlers_cases a.packet.getPayloadType with ⟨-, h⟩ | ⟨hpath, -⟩ |
      ⟨-, h⟩ | ⟨-, -, h, -⟩
    · rw [h]
      decide
    · exact absurd hpath ha
    · rw [h]
      decide
    · exact h
  unfold processReceivedPacket
  cases hhandler : CompanionBridge.handlers.lookup a.packet.getPayloadType with
  | none => rfl
  | some handler =>
    cases handler with
    | path => exact absurd hhandler hlookup
    | ack | text | advert | loginServer | groupText | loginResponse | rawCustom => rfl

theorem forUs_call (h : LoginServerHandler Seed) (packet : Packet) (currentTime : ℕ)
    (random : Bytes) :
    (h.call c packet currentTime random).forUs =
      (openAnonRequest c h.localIdentity packet.payload).isSome := by
  unfold LoginServerHandler.call
  cases openAnonRequest c h.localIdentity packet.payload with
  | none => rfl
  | some opened =>
    dsimp only
    cases h.parseLogin opened.2.2 with
    | none => rfl
    | some login => rfl

theorem openAnonRequest_of_head_ne {identity : Seed} {payload : Bytes}
    (h : payload.head? ≠ (c.publicKey identity).head?) :
    openAnonRequest c identity payload = none := by
  unfold openAnonRequest
  rw [if_pos h, ite_self]

def loginRequest (c : Crypto Seed) (client : Seed) (secret : Bytes) (destHash : UInt8) :
    BridgeArrival :=
  { packet :=
      { header := payloadTypeAnonReq <<< phTypeShift
        payload := destHash :: (c.publicKey client ++
          c.encryptThenMac (secret.take 16) secret [0]) } }

theorem processReceivedPacket_loginRequest (b : ImportingBridge Seed) (client : Seed)
    (secret : Bytes) (destHash : UInt8) :
    ∃ outcome, (b.processReceivedPacket c (loginRequest c client secret destHash)).2 =
        .login outcome ∧
      outcome.forUs = (openAnonRequest c b.handlersIdentity
        (loginRequest c client secret destHash).packet.payload).isSome := by
  obtain ⟨captured, key, unscoped, hcapture⟩ := captureRecvRegion_eq (c := c) b.regionMap
    (loginRequest c client secret destHash).packet
  have hlookup : CompanionBridge.handlers.lookup
      (loginRequest c client secret destHash).packet.getPayloadType = some .loginServer := by
    change CompanionBridge.handlers.lookup
      ((payloadTypeAnonReq <<< phTypeShift >>> phTypeShift) &&& phTypeMask) = _
    decide
  unfold processReceivedPacket
  rw [hlookup, hcapture]
  refine ⟨_, rfl, ?_⟩
  rw [forUs_call]
  rfl

theorem not_takesEffect_of_head_ne {b : ImportingBridge Seed} {client : Seed} {secret : Bytes}
    (hhead : (c.publicKey b.identity).head? ≠ (c.publicKey b.handlersIdentity).head?)
    (hsecret : c.sharedSecret (c.privateKey b.identity) (c.publicKey client) = some secret) :
    ¬ b.TakesEffect c := by
  intro heffect
  obtain ⟨destHash, hdest⟩ : ∃ destHash, (c.publicKey b.identity).head? = some destHash := by
    refine ⟨_, List.head?_eq_some_head (List.ne_nil_of_length_pos ?_)⟩
    rw [c.length_publicKey]
    decide
  obtain ⟨stale, hstale, hforUs⟩ := processReceivedPacket_loginRequest (c := c) b client secret
    destHash
  obtain ⟨fresh, hfresh, hforUs'⟩ := processReceivedPacket_loginRequest (c := c) b.rebuilt client
    secret destHash
  have hsame : stale = fresh := by
    have h := (heffect (loginRequest c client secret destHash)).1
    rw [hstale, hfresh] at h
    cases h
    rfl
  have hclosed : openAnonRequest c b.handlersIdentity
      (loginRequest c client secret destHash).packet.payload = none := by
    refine openAnonRequest_of_head_ne fun hsame => hhead ?_
    rw [hdest, ← hsame]
    rfl
  have hopened : openAnonRequest c b.rebuilt.handlersIdentity
      (loginRequest c client secret destHash).packet.payload =
        some (c.publicKey client, secret, zeroPad [0]) :=
    openAnonRequest_encryptThenMac hdest hsecret (by decide)
  rw [hsame, hforUs', hclosed, hopened] at hforUs
  cases hforUs

theorem takesEffect_of_eq {b : ImportingBridge Seed} (h : b.identity = b.handlersIdentity) :
    b.TakesEffect c := by
  have hrebuilt : b.rebuilt = b := by
    have hbridge : b.bridge.withIdentity b.identity = b.bridge := by rw [h]; rfl
    rw [rebuilt, construct, hbridge]
  intro a
  rw [hrebuilt]
  exact ⟨rfl, rfl⟩

theorem construct_of_handlersIdentity {b : ImportingBridge Seed} {first : Seed}
    (h : b.handlersIdentity = first) : construct first b = { b with identity := first } := by
  subst h
  rfl

end

/-- What operations make of a bridge that was constructed with a key. -/
def run (load : Bytes → Option Seed) (first : Seed) (tables : ImportingBridge Seed)
    (ops : List (Op Seed)) : ImportingBridge Seed :=
  ops.foldl (step c load) (construct first tables)

/-- The key that was imported last, or that of the construction. -/
def lastKey (load : Bytes → Option Seed) (first : Seed) (ops : List (Op Seed)) : Seed :=
  ops.foldl (imported load) first

variable {c}

/-- The last key takes effect if it is the one of the construction, and does not if it has another
hash. -/
theorem takesEffect_run (load : Bytes → Option Seed) (first : Seed)
    (tables : ImportingBridge Seed) (ops : List (Op Seed)) :
    (run c load first tables ops).identity = lastKey load first ops ∧
      (lastKey load first ops = first → (run c load first tables ops).TakesEffect c) ∧
      (∀ client secret,
        (c.publicKey (lastKey load first ops)).head? ≠ (c.publicKey first).head? →
          c.sharedSecret (c.privateKey (lastKey load first ops)) (c.publicKey client) =
            some secret →
          ¬ (run c load first tables ops).TakesEffect c) ∧
      ∀ a, a.packet.getPayloadType ≠ payloadTypePath →
        ((run c load first tables ops).processReceivedPacket c a).2 =
          ((construct first (run c load first tables ops)).processReceivedPacket c a).2 := by
  obtain ⟨hown, hhandlers⟩ : (run c load first tables ops).identity = lastKey load first ops ∧
      (run c load first tables ops).handlersIdentity = first :=
    foldl_step_keys (construct first tables) ops
  refine ⟨hown, fun hlast => ?_, fun client secret hhead hsecret => ?_, fun a ha => ?_⟩
  · exact takesEffect_of_eq (hown.trans (hlast.trans hhandlers.symm))
  · rw [← hown] at hhead hsecret
    refine not_takesEffect_of_head_ne ?_ hsecret
    rw [hhandlers]
    exact hhead
  · rw [construct_of_handlersIdentity hhandlers]
    exact processReceivedPacket_of_ne_path _ first ha

/-- An authentication code that tells secrets apart. -/
def secretMacCrypto : Crypto Bytes :=
  { xorCrypto with
    hmacSha256 := fun key _ => fitTo 32 key
    length_hmacSha256 := fun key _ => length_fitTo 32 key }

/-- The recipient of the greeting, who knows its sender. -/
def greetedTables : ImportingBridge Bytes :=
  { identity := [0xB0]
    bridge :=
      { responses :=
          { localIdentity := [0xB0]
            cls := { isSpace := fun ch => ch = ' ', isPrintable := fun _ => true }
            contacts := ContactStore.put {} senderEntry }
        keyed := ContactStore.Keyed.put (by intro key contact h; cases h) senderEntry } }

/-- A text of the sender to a key. -/
def greetingTo (key : Bytes) : Except PacketError (Packet × ℕ) :=
  PacketBuilder.createTextMessage secretMacCrypto { publicKey := secretMacCrypto.publicKey key }
    [0xA0] ['h', 'i'] 0 .flood none txtTypePlain 7

/-- The bridge constructed for one key, after the import of another. -/
def rekeyedBridge : ImportingBridge Bytes :=
  run secretMacCrypto some [0xB0] greetedTables [.importPrivateKey [0xC0] []]

def firstKeyGreeting : Packet :=
  { header := 9
    payload := [0xB0, 0xA0, 16, 0, 23, 0, 0, 0, 0, 104, 105, 0, 0, 0, 0, 0, 0, 0, 0, 0]
    payloadLen := 20 }

def newKeyGreeting : Packet :=
  { header := 9
    payload := [0xC0, 0xA0, 96, 0, 103, 0, 0, 0, 0, 104, 105, 0, 0, 0, 0, 0, 0, 0, 0, 0]
    payloadLen := 20 }

/-- After the import of another key the text to the old key is delivered and acknowledged, and the
text to the new key is not for this node. -/
theorem greeted_under_first_key :
    (importPrivateKey some (construct [0xB0] greetedTables) [] [0xC0]).2 = true ∧
      (greetingTo [0xB0]).map Prod.fst = .ok firstKeyGreeting ∧
      (greetingTo [0xC0]).map Prod.fst = .ok newKeyGreeting ∧
      ((rekeyedBridge.processReceivedPacket secretMacCrypto
          { packet := firstKeyGreeting, lastByte := 9 }).2.deliveredText = some (['h', 'i'], 1) ∧
        (rekeyedBridge.processReceivedPacket secretMacCrypto { packet := newKeyGreeting }).2 =
          .text (.ok .notForUs)) ∧
      (rekeyedBridge.rebuilt.processReceivedPacket secretMacCrypto
          { packet := newKeyGreeting, lastByte := 9 }).2.deliveredText = some (['h', 'i'], 1) ∧
        (rekeyedBridge.rebuilt.processReceivedPacket secretMacCrypto
          { packet := firstKeyGreeting }).2 = .text (.ok .notForUs) := by
  refine ⟨rfl, ?_, ?_, ⟨?_, ?_⟩, ?_, ?_⟩ <;> decide +kernel

/-- A key that is imported again takes effect, after a text was sent under another one, and the
other one did not. -/
theorem takesEffect_run_again :
    (run secretMacCrypto some [0xB0] greetedTables
        [.importPrivateKey [0xC0] [], .send 0 senderEntry ['h', 'i'] 0 .flood txtTypePlain 7,
          .importPrivateKey [0xB0] []]).TakesEffect secretMacCrypto ∧
      ¬ rekeyedBridge.TakesEffect secretMacCrypto ∧
      (rekeyedBridge.processReceivedPacket secretMacCrypto { packet := firstKeyGreeting }).2 =
        ((construct [0xB0] rekeyedBridge).processReceivedPacket secretMacCrypto
          { packet := firstKeyGreeting }).2 := by
  refine ⟨?_, ?_, ?_⟩
  · exact (takesEffect_run some [0xB0] greetedTables _).2.1 rfl
  · exact (takesEffect_run some [0xB0] greetedTables _).2.2.1 [0xA0] _ (by decide) rfl
  · exact (takesEffect_run some [0xB0] greetedTables _).2.2.2 { packet := firstKeyGreeting }
      (by decide)

end ImportingBridge

end OpenHop
