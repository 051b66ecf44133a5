import OpenHop.Companion.ContactStore
import OpenHop.Machine.Watermark
import OpenHop.Node.LoginServer

/-! # Requests of authenticated clients

A request is opened with the secret of the first contact of its sender's hash that it
decrypts with. It is answered if its timestamp is beyond the last one that was answered
for this client, which the handler notes on the client's proxy.
-/

namespace OpenHop

/-- `REQ_TYPE_KEEP_ALIVE` -/
def reqTypeKeepAlive : ℕ := 0x02

/-- How a handler of the application ends. -/
inductive RequestReply where
  | raised
  | nothing
  | payload (d : Bytes)
  deriving DecidableEq

inductive RequestOutcome where
  | notForUs
  | consumed
  | accepted (client : Bytes) (timestamp : ℕ) (response : Option Packet)
  deriving DecidableEq

/-- `requestHandlers` are the application's, by request type. -/
structure ProtocolRequestHandler (Seed : Type) where
  localIdentity : Seed
  requestHandlers : ℕ → Option (ContactProxy → ℕ → Bytes → RequestReply) := fun _ => none

namespace ProtocolRequestHandler

variable {Seed : Type} (c : Crypto Seed)

/-- The proxies of a source hash; an empty key has no first byte and raises. -/
def getClients (store : ProxyStore) (srcHash : UInt8) : Option (List (Bytes × ContactProxy)) :=
  if store.proxies.entries.any fun e => e.2.publicKey = [] then none
  else some (store.proxies.entries.filter fun e => e.2.publicKey.head? = some srcHash)

/-- The first client the request decrypts with: its key, proxy, secret and the plaintext. A key
that is not usable raises. -/
def findClient (h : ProtocolRequestHandler Seed) (encrypted : Bytes) :
    List (Bytes × ContactProxy) → Option (Bytes × ContactProxy × Bytes × Bytes)
  | [] => none
  | (key, client) :: clients =>
    (c.sharedSecret (c.privateKey h.localIdentity) client.publicKey).bind fun secret =>
      if secret = [] then h.findClient encrypted clients
      else
        match c.macThenDecrypt (secret.take 16) secret encrypted with
        | some plaintext => some (key, client, secret, plaintext)
        | none => h.findClient encrypted clients

def authenticate (h : ProtocolRequestHandler Seed) (store : ProxyStore) (payload : Bytes) :
    Option (Bytes × ContactProxy × Bytes × Bytes) :=
  match payload with
  | destHash :: srcHash :: encrypted =>
    if (c.publicKey h.localIdentity).head? ≠ some destHash then none
    else (getClients store srcHash).bind (h.findClient c encrypted)
  | _ => none

/-- The answer, headed by the timestamp it reflects; none if there is none. -/
def handleRequest (h : ProtocolRequestHandler Seed) (client : ContactProxy) (timestamp reqType : ℕ)
    (reqData : Bytes) : Option Bytes :=
  let response := Bytes.le 4 timestamp
  let default := if reqType = reqTypeKeepAlive then some response else none
  match h.requestHandlers reqType with
  | none => default
  | some handler =>
    match handler client timestamp reqData with
    | .raised => none
    | .nothing => default
    | .payload d => some (response ++ d)

def buildResponse (h : ProtocolRequestHandler Seed) (packet : Packet) (contact : Contact)
    (responseData sharedSecret : Bytes) : Except PacketError Packet := do
  let clientHash ← PacketBuilder.hashByte contact.publicKey
  let ourHash ← PacketBuilder.hashByte (c.publicKey h.localIdentity)
  if packet.isRouteFlood then
    let (pathLenEncoded, path) := TextMessageHandler.incomingPath packet
    let reply ← PacketBuilder.createPathReturn c clientHash ourHash sharedSecret path
      payloadTypeResponse responseData pathLenEncoded []
    let reply ← reply.applyPathHashMode (packet.incomingHashSize - 1) true
    TextMessageHandler.scopedReply c reply packet
  else if 0 ≤ contact.outPathLen ∧ PathUtils.isValidPathLen contact.outPathLen.toNat then
    let reply ← PacketBuilder.createDatagram c payloadTypeResponse contact.publicKey
      h.localIdentity sharedSecret responseData
    reply.setPath (contact.outPath.take maxPathSize) (some contact.outPathLen.toNat)
  else
    let reply ← PacketBuilder.createDatagram c payloadTypeResponse contact.publicKey
      h.localIdentity sharedSecret responseData .flood
    let reply ← reply.applyPathHashMode (packet.incomingHashSize - 1) true
    TextMessageHandler.scopedReply c reply packet

/-- What the answer is addressed by. -/
def shown (client : ContactProxy) : Contact :=
  { client.contact with
    publicKey := client.publicKey, outPath := client.outPath, outPathLen := client.outPathLen }

def getLastReqTs (client : ContactProxy) : ℕ := client.lastTimestamp.getD 0

def advanceClientWatermark (store : ProxyStore) (key : Bytes) (timestamp : ℕ) : ProxyStore :=
  { store with
    proxies := store.proxies.modify key fun client =>
      { client with lastTimestamp := some (max (getLastReqTs client) timestamp) }
    inSync := fun k => by
      rw [← store.inSync k, Dict.get?_modify]
      split
      · rw [Option.map_map]
        rfl
      · rfl }

def call (h : ProtocolRequestHandler Seed) (store : ProxyStore) (packet : Packet) :
    ProxyStore × RequestOutcome :=
  match h.authenticate c store packet.payload with
  | none => (store, .notForUs)
  | some (key, client, secret, plaintext) =>
    if plaintext.length < 5 then (store, .consumed)
    else
      let timestamp := Bytes.toNatLE (plaintext.take 4)
      let reqType := (plaintext.getD 4 0).toNat
      if timestamp ≤ getLastReqTs client then (store, .consumed)
      else
        match h.handleRequest client timestamp reqType (plaintext.drop 5) with
        | none => (store, .consumed)
        | some responseData =>
          (advanceClientWatermark store key timestamp,
            .accepted key timestamp
              (h.buildResponse c packet (shown client) responseData secret).toOption)

end ProtocolRequestHandler

/-- What happens to a server: a request comes in, or the contacts change. -/
inductive RequestEvent where
  | req (packet : Packet)
  | store (op : StoreOp)

namespace ProtocolRequestHandler

open Machine

variable {Seed : Type}

/-- What a client sees of a request: whether it was its own and was answered. -/
def answerMark (key : Bytes) : RequestOutcome → Mark ℕ
  | .accepted client timestamp (some _) => if client = key then .accepted timestamp else .silent
  | _ => .silent

/-- A step as one client sees it: its request is answered, or its contact is stored anew. -/
def clientStep (c : Crypto Seed) (h : ProtocolRequestHandler Seed) (key : Bytes)
    (store : ProxyStore) : RequestEvent → ProxyStore × Mark ℕ
  | .req packet => ((h.call c store packet).1, answerMark key (h.call c store packet).2)
  | .store op => (store.apply op, if op.key? = some key then .lost else .silent)

variable {c : Crypto Seed} {h : ProtocolRequestHandler Seed} {store : ProxyStore} {key : Bytes}

def Bound (key : Bytes) (store : ProxyStore) (b : ℕ) : Prop :=
  ∀ client, store.proxies.get? key = some client → b ≤ getLastReqTs client

theorem mem_of_findClient {encrypted : Bytes} {clients : List (Bytes × ContactProxy)}
    {client : ContactProxy} {secret plaintext : Bytes}
    (hfind : h.findClient c encrypted clients = some (key, client, secret, plaintext)) :
    (key, client) ∈ clients := by
  induction clients with
  | nil => cases hfind
  | cons e clients ih =>
    obtain ⟨k, proxy⟩ := e
    rw [findClient, Option.bind_eq_some_iff] at hfind
    obtain ⟨s, -, hfind⟩ := hfind
    split at hfind
    · exact List.mem_cons_of_mem _ (ih hfind)
    · split at hfind
      · cases hfind
        exact List.mem_cons_self
      · exact List.mem_cons_of_mem _ (ih hfind)

theorem get?_of_authenticate {payload : Bytes} {client : ContactProxy} {secret plaintext : Bytes}
    (hauth : h.authenticate c store payload = some (key, client, secret, plaintext)) :
    store.proxies.get? key = some client := by
  unfold authenticate at hauth
  split at hauth
  · split at hauth
    · cases hauth
    · obtain ⟨clients, hclients, hfind⟩ := Option.bind_eq_some_iff.mp hauth
      unfold getClients at hclients
      split at hclients
      · cases hclients
      · cases hclients
        exact Dict.get?_of_mem (List.mem_filter.mp (mem_of_findClient hfind)).1
  · cases hauth

/-- A request changes the store only if it is accepted, and then only the mark of its client, which
it is beyond. -/
theorem call_cases (h : ProtocolRequestHandler Seed) (store : ProxyStore) (packet : Packet) :
    (h.call c store packet = (store, .notForUs) ∨ h.call c store packet = (store, .consumed)) ∨
      ∃ client proxy timestamp response, store.proxies.get? client = some proxy ∧
        getLastReqTs proxy < timestamp ∧
        h.call c store packet = (advanceClientWatermark store client timestamp,
          .accepted client timestamp response) := by
  unfold call
  split
  · exact Or.inl (Or.inl rfl)
  · rename_i client proxy secret plaintext hauth
    split
    · exact Or.inl (Or.inr rfl)
    · dsimp only
      split
      · exact Or.inl (Or.inr rfl)
      · rename_i hnew
        split
        · exact Or.inl (Or.inr rfl)
        · exact Or.inr ⟨client, proxy, _, _, get?_of_authenticate hauth, not_le.mp hnew, rfl⟩

theorem Bound.advance {client : Bytes} {b : ℕ} (hb : Bound key store b) (timestamp : ℕ) :
    Bound key (advanceClientWatermark store client timestamp) b := by
  intro proxy hproxy
  rw [advanceClientWatermark, Dict.get?_modify] at hproxy
  split at hproxy
  · obtain ⟨old, hold, rfl⟩ := Option.map_eq_some_iff.mp hproxy
    exact le_max_of_le_left (hb old hold)
  · exact hb proxy hproxy

theorem bound_advance (store : ProxyStore) (key : Bytes) (timestamp : ℕ) :
    Bound key (advanceClientWatermark store key timestamp) timestamp := by
  intro proxy hproxy
  rw [advanceClientWatermark, Dict.get?_modify, if_pos rfl] at hproxy
  obtain ⟨old, -, rfl⟩ := Option.map_eq_some_iff.mp hproxy
  exact le_max_right _ _

theorem Bound.apply {b : ℕ} (hb : Bound key store b) {op : StoreOp} (hop : op.key? ≠ some key) :
    Bound key (store.apply op) b := by
  intro proxy hproxy
  rw [(store.apply_spec op).2] at hproxy
  rcases StoreOp.get?_follow_of_ne hop with hget | hget
  · exact hb proxy (hget.symm.trans hproxy)
  · exact absurd (hget.symm.trans hproxy) nofun

theorem accepted_of_mark {e : RequestEvent} {t : ℕ}
    (hmark : (h.clientStep c key store e).2 = .accepted t) :
    ∃ proxy, store.proxies.get? key = some proxy ∧ getLastReqTs proxy < t ∧
      (h.clientStep c key store e).1 = advanceClientWatermark store key t := by
  cases e with
  | store op =>
    rw [clientStep] at hmark
    split at hmark <;> cases hmark
  | req packet =>
    rw [clientStep] at hmark ⊢
    rcases call_cases (c := c) h store packet with
      (hcall | hcall) | ⟨client, proxy, timestamp, response, hproxy, hnew, hcall⟩
    · rw [hcall] at hmark
      cases hmark
    · rw [hcall] at hmark
      cases hmark
    · rw [hcall] at hmark ⊢
      cases response with
      | none => cases hmark
      | some reply =>
        rw [answerMark] at hmark
        split at hmark
        · rename_i hkey
          cases hmark
          subst hkey
          exact ⟨proxy, hproxy, hnew, rfl⟩
        · cases hmark

theorem Bound.call {b : ℕ} (hb : Bound key store b) (packet : Packet) :
    Bound key (h.call c store packet).1 b := by
  rcases call_cases (c := c) h store packet with (hcall | hcall) | ⟨_, _, t, _, _, _, hcall⟩
  · rw [hcall]
    exact hb
  · rw [hcall]
    exact hb
  · rw [hcall]
    exact hb.advance t

theorem watermark (c : Crypto Seed) (h : ProtocolRequestHandler Seed) (key : Bytes) :
    Watermark (h.clientStep c key) (Bound key) where
  silent store e b hsilent hb := by
    cases e with
    | req packet => exact hb.call packet
    | store op =>
      refine hb.apply fun hkey => ?_
      rw [clientStep, if_pos hkey] at hsilent
      cases hsilent
  beyond store e b t haccepted hb := by
    obtain ⟨proxy, hproxy, hnew, -⟩ := accepted_of_mark haccepted
    exact (hb proxy hproxy).trans_lt hnew
  raised store e t haccepted := by
    obtain ⟨_, -, -, hstore⟩ := accepted_of_mark haccepted
    rw [hstore]
    exact bound_advance store key t

/-- In every run, the timestamps of requests that are answered to a client with no update of its
contact between them increase. -/
theorem answers_increasing (c : Crypto Seed) (h : ProtocolRequestHandler Seed) (key : Bytes)
    (store : ProxyStore) (events : List RequestEvent) {timestamps : List ℕ}
    (hanswered : timestamps.map Mark.accepted <:+: marks (h.clientStep c key) store events) :
    timestamps.Pairwise (· < ·) :=
  (watermark c h key).pairwise_of_isInfix hanswered

def oneClient : Contact := { publicKey := xorCrypto.publicKey [0xA0] }

def oneClientStore : ProxyStore := (ProxyStore.init 1000).apply (.add oneClient)

def oneClientServer : ProtocolRequestHandler Bytes := { localIdentity := [0xB0] }

/-- The client's keep-alive request, as it goes over the air. -/
def keepAlive (timestamp : ℕ) : RequestEvent :=
  let secret := xorBytes (xorCrypto.privateKey [0xA0]) (xorCrypto.publicKey [0xB0])
  let body := xorCrypto.encryptThenMac (secret.take 16) secret (Bytes.le 4 timestamp ++ [0x02])
  .req { header := 0x02, payload := 0xB0 :: 0xA0 :: body, payloadLen := 2 + body.length }

/-- Requests with increasing timestamps are answered, a repeated one is not. -/
theorem answers_increasing_keepAlive :
    marks (oneClientServer.clientStep xorCrypto oneClient.publicKey) oneClientStore
        [keepAlive 1000, keepAlive 1000, keepAlive 1001] =
      [.accepted 1000, .accepted 1001] ∧ [1000, 1001].Pairwise (· < ·) := by
  have hmarks : marks (oneClientServer.clientStep xorCrypto oneClient.publicKey) oneClientStore
      [keepAlive 1000, keepAlive 1000, keepAlive 1001] = [.accepted 1000, .accepted 1001] := by
    decide +kernel
  refine ⟨hmarks, answers_increasing xorCrypto oneClientServer oneClient.publicKey oneClientStore
    [keepAlive 1000, keepAlive 1000, keepAlive 1001] ?_⟩
  rw [hmarks]
  exact List.infix_rfl

/-- An update that keeps the client's key, here one that changes nothing, makes the server answer
the same request again. -/
theorem keepAlive_answered_twice :
    marks (oneClientServer.clientStep xorCrypto oneClient.publicKey) oneClientStore
        [keepAlive 1000, .store (.update oneClient), keepAlive 1000] =
      [.accepted 1000, .lost, .accepted 1000] := by
  decide +kernel

end ProtocolRequestHandler

end OpenHop
