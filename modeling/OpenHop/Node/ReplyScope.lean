import OpenHop.Protocol.RegionMap

/-! # The scope of flooded replies

A reply is scoped in two places: where it is built, by the region its request came in under,
and where it is sent, by what is configured at the node.
-/

namespace OpenHop

variable {Seed : Type} (c : Crypto Seed)

inductive ReplyScope where
  | request
  | default
  | none
  deriving DecidableEq

def chooseReplyScope (requestScopeKnown requestWasUnscopedFlood defaultScopeKnown : Bool) :
    ReplyScope :=
  if requestScopeKnown then .request
  else if requestWasUnscopedFlood then .none
  else if defaultScopeKnown then .default
  else .none

/-- The keys that the setters produce have 16 bytes. -/
abbrev TransportKey := { key : Bytes // key.length = 16 }

/-- The override, the persisted default and the switch that disables both. -/
structure FloodScope where
  floodTransportKey : Option TransportKey := none
  defaultFloodTransportKey : Option TransportKey := none
  floodUnscoped : Bool := false

namespace FloodScope

def sendKey (d : FloodScope) : Option Bytes :=
  (d.floodTransportKey.or d.defaultFloodTransportKey).map Subtype.val

/-- `Dispatcher._apply_flood_scope` -/
def applyFloodScope (d : FloodScope) (p : Packet) : Option Packet :=
  if p.floodScopeApplied then some p
  else if p.getRouteType ≠ routeTypeFlood then some p
  else if d.floodUnscoped then some p
  else
    match d.sendKey with
    | none => some p
    | some key => scopePacket c p key

/-- A reply from the receipt of its request to the radio. -/
def sendReply (d : FloodScope) (map : Option RegionMap) (request reply : Packet) : Option Packet :=
  (applyReplyScope c reply (captureRecvRegion c map request)).bind (d.applyFloodScope c)

end FloodScope

section Rule

variable (map : Option RegionMap) (request : Packet)

/-- A region that allows floods and has a key that gives the code of the request. -/
def RegionEntry.Matches (r : RegionEntry) : Prop :=
  r.flags &&& regionDenyFlood = 0 ∧
    ∃ key ∈ RegionMap.iterRegionKeys c r,
      calcTransportCode c key request = some request.transportCodes.1

/-- The request is a flood with a code, and of the regions that match it this is the first. -/
def ArrivedUnder (r : RegionEntry) : Prop :=
  request.getRouteType = routeTypeTransportFlood ∧ request.transportCodes.1 ≠ 0 ∧
    ∃ m, map = some m ∧ ∃ before after, m.regions = before ++ r :: after ∧
      r.Matches c request ∧ ∀ x ∈ before, ¬ x.Matches c request

def RequestKey (k : Bytes) : Prop :=
  ∃ r, ArrivedUnder c map request r ∧ r.id ≠ 0 ∧ (RegionMap.iterRegionKeys c r).head? = some k

def UnscopedFlood : Prop :=
  (∃ r, ArrivedUnder c map request r ∧ r.id = 0) ∨
    request.getRouteType = routeTypeFlood ∧
      ∃ m, map = some m ∧ m.wildcardFlags &&& regionDenyFlood = 0

open Classical in
/-- The key of a reply: that of the request, or that of the node if the request does not tell. -/
def ReplyKey (d : FloodScope) (k : Bytes) : Prop :=
  chooseReplyScope (∃ k, RequestKey c map request k) (UnscopedFlood c map request)
      d.sendKey.isSome = .request ∧ RequestKey c map request k ∨
    (¬ (∃ k, RequestKey c map request k) ∧ ¬ UnscopedFlood c map request) ∧
      d.floodUnscoped = false ∧ d.sendKey = some k

/-- What goes on air for a plain flood `reply`: a transport flood with a code over the reply's own
payload if there is a key for it, and otherwise the reply as it is. -/
structure OnAir (d : FloodScope) (reply p : Packet) : Prop where
  transport : p.getRouteType = routeTypeTransportFlood ↔ ∃ k, ReplyKey c map request d k
  code : ∀ k, ReplyKey c map request d k →
    ∃ code, calcTransportCode c k reply = some code ∧ p.transportCodes = (code, 0)
  plain : (¬ ∃ k, ReplyKey c map request d k) →
    p.header = reply.header ∧ p.transportCodes = reply.transportCodes
  payload : p.payload = reply.payload ∧ p.getPayloadType = reply.getPayloadType ∧
    p.path = reply.path ∧ p.pathLen = reply.pathLen

end Rule

variable {c} {map : Option RegionMap} {request reply : Packet}

/-- No decision was recorded for the packet yet. -/
structure Packet.Fresh (p : Packet) : Prop where
  captured : p.recvRegionCaptured = false
  key : p.recvRegionKey = none
  unscoped : p.recvRegionUnscoped = false

theorem hasTransportCodes_of_flood {p : Packet} (h : p.getRouteType = routeTypeTransportFlood) :
    p.hasTransportCodes = true := by
  rw [Packet.hasTransportCodes, h]
  rfl

theorem RegionEntry.matches_iff {r : RegionEntry} :
    (r.flags &&& regionDenyFlood = 0 &&
        (RegionMap.iterRegionKeys c r).any fun key =>
          calcTransportCode c key request = request.transportCodes.1) = true ↔
      r.Matches c request := by
  simp [Matches]

theorem findMatch_eq_some (hroute : request.getRouteType = routeTypeTransportFlood)
    {m : RegionMap} {r : RegionEntry} :
    m.findMatch c request regionDenyFlood = some r ↔ ArrivedUnder c (some m) request r := by
  rw [RegionMap.findMatch, if_neg (by simp [hasTransportCodes_of_flood hroute])]
  by_cases hcode : request.transportCodes.1 = 0
  · simp [hcode, ArrivedUnder]
  rw [if_neg hcode, List.find?_eq_some_iff_append]
  constructor
  · rintro ⟨hmatch, before, after, hsplit, hbefore⟩
    refine ⟨hroute, hcode, m, rfl, before, after, hsplit, RegionEntry.matches_iff.mp hmatch, ?_⟩
    intro x hx hmatch
    have hnot := hbefore x hx
    rw [RegionEntry.matches_iff.mpr hmatch] at hnot
    cases hnot
  · rintro ⟨-, -, m', hm, before, after, hsplit, hmatch, hbefore⟩
    cases hm
    refine ⟨RegionEntry.matches_iff.mpr hmatch, before, after, hsplit, ?_⟩
    intro x hx
    rw [Bool.not_eq_true', ← Bool.not_eq_true, RegionEntry.matches_iff]
    exact hbefore x hx

/-- The decision that a capture records. -/
structure Captured (map : Option RegionMap) (request q : Packet) : Prop where
  captured : q.recvRegionCaptured = map.isSome
  key : ∀ k, q.recvRegionKey = some k ↔ RequestKey c map request k
  unscoped : q.recvRegionUnscoped = true ↔ UnscopedFlood c map request

theorem arrivedUnder_unique {r r' : RegionEntry} (h : ArrivedUnder c map request r)
    (h' : ArrivedUnder c map request r') : r = r' := by
  obtain ⟨hroute, -, m, rfl, -⟩ := id h
  have hr := (findMatch_eq_some hroute).mpr h
  have hr' := (findMatch_eq_some hroute).mpr h'
  exact Option.some.inj (hr.symm.trans hr')

theorem captureRecvRegion_captured (hfresh : request.Fresh) :
    Captured (c := c) map request (captureRecvRegion c map request) := by
  cases map with
  | none =>
    refine ⟨hfresh.captured, ?_, ?_⟩
    · intro k
      show request.recvRegionKey = some k ↔ _
      simp [hfresh.key, RequestKey, ArrivedUnder]
    · show request.recvRegionUnscoped = true ↔ _
      simp [hfresh.unscoped, UnscopedFlood, ArrivedUnder]
  | some m =>
    rw [captureRecvRegion, if_neg (by simp [hfresh.captured])]
    dsimp only
    by_cases htransport : request.getRouteType = routeTypeTransportFlood
    · have hfind : m.findMatch c
          { request with recvRegionCaptured := true, recvRegionUnscoped := false }
          regionDenyFlood = m.findMatch c request regionDenyFlood := rfl
      rw [if_pos (by exact htransport), hfind]
      cases hmatch : m.findMatch c request regionDenyFlood with
      | none =>
        have hnone (r : RegionEntry) : ¬ ArrivedUnder c (some m) request r := by
          intro h
          rw [(findMatch_eq_some htransport).mpr h] at hmatch
          cases hmatch
        refine ⟨rfl, ?_, ?_⟩
        · simp [RequestKey, RegionMap.firstKeyFor, hnone]
        · simp [UnscopedFlood, hnone, htransport]
      | some r =>
        have hr := (findMatch_eq_some htransport).mp hmatch
        have hall (r' : RegionEntry) : ArrivedUnder c (some m) request r' ↔ r' = r :=
          ⟨fun h => arrivedUnder_unique h hr, fun h => h ▸ hr⟩
        by_cases hid : r.id = 0
        · rw [if_pos (by simp [hid])]
          refine ⟨rfl, ?_, ?_⟩
          · simp [RequestKey, hall, hid]
          · simp [UnscopedFlood, hall, hid]
        · rw [if_neg (by simp [hid])]
          refine ⟨rfl, ?_, ?_⟩
          · simp [RequestKey, RegionMap.firstKeyFor, hall, hid]
          · simp [UnscopedFlood, hall, hid, htransport]
    · rw [if_neg (by exact htransport)]
      have hnone (r : RegionEntry) : ¬ ArrivedUnder c (some m) request r := fun h => htransport h.1
      by_cases hflood : request.getRouteType = routeTypeFlood
      · rw [if_pos (by exact hflood)]
        refine ⟨rfl, ?_, ?_⟩
        · simp [RequestKey, hnone]
        · simp [UnscopedFlood, hnone, hflood]
      · rw [if_neg (by exact hflood)]
        refine ⟨rfl, ?_, ?_⟩
        · simp [RequestKey, hnone]
        · simp only [UnscopedFlood, hnone, hflood]
          simp

variable {d : FloodScope}

open Classical in
theorem replyKey_of_request (h : ∃ k, RequestKey c map request k) (k : Bytes) :
    ReplyKey c map request d k ↔ RequestKey c map request k := by
  simp [ReplyKey, chooseReplyScope, h]

open Classical in
theorem replyKey_of_unknown (h : ¬ ∃ k, RequestKey c map request k) (k : Bytes) :
    ReplyKey c map request d k ↔
      ¬ UnscopedFlood c map request ∧ d.floodUnscoped = false ∧ d.sendKey = some k := by
  have hno : ¬ RequestKey c map request k := fun hk => h ⟨k, hk⟩
  simp only [ReplyKey, hno, and_false, false_or, h, not_false_eq_true, true_and]

theorem FloodScope.length_sendKey {k : Bytes} (h : d.sendKey = some k) : k.length = 16 := by
  obtain ⟨key, -, rfl⟩ := Option.map_eq_some_iff.mp h
  exact key.2

theorem OnAir.mark {p : Packet} (h : OnAir c map request d reply p) (applied : Bool) :
    OnAir c map request d reply { p with floodScopeApplied := applied } :=
  ⟨h.transport, h.code, h.plain, h.payload⟩

theorem onAir_of_key (reply : Packet) {k : Bytes} (hk : k.length = 16)
    (hkey : ∀ k', ReplyKey c map request d k' ↔ k' = k) :
    ∃ p, scopePacket c reply k = some p ∧ OnAir c map request d reply p := by
  obtain ⟨code, hcode, -⟩ := calcTransportCode_of_length (c := c) hk reply
  have hscoped : scopePacket c reply k = some _ := congrArg (Option.map _) hcode
  refine ⟨_, hscoped, ?_, ?_, ?_, ?_⟩
  · exact iff_of_true (getRouteType_scopePacket hscoped) ⟨k, (hkey k).mpr rfl⟩
  · intro k' hk'
    cases (hkey k').mp hk'
    exact ⟨code, hcode, rfl⟩
  · intro hno
    exact absurd ⟨k, (hkey k).mpr rfl⟩ hno
  · exact ⟨rfl, (scopePacket_carries hscoped).2, rfl, rfl⟩

theorem onAir_of_no_key (hroute : reply.getRouteType = routeTypeFlood)
    (hno : ¬ ∃ k, ReplyKey c map request d k) : OnAir c map request d reply reply := by
  refine ⟨iff_of_false ?_ hno, ?_, fun _ => ⟨rfl, rfl⟩, rfl, rfl, rfl, rfl⟩
  · simp [hroute]
  · intro k hk
    exact absurd ⟨k, hk⟩ hno

theorem isSome_of_arrivedUnder {r : RegionEntry} (h : ArrivedUnder c map request r) :
    map.isSome = true := by
  obtain ⟨-, -, m, rfl, -⟩ := h
  rfl

theorem isSome_of_unscopedFlood (h : UnscopedFlood c map request) : map.isSome = true := by
  obtain ⟨r, hr, -⟩ | ⟨-, m, rfl, -⟩ := h
  · exact isSome_of_arrivedUnder hr
  · rfl

theorem applyFloodScope_onAir (d : FloodScope) {map : Option RegionMap}
    (hroute : reply.getRouteType = routeTypeFlood) (hreply : reply.floodScopeApplied = false)
    (hunknown : ¬ ∃ k, RequestKey c map request k) (hunscoped : ¬ UnscopedFlood c map request) :
    ∃ p, d.applyFloodScope c reply = some p ∧ OnAir c map request d reply p := by
  rw [FloodScope.applyFloodScope, if_neg (by simp [hreply]), if_neg (not_not.mpr hroute)]
  by_cases hun : d.floodUnscoped = true
  · rw [if_pos hun]
    refine ⟨reply, rfl, onAir_of_no_key hroute ?_⟩
    simp [replyKey_of_unknown hunknown, hun]
  rw [if_neg hun]
  cases hsend : d.sendKey with
  | none =>
    refine ⟨reply, rfl, onAir_of_no_key hroute ?_⟩
    simp [replyKey_of_unknown hunknown, hsend]
  | some k =>
    have hunique (k' : Bytes) : ReplyKey c map request d k' ↔ k' = k := by
      rw [replyKey_of_unknown hunknown, hsend]
      simp [hunscoped, hun, eq_comm]
    exact onAir_of_key reply (FloodScope.length_sendKey hsend) hunique

theorem sendReply_onAir (d : FloodScope) (map : Option RegionMap) (hrequest : request.Fresh)
    (hroute : reply.getRouteType = routeTypeFlood) (hreply : reply.floodScopeApplied = false) :
    ∃ p, d.sendReply c map request reply = some p ∧ OnAir c map request d reply p := by
  have hcap : Captured (c := c) map request (captureRecvRegion c map request) :=
    captureRecvRegion_captured hrequest
  have hlength {k : Bytes} (hk : (captureRecvRegion c map request).recvRegionKey = some k) :=
    captureRecvRegion_key hrequest.key hk
  rw [FloodScope.sendReply, applyReplyScope]
  generalize captureRecvRegion c map request = q at hcap hlength
  cases hkey : q.recvRegionKey with
  | some k =>
    have hrk := (hcap.key k).mp hkey
    obtain ⟨r, hr, -⟩ := (hcap.key k).mp hkey
    have hunique (k' : Bytes) : ReplyKey c map request d k' ↔ k' = k := by
      rw [replyKey_of_request ⟨k, hrk⟩, ← hcap.key, hkey]
      exact ⟨fun h => (Option.some.inj h).symm, fun h => congrArg some h.symm⟩
    obtain ⟨p, hp, honAir⟩ := onAir_of_key reply (hlength hkey) hunique
    rw [if_neg (by simp [hcap.captured, isSome_of_arrivedUnder hr])]
    dsimp only
    rw [if_pos hroute, hp]
    exact ⟨_, rfl, honAir.mark true⟩
  | none =>
    have hunknown : ¬ ∃ k, RequestKey c map request k := by
      rintro ⟨k, hk⟩
      rw [← hcap.key, hkey] at hk
      cases hk
    by_cases hunscoped : UnscopedFlood c map request
    · have hno : ¬ ∃ k, ReplyKey c map request d k := by
        rintro ⟨k, hk⟩
        exact ((replyKey_of_unknown hunknown k).mp hk).1 hunscoped
      rw [if_neg (by simp [hcap.captured, isSome_of_unscopedFlood hunscoped])]
      dsimp only
      rw [if_pos (hcap.unscoped.mpr hunscoped)]
      exact ⟨_, rfl, (onAir_of_no_key hroute hno).mark true⟩
    · have hopen : (if ¬ q.recvRegionCaptured = true then some reply else
          if q.recvRegionUnscoped = true then some { reply with floodScopeApplied := true }
          else some reply) = some reply := by
        rw [if_neg fun h => hunscoped (hcap.unscoped.mp h), ite_self]
      dsimp only
      rw [hopen, Option.bind_some]
      exact applyFloodScope_onAir d hroute hreply hunknown hunscoped

theorem captureRecvRegion_again (hrequest : request.Fresh) (map map' : Option RegionMap)
    (h : (captureRecvRegion c map request).recvRegionKey.isSome = true ∨
      (captureRecvRegion c map request).recvRegionUnscoped = true) :
    captureRecvRegion c map' (captureRecvRegion c map request) =
      captureRecvRegion c map request := by
  have hcap : Captured (c := c) map request (captureRecvRegion c map request) :=
    captureRecvRegion_captured hrequest
  generalize captureRecvRegion c map request = q at hcap h
  have hcaptured : q.recvRegionCaptured = true := by
    rw [hcap.captured]
    obtain hkey | hunscoped := h
    · obtain ⟨k, hk⟩ := Option.isSome_iff_exists.mp hkey
      obtain ⟨r, hr, -⟩ := (hcap.key k).mp hk
      exact isSome_of_arrivedUnder hr
    · exact isSome_of_unscopedFlood (hcap.unscoped.mp hunscoped)
  cases map' with
  | none => rfl
  | some m => exact if_pos ⟨hcaptured, h⟩

theorem iterRegionKeys_private {r : RegionEntry} (hname : r.name.head? = some '$')
    (hkeys : ∀ key ∈ r.privateKeys, key.length ≠ 16) : RegionMap.iterRegionKeys c r = [] := by
  rw [RegionMap.iterRegionKeys, if_pos hname, List.filter_eq_nil_iff]
  intro key hkey
  simp [hkeys key hkey]

/-- From the receipt of a request to the air its reply follows the rule, whatever map another
capture may use, and private regions without a stored key play no part. -/
theorem replyScoping (d : FloodScope) (map : Option RegionMap) (hrequest : request.Fresh)
    (hroute : reply.getRouteType = routeTypeFlood) (hreply : reply.floodScopeApplied = false) :
    (∃ p, d.sendReply c map request reply = some p ∧ OnAir c map request d reply p) ∧
    (∀ map', (captureRecvRegion c map request).recvRegionKey.isSome = true ∨
        (captureRecvRegion c map request).recvRegionUnscoped = true →
      captureRecvRegion c map' (captureRecvRegion c map request) =
        captureRecvRegion c map request) ∧
    ∀ r : RegionEntry, r.name.head? = some '$' → (∀ key ∈ r.privateKeys, key.length ≠ 16) →
      RegionMap.iterRegionKeys c r = [] ∧ ¬ ArrivedUnder c map request r := by
  refine ⟨sendReply_onAir d map hrequest hroute hreply,
    fun map' => captureRecvRegion_again hrequest map map', fun r hname hkeys => ?_⟩
  have hnil := iterRegionKeys_private (c := c) hname hkeys
  refine ⟨hnil, ?_⟩
  rintro ⟨-, -, m, -, before, after, -, ⟨-, key, hkey, -⟩, -⟩
  rw [hnil] at hkey
  cases hkey

/-- A request under the code of a private region with one key, at a node with a default scope. -/
theorem replyScoping_private :
    let key := List.replicate 16 5
    let map : RegionMap := { regions := [{ id := 1, name := ['$', 'a'], privateKeys := [key] }] }
    let request : Packet :=
      { transportCodes := (calcTransportCode xorCrypto key {}).getD 0 |> (·, 0) }
    let reply : Packet := { header := routeTypeFlood, payload := [1, 2], payloadLen := 2 }
    let d : FloodScope := { defaultFloodTransportKey := some ⟨List.replicate 16 9, rfl⟩ }
    (captureRecvRegion xorCrypto (some map) request).recvRegionKey = some key ∧
      ∃ p, d.sendReply xorCrypto (some map) request reply = some p ∧
        OnAir xorCrypto (some map) request d reply p := by
  intro key map request reply d
  exact ⟨by decide +kernel, (replyScoping d (some map) ⟨rfl, rfl, rfl⟩ (by decide) rfl).1⟩

end OpenHop
