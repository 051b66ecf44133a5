import OpenHop.Node.ClientRepeat

/-! # Frames through chains of nodes

A frame goes from node to node, and what comes out depends on the frame and on what each node
has seen before. A flood passes unless it is a TRACE, a node has seen or consumes it or there
is no room for a hash, and the path it collects leads a direct packet through the same nodes.
-/

namespace OpenHop.Dispatcher

open PathUtils Packet

variable {p : Packet} {r : Route}

/-- What the forwarding rule makes of a frame, apart from what a node drops for other reasons. -/
def repeatFrame (selfKey data : Bytes) : Option Bytes := do
  let pkt ← (readFrom {} data).toOption
  let fwd ← (buildClientRepeatForward (some selfKey) pkt).toOption.join
  fwd.writeTo.toOption

/-- The forwarding rules of nodes with these keys, applied in turn. -/
def repeatAlong : List Bytes → Bytes → Option Bytes
  | [], data => some data
  | key :: keys, data => (repeatFrame key data).bind (repeatAlong keys)

/-- The frame is read as the packet, but with these hops. -/
def ReadAs (data : Bytes) (pkt : Packet) (hops : List Bytes) : Prop :=
  ∃ q, readFrom {} data = .ok q ∧ q.header = pkt.header ∧
    q.transportCodes = pkt.transportCodes ∧ q.payload = pkt.payload ∧
    q.getPathHashSize = pkt.getPathHashSize ∧ q.getPathHashes = hops

variable {q : Packet} {s : Route} {key d d' : Bytes} {keys : List Bytes}

theorem withRoute_of_carries (h : p.Carries r) : p.withRoute r = p := by
  rw [withRoute, ← h.pathLen_eq, ← h.path_eq]

theorem wellFormed_withRoute (h : WellFormed p) (r : Route) : WellFormed (p.withRoute r) :=
  (withRoute_carries p r).wellFormed h rfl rfl rfl rfl

theorem readAs_encode (h : WellFormed p) (hs : s.width = p.getPathHashSize) :
    ReadAs (p.withRoute s).encode p s.hops := by
  exact ⟨_, readFrom_encode {} (wellFormed_withRoute h s), rfl, rfl, rfl,
    (Carries.hashSize ⟨rfl, rfl⟩).trans hs, Carries.hashes ⟨rfl, rfl⟩⟩

theorem length_take_width (hkey : key.length = pubKeySize) (r : Route) :
    (key.take r.width).length = r.width := by
  have := r.width_le
  rw [List.length_take, hkey, pubKeySize]
  omega

theorem write_forward (h : WellFormed p) (r s : Route) :
    ((copyPacketForForward (receive {} (p.withRoute r))).withRoute s).writeTo =
      .ok (p.withRoute s).encode := by
  have hwf : WellFormed (receive {} (p.withRoute r)) :=
    (wellFormed_withRoute h r).of_wire rfl rfl rfl rfl rfl rfl
  obtain ⟨hforward, hpayload⟩ := copyPacketForForward_wellFormed hwf s
  refine writeTo_eq_ok.mpr ⟨hforward.toWritable, ?_⟩
  rw [encode, hpayload]
  rfl

theorem repeatFrame_encode (h : WellFormed p) (r : Route) :
    repeatFrame key (p.withRoute r).encode =
      (buildClientRepeatForward (some key) (receive {} (p.withRoute r))).toOption.join.bind
        fun fwd => fwd.writeTo.toOption := by
  rw [repeatFrame, readFrom_encode {} (wellFormed_withRoute h r)]
  rfl

theorem repeatFrame_flood (h : WellFormed p) (hflood : p.isRouteFlood = true)
    (hkey : key.length = pubKeySize) (r : Route) :
    repeatFrame key (p.withRoute r).encode =
      (r.push (key.take r.width) (length_take_width hkey r)).map
        fun s => (p.withRoute s).encode := by
  have hflood' : (receive {} (p.withRoute r)).isRouteFlood = true := hflood
  rw [repeatFrame_encode h, buildClientRepeatForward_of_flood hflood',
    buildFloodForward_eq ⟨rfl, rfl⟩ (length_take_width hkey r)]
  cases r.push (key.take r.width) (length_take_width hkey r) with
  | none => rfl
  | some s => exact congrArg Except.toOption (write_forward h r s)

theorem repeatFrame_direct (h : WellFormed p) (hdirect : p.isRouteDirect = true)
    (htrace : p.getPayloadType ≠ payloadTypeTrace) {hop : Bytes} {hops : List Bytes}
    (hr : r.hops = hop :: hops) :
    repeatFrame key (p.withRoute r).encode =
      if hop = key.take r.width then some (p.withRoute r.pop).encode else none := by
  have hcarries : (receive {} (p.withRoute r)).Carries r := ⟨rfl, rfl⟩
  have hforward : buildClientRepeatForward (some key) (receive {} (p.withRoute r)) =
      buildDirectForward (receive {} (p.withRoute r)) key := by
    have hdirect' : (receive {} (p.withRoute r)).isRouteDirect = true := hdirect
    have htrace' : ((receive {} (p.withRoute r)).getPayloadType == payloadTypeTrace) = false :=
      beq_eq_false_iff_ne.mpr htrace
    rw [buildClientRepeatForward, hdirect', htrace', hcarries.hashCount, hr]
    rfl
  rw [repeatFrame_encode h, hforward, buildDirectForward_eq hcarries hr]
  split
  · exact congrArg Except.toOption (write_forward h r r.pop)
  · rfl

theorem repeatAlong_flood (h : WellFormed p) (hflood : p.isRouteFlood = true)
    (hkeys : ∀ key ∈ keys, key.length = pubKeySize) (r : Route) :
    if r.hops.length + keys.length ≤ 63 ∧
        (r.hops.length + keys.length) * r.width ≤ maxPathSize then
      ∃ s : Route, s.width = r.width ∧ s.hops = r.hops ++ keys.map (·.take r.width) ∧
        repeatAlong keys (p.withRoute r).encode = some (p.withRoute s).encode
    else repeatAlong keys (p.withRoute r).encode = none := by
  induction keys generalizing r with
  | nil =>
    rw [if_pos ⟨r.count_le, r.size_le⟩]
    exact ⟨r, rfl, (List.append_nil _).symm, rfl⟩
  | cons key keys ih =>
    obtain ⟨hkey, hkeys⟩ := List.forall_mem_cons.mp hkeys
    rw [repeatAlong, repeatFrame_flood h hflood hkey, List.length_cons]
    cases hpush : r.push (key.take r.width) (length_take_width hkey r) with
    | none =>
      have hfull := (Route.push_eq_none_iff _).mp hpush
      have hmono : (r.hops.length + 1) * r.width ≤
          (r.hops.length + (keys.length + 1)) * r.width := Nat.mul_le_mul_right _ (by omega)
      rw [if_neg (by omega)]
      rfl
    | some s =>
      obtain ⟨hwidth, hhops, -⟩ := Route.push_eq_some _ hpush
      have hcount : s.hops.length + keys.length = r.hops.length + (keys.length + 1) := by
        rw [hhops, List.length_append, List.length_singleton]
        omega
      have hrest := ih hkeys s
      rw [hcount, hwidth, hhops] at hrest
      simpa using hrest

theorem repeatAlong_direct (h : WellFormed p) (hdirect : p.isRouteDirect = true)
    (htrace : p.getPayloadType ≠ payloadTypeTrace) (hlen : keys.length = r.hops.length) :
    ∃ s : Route, s.width = r.width ∧ s.hops = [] ∧ repeatAlong keys (p.withRoute r).encode =
      if keys.map (·.take r.width) = r.hops then some (p.withRoute s).encode else none := by
  induction keys generalizing r with
  | nil =>
    have hnil := List.eq_nil_of_length_eq_zero hlen.symm
    exact ⟨r, rfl, hnil, by simp [hnil, repeatAlong]⟩
  | cons key keys ih =>
    obtain ⟨hop, hops, hr⟩ := List.exists_cons_of_length_eq_add_one hlen.symm
    have hpop : r.pop.hops = hops := by simp [Route.pop, hr]
    obtain ⟨s, hwidth, hs, hrest⟩ := ih (r := r.pop) (by simpa [hpop, hr] using hlen)
    refine ⟨s, hwidth, hs, ?_⟩
    rw [repeatAlong, repeatFrame_direct h hdirect htrace hr, hr, List.map_cons]
    by_cases hhop : hop = key.take r.width
    · have hwidth : r.pop.width = r.width := rfl
      rw [if_pos hhop, Option.bind_some, hrest, hpop, hwidth, hhop]
      simp
    · rw [if_neg hhop, if_neg (fun heq => hhop (List.cons.inj heq).1.symm)]
      rfl

theorem repeatAlong_readAs (hread : readFrom {} d = .ok p) (hflood : p.isRouteFlood = true)
    (hkeys : ∀ key ∈ keys, key.length = pubKeySize) :
    ((∃ d', repeatAlong keys d = some d') ↔ p.getPathHashCount + keys.length ≤ 63 ∧
      (p.getPathHashCount + keys.length) * p.getPathHashSize ≤ maxPathSize) ∧
    ∀ d', repeatAlong keys d = some d' →
      ReadAs d' p (p.getPathHashes ++ keys.map (·.take p.getPathHashSize)) := by
  obtain ⟨hwf, rfl, -⟩ := readFrom_sound hread
  obtain ⟨r, hcarries⟩ := hwf.carries
  have hrun := repeatAlong_flood hwf hflood hkeys r
  rw [withRoute_of_carries hcarries, ← hcarries.hashes, ← hcarries.hashSize] at hrun
  rw [hcarries.hashCount, ← hcarries.hashes]
  split at hrun
  · rename_i hfits
    obtain ⟨s, hwidth, hhops, hrun⟩ := hrun
    refine ⟨iff_of_true ⟨_, hrun⟩ hfits, fun d' hd' => ?_⟩
    cases hrun.symm.trans hd'
    rw [← hhops]
    exact readAs_encode hwf hwidth
  · rename_i hfull
    refine ⟨iff_of_false (by simp [hrun]) hfull, fun d' hd' => ?_⟩
    cases hrun.symm.trans hd'

/-- A frame reaches a node that has come to the state `node`: how and when it is heard, when the
duplicate check is made, the hash tracked and the forward sent, and whether a handler of the node
consumes the packet. -/
structure Visit (Seed : Type) where
  cfg : RelayConfig Seed
  node : Relay
  rssi : ℤ
  snr : ℚ
  heard : ℚ
  checked : ℚ
  tracked : ℚ
  sent : ℚ
  consumed : Bool
  selfKey_length : cfg.selfKey.length = pubKeySize
  clock_le_heard : node.rx.clock ≤ heard
  heard_le_checked : heard ≤ checked
  checked_le_tracked : checked ≤ tracked
  tracked_le_sent : tracked ≤ sent

namespace Visit

variable {Seed : Type}

/-- What the node puts on the air: it receives the frame, goes on with it when its hold is over and
retransmits the forward that comes of it. -/
def relayFrame (v : Visit Seed) (data : Bytes) : Option Bytes := do
  let (n, _) ← relayStep v.cfg v.node (.receive data v.rssi v.snr v.heard v.heard)
  let (n, _) ← relayStep v.cfg n
    (.resume v.node.rx.held.length v.checked v.tracked v.consumed)
  let (_, frame) ← relayStep v.cfg n (.retransmit v.node.pending.length v.sent)
  frame

/-- The packet as the node keeps it. -/
def hears (v : Visit Seed) (pkt : Packet) : Packet := { pkt with rssi := v.rssi, snr := v.snr }

def blacklists (v : Visit Seed) (data : Bytes) : Bool :=
  v.node.rx.packetFilter.isBlacklisted (PacketFilter.generateHash v.cfg.crypto.sha256 data) v.heard

/-- The duplicate check stops the packet. -/
def hasSeen (v : Visit Seed) (pkt : Packet) : Bool :=
  v.cfg.dedupeEnabled && (seenKey v.cfg.rx pkt).toOption.any
    (v.node.rx.packetFilter.isDuplicate · v.checked)

/-- A flood is let through: it is no TRACE, and the node has not seen it and does not consume it. -/
def Lets (v : Visit Seed) (pkt : Packet) : Prop :=
  pkt.getPayloadType ≠ payloadTypeTrace ∧ v.hasSeen pkt = false ∧ v.consumed = false

instance (v : Visit Seed) (pkt : Packet) : Decidable (v.Lets pkt) :=
  inferInstanceAs (Decidable (_ ∧ _))

variable {v : Visit Seed} {q : Packet} {data : Bytes}

theorem relayFrame_eq (hread : readFrom {} data = .ok q) (hclear : v.blacklists data = false) :
    v.relayFrame data =
      (forwardOf v.cfg.rx (admission v.cfg.rx v.node.rx.packetFilter (v.hears q) v.checked)
        (v.hears q) v.consumed).bind fun fwd =>
          if fwd.isRouteFlood && fwd.getPayloadType == payloadTypeTrace then none
          else fwd.writeTo.toOption := by
  have hheld : receiveFrame v.cfg.rx v.node.rx data v.rssi v.snr v.heard v.heard =
      { v.node.rx with clock := v.heard, held := v.node.rx.held ++ [v.hears q] } := by
    have hlisted : v.node.rx.packetFilter.isBlacklisted
        (PacketFilter.generateHash v.cfg.rx.sha256 data) v.heard = false := hclear
    rw [receiveFrame, if_neg (by simp [hlisted]), hread]
    rfl
  have hlast {α : Type} (l : List α) (x : α) : (l ++ [x])[l.length]? = some x := by simp
  simp only [relayFrame, relayStep, rxStep, v.clock_le_heard, le_refl, and_self, if_true,
    Option.map_some, Option.bind_eq_bind, Option.bind_some, hheld, hlast, v.heard_le_checked,
    v.checked_le_tracked]
  cases hfwd : forwardOf v.cfg.rx _ _ v.consumed with
  | none => simp
  | some fwd =>
    simp only [Option.toList_some, hlast, Option.bind_some]
    by_cases htrace : (fwd.isRouteFlood && fwd.getPayloadType == payloadTypeTrace) = true
    · simp only [htrace, if_true, Option.bind_some]
    · have hout := outgoing_forward (forwardOf_eq_some hfwd) v.cfg.crypto v.cfg.dispatcher
      simp only [htrace, Bool.false_eq_true, if_false, hout, Relay.transmit, rxStep,
        processHeld_clock, v.tracked_le_sent, if_true, Option.map_some, Option.bind_some]

theorem admission_flood (hq : q.isRouteFlood = true) (hkey : seenKey v.cfg.rx q = .ok data)
    (hsame : seenKey v.cfg.rx p = .ok data) :
    admission v.cfg.rx v.node.rx.packetFilter q v.checked =
      if v.hasSeen p then .duplicate else .checkedIn := by
  have htransit : isTransitDirectNotNextHop v.cfg.rx q = false := by
    simp [isTransitDirectNotNextHop, isRouteDirect_of_isRouteFlood hq]
  have hdedupe : v.cfg.rx.dedupeEnabled = v.cfg.dedupeEnabled := rfl
  simp [admission, hasSeen, hkey, hsame, htransit, hdedupe, Except.toOption]

/-- A node lets a flood through or not, and what it sends is what the forwarding rule says. -/
theorem relayFrame_flood (h : WellFormed p) (hflood : p.isRouteFlood = true) (r : Route)
    (hclear : v.blacklists (p.withRoute r).encode = false) :
    v.relayFrame (p.withRoute r).encode =
      if v.Lets p then repeatFrame v.cfg.selfKey (p.withRoute r).encode else none := by
  let q := v.hears (receive {} (p.withRoute r))
  have hq : q.isRouteFlood = true := hflood
  have hbuild : buildClientRepeatForward v.cfg.rx.localIdentity q =
      .ok ((r.push (v.cfg.selfKey.take r.width) (length_take_width v.selfKey_length r)).map
        (copyPacketForForward q).withRoute) := by
    rw [RelayConfig.rx, buildClientRepeatForward_of_flood hq]
    exact buildFloodForward_eq ⟨rfl, rfl⟩ _
  rw [relayFrame_eq (readFrom_encode {} (wellFormed_withRoute h r)) hclear,
    repeatFrame_flood h hflood v.selfKey_length]
  by_cases htrace : p.getPayloadType = payloadTypeTrace
  · rw [if_neg fun hlets => hlets.1 htrace, Option.bind_eq_none_iff]
    intro fwd hfwd
    have hf := (forwardOf_eq_some hfwd).symm.trans hbuild
    obtain ⟨s, -, rfl⟩ := Option.map_eq_some_iff.mp (Except.ok.inj hf).symm
    exact if_pos (by simpa using ⟨hq, htrace⟩)
  · have hkey : seenKey v.cfg.rx q = seenKey v.cfg.rx p := by
      simp only [seenKey, calculatePacketHash]
      rw [if_neg htrace]
      exact congrArg _ (if_neg htrace)
    obtain ⟨packetHash, hhash⟩ : ∃ packetHash, seenKey v.cfg.rx p = .ok packetHash := by
      obtain ⟨packetHash, hhash⟩ := exists_packetHash v.cfg.rx.sha256 htrace
      exact ⟨packetHash.take 8, by rw [seenKey, hhash]; rfl⟩
    rw [admission_flood hq (hkey.trans hhash) hhash]
    cases hseen : v.hasSeen p with
    | true => simp [forwardOf, Lets, hseen]
    | false =>
      simp only [Bool.false_eq_true, if_false, forwardOf]
      rw [hbuild]
      cases r.push (v.cfg.selfKey.take r.width) (length_take_width v.selfKey_length r) with
      | none => simp
      | some s =>
        have hfwd : ((copyPacketForForward q).withRoute s).isRouteFlood = true := hq
        have htype : ((copyPacketForForward q).withRoute s).getPayloadType ≠ payloadTypeTrace :=
          htrace
        have hwrite : ((copyPacketForForward q).withRoute s).writeTo =
            .ok (p.withRoute s).encode := write_forward h r s
        cases hconsumed : v.consumed with
        | true => simp [hfwd, Lets, hconsumed]
        | false =>
          simp only [Option.map_some, hfwd, Bool.and_false, Bool.false_eq_true, if_false,
            Option.bind_some, hwrite, Bool.true_and, beq_iff_eq, htype]
          rw [if_pos ⟨htrace, hseen, hconsumed⟩]
          rfl

end Visit

/-- A frame through the nodes that it reaches in turn. -/
def relayAlong {Seed : Type} : List (Visit Seed) → Bytes → Option Bytes
  | [], data => some data
  | v :: visits, data => (v.relayFrame data).bind (relayAlong visits)

theorem relayAlong_flood {Seed : Type} {visits : List (Visit Seed)} (h : WellFormed p)
    (hflood : p.isRouteFlood = true)
    (hclear : ∀ v ∈ visits, ∀ data q, readFrom {} data = .ok q → v.blacklists data = false)
    (r : Route) :
    relayAlong visits (p.withRoute r).encode =
      if ∀ v ∈ visits, v.Lets p then
        repeatAlong (visits.map (·.cfg.selfKey)) (p.withRoute r).encode
      else none := by
  induction visits generalizing r with
  | nil => simp [relayAlong, repeatAlong]
  | cons v visits ih =>
    obtain ⟨hv, hclear⟩ := List.forall_mem_cons.mp hclear
    have hread := readFrom_encode {} (wellFormed_withRoute h r)
    rw [relayAlong, v.relayFrame_flood h hflood r (hv _ _ hread), List.map_cons, repeatAlong,
      repeatFrame_flood h hflood v.selfKey_length]
    by_cases hlets : v.Lets p
    · rw [if_pos hlets]
      cases r.push (v.cfg.selfKey.take r.width) (length_take_width v.selfKey_length r) with
      | none => simp
      | some s =>
        rw [Option.map_some, Option.bind_some, ih hclear s]
        simp [hlets]
    · rw [if_neg hlets, if_neg fun hall => hlets (hall v List.mem_cons_self)]
      rfl

/-- A flood comes out of any nodes in turn exactly if every node lets it through and their hashes
fit into its path, as it went in but for these hashes. -/
theorem flood_along {Seed : Type} (visits : List (Visit Seed)) (hread : readFrom {} d = .ok p)
    (hflood : p.isRouteFlood = true)
    (hclear : ∀ v ∈ visits, ∀ data q, readFrom {} data = .ok q → v.blacklists data = false) :
    ((∃ d', relayAlong visits d = some d') ↔
      (∀ v ∈ visits, p.getPayloadType ≠ payloadTypeTrace ∧ v.hasSeen p = false ∧
        v.consumed = false) ∧
      p.getPathHashCount + visits.length ≤ 63 ∧
      (p.getPathHashCount + visits.length) * p.getPathHashSize ≤ maxPathSize) ∧
    ∀ d', relayAlong visits d = some d' →
      ReadAs d' p (p.getPathHashes ++ visits.map (·.cfg.selfKey.take p.getPathHashSize)) := by
  obtain ⟨hwf, hd, -⟩ := readFrom_sound hread
  obtain ⟨r, hcarries⟩ := hwf.carries
  have hrelay := relayAlong_flood hwf hflood hclear r
  rw [withRoute_of_carries hcarries, hd] at hrelay
  have hkeys : ∀ key ∈ visits.map (·.cfg.selfKey), key.length = pubKeySize := by
    simpa using fun v _ => v.selfKey_length
  have hrepeat := repeatAlong_readAs hread hflood hkeys
  rw [List.length_map, List.map_map] at hrepeat
  rw [hrelay]
  split
  · rename_i hlets
    exact ⟨hrepeat.1.trans (and_iff_right hlets).symm, hrepeat.2⟩
  · rename_i hstopped
    exact ⟨iff_of_false (by simp) fun hall => hstopped hall.1, by simp⟩

def twoNodes : List Bytes := [List.replicate 32 7, List.replicate 32 8]

def hello : Packet := { header := 0x11, pathLen := 0x40, payload := [9], payloadLen := 1 }

/-- A node that hears its first frame. -/
def firstVisit (key : Bytes) (hkey : key.length = pubKeySize) : Visit Bytes where
  cfg := { crypto := xorCrypto, selfKey := key }
  node := { rx := { clock := 0, packetFilter := {} } }
  rssi := -90
  snr := 5
  heard := 1
  checked := 2
  tracked := 2
  sent := 3
  consumed := false
  selfKey_length := hkey
  clock_le_heard := by decide
  heard_le_checked := by decide
  checked_le_tracked := by decide
  tracked_le_sent := by decide

def twoVisits : List (Visit Bytes) :=
  [firstVisit (List.replicate 32 7) (by decide), firstVisit (List.replicate 32 8) (by decide)]

theorem flood_along_two : ∃ d', relayAlong twoVisits [0x11, 0x40, 9] = some d' ∧
    ReadAs d' hello [[7, 7], [8, 8]] := by
  have hread : readFrom {} [0x11, 0x40, 9] = .ok hello := by decide
  have hclear : ∀ v ∈ twoVisits, ∀ data q, readFrom {} data = .ok q →
      v.blacklists data = false := by
    intro v hv data q _
    rcases List.mem_pair.mp hv with rfl | rfl <;> rfl
  obtain ⟨hout, hreads⟩ := flood_along twoVisits hread (by decide) hclear
  obtain ⟨d', hd'⟩ := hout.mpr (by decide +kernel)
  exact ⟨d', hd', hreads d' hd'⟩

/-- The path that a flood has collected leads a direct packet through as many nodes exactly if they
have the hashes of those that the flood passed, in the same order. -/
theorem direct_along_flood (hread : readFrom {} d = .ok p) (hflood : p.isRouteFlood = true)
    (hempty : p.getPathHashes = []) (hkeys : ∀ key ∈ keys, key.length = pubKeySize)
    (hout : repeatAlong keys d = some d') (hread' : readFrom {} d' = .ok q) {e : Bytes} {m : Packet}
    (hm : readFrom {} e = .ok m) (hdirect : m.isRouteDirect = true)
    (htrace : m.getPayloadType ≠ payloadTypeTrace) (hpath : m.path = q.path)
    (hpathLen : m.pathLen = q.pathLen) {others : List Bytes} (hlen : others.length = keys.length) :
    ((∃ e', repeatAlong others e = some e') ↔
      others.map (·.take p.getPathHashSize) = keys.map (·.take p.getPathHashSize)) ∧
    ∀ e', repeatAlong others e = some e' → ReadAs e' m [] := by
  obtain ⟨hwf, rfl, -⟩ := readFrom_sound hread
  obtain ⟨hmwf, rfl, -⟩ := readFrom_sound hm
  obtain ⟨r, hcarries⟩ := hwf.carries
  have hrun := repeatAlong_flood hwf hflood hkeys r
  rw [withRoute_of_carries hcarries, hout, ← hcarries.hashes, hempty, ← hcarries.hashSize] at hrun
  split at hrun
  swap
  · cases hrun
  obtain ⟨s, hwidth, hhops, hrun⟩ := hrun
  rw [List.nil_append] at hhops
  rw [← hhops, ← hwidth]
  have hroute : m.Carries s := by
    have hq := readFrom_encode {} (wellFormed_withRoute hwf s)
    rw [← Option.some.inj hrun, hread'] at hq
    cases hq
    exact ⟨hpathLen, hpath⟩
  have hlen' : others.length = s.hops.length := by rw [hlen, hhops, List.length_map]
  obtain ⟨t, htwidth, ht, hdone⟩ := repeatAlong_direct hmwf hdirect htrace hlen'
  rw [withRoute_of_carries hroute] at hdone
  rw [hdone]
  split
  · rename_i hsame
    refine ⟨iff_of_true ⟨_, rfl⟩ hsame, fun e' he' => ?_⟩
    cases he'
    rw [← ht]
    exact readAs_encode hmwf (htwidth.trans hroute.hashSize.symm)
  · rename_i hdiffer
    exact ⟨iff_of_false (by simp) hdiffer, fun e' he' => by cases he'⟩

theorem direct_along_flood_two :
    ∃ e' m, repeatAlong twoNodes [0x12, 0x42, 7, 7, 8, 8, 5] = some e' ∧ ReadAs e' m [] := by
  have hread : readFrom {} [0x11, 0x40, 9] = .ok hello := by decide
  have hout : repeatAlong twoNodes [0x11, 0x40, 9] = some [0x11, 0x42, 7, 7, 8, 8, 9] := by decide
  let q : Packet := { hello with pathLen := 0x42, path := [7, 7, 8, 8] }
  have hq : readFrom {} [0x11, 0x42, 7, 7, 8, 8, 9] = .ok q := by decide
  let m : Packet := { q with header := 0x12, payload := [5] }
  have hm : readFrom {} [0x12, 0x42, 7, 7, 8, 8, 5] = .ok m := by decide
  obtain ⟨hpass, hreads⟩ := direct_along_flood hread (by decide) (by decide) (by decide) hout hq
    hm (by decide) (by decide) rfl rfl rfl
  obtain ⟨e', he'⟩ := hpass.mpr rfl
  exact ⟨e', m, he', hreads e' he'⟩

end OpenHop.Dispatcher
