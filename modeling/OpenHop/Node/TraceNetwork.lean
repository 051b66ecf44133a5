import OpenHop.Node.ClientRepeat
import OpenHop.Node.TraceCopies

/-! # A TRACE in a network of client-repeat nodes

Every frame that a node transmits may be heard by any node, any number of times and at any
SNR, between receptions and transmissions of anything else.
-/

namespace OpenHop.Dispatcher

open PathUtils Packet

variable {ι Seed : Type}

/-- The nodes, and the frames that have been on the air. -/
structure TraceNet (ι : Type) where
  node : ι → Relay
  air : List Bytes := []

/-- A node hears a frame of the network, or does something else of its own. -/
inductive NetAction (ι : Type) where
  | hear (k : ι) (index : ℕ) (rssi : ℤ) (snr t t' : ℚ)
  | act (k : ι) (a : RelayAction)

def TraceNet.init (clock window : ℚ) : TraceNet ι where
  node _ := { rx := { clock := clock, packetFilter := { windowSeconds := window } } }

def netStep [DecidableEq ι] (cfg : ι → RelayConfig Seed) (net : TraceNet ι) :
    NetAction ι → Option (TraceNet ι)
  | .hear k index rssi snr t t' =>
    match net.air[index]? with
    | none => none
    | some d =>
      (relayStep (cfg k) (net.node k) (.receive d rssi snr t t')).map fun m =>
        { net with node := Function.update net.node k m.1 }
  | .act k a =>
    (relayStep (cfg k) (net.node k) a).map fun m =>
      { node := Function.update net.node k m.1, air := net.air ++ m.2.toList }

def netRun [DecidableEq ι] (cfg : ι → RelayConfig Seed) (net : TraceNet ι)
    (actions : List (NetAction ι)) : Option (TraceNet ι) :=
  Machine.run (netStep cfg) net actions

/-- The network after one of its nodes has moved. -/
inductive NetMove [DecidableEq ι] (cfg : ι → RelayConfig Seed) (net : TraceNet ι) :
    NetAction ι → TraceNet ι → Prop where
  | hear {k : ι} {index : ℕ} {rssi : ℤ} {snr t t' : ℚ} {d : Bytes} {n : Relay}
      (hair : d ∈ net.air)
      (hmove : RelayMove (cfg k) (net.node k) (.receive d rssi snr t t') n none) :
      NetMove cfg net (.hear k index rssi snr t t')
        { net with node := Function.update net.node k n }
  | act {k : ι} {a : RelayAction} {n : Relay} {frame : Option Bytes}
      (hmove : RelayMove (cfg k) (net.node k) a n frame) :
      NetMove cfg net (.act k a)
        { node := Function.update net.node k n, air := net.air ++ frame.toList }

theorem netStep_cases [DecidableEq ι] {cfg : ι → RelayConfig Seed} {net net' : TraceNet ι}
    {a : NetAction ι} (h : netStep cfg net a = some net') : NetMove cfg net a net' := by
  cases a with
  | hear k index rssi snr t t' =>
    simp only [netStep] at h
    split at h
    · cases h
    · rename_i d hair
      obtain ⟨⟨n, frame⟩, hstep, rfl⟩ := Option.map_eq_some_iff.mp h
      have hmove := relayStep_cases hstep
      obtain rfl : frame = none := by cases hmove; rfl
      exact .hear (List.mem_of_getElem? hair) hmove
  | act k a =>
    obtain ⟨⟨n, frame⟩, hstep, rfl⟩ := Option.map_eq_some_iff.mp h
    exact .act (relayStep_cases hstep)

/-- A TRACE with the payload of the route, whatever its path. -/
def CarriesTrace (r : TraceRoute) (p : Packet) : Prop :=
  p.getPayloadType = payloadTypeTrace ∧ p.getPayload = r.payload

instance (r : TraceRoute) (p : Packet) : Decidable (CarriesTrace r p) :=
  inferInstanceAs (Decidable (_ ∧ _))

/-- Nothing but the TRACE itself brings its payload into the network. -/
def NetAction.Foreign (r : TraceRoute) (origin : Packet) : NetAction ι → Prop
  | .act _ (.receive data _ _ _ _) => ∀ q, readFrom {} data = .ok q → ¬ CarriesTrace r q
  | .act _ (.transmit pkt _) => CarriesTrace r pkt → pkt = origin
  | _ => True

def TraceNet.SentBy (net : TraceNet ι) (k : ι) (f : Packet) : Prop :=
  ∃ t, ⟨f, t, true⟩ ∈ (net.node k).tracked

/-- A copy of the TRACE that the nodes of its trail have made in this run. -/
def TraceNet.Copy (cfg : ι → RelayConfig Seed) (net : TraceNet ι) (origin : Packet)
    (trail : List (ι × ℚ)) (f : Packet) : Prop :=
  TraceCopy (fun k => (cfg k).selfKey) net.SentBy origin trail f

variable {r : TraceRoute} {origin p q f : Packet}

theorem CarriesTrace.seenKey_eq (hp : CarriesTrace r p) (hq : CarriesTrace r q)
    (hcount : p.pathLen = q.pathLen) (c : RxConfig) : seenKey c p = seenKey c q := by
  unfold seenKey calculatePacketHash
  have hpp : p.payload.take p.payloadLen = r.payload := hp.2
  have hqq : q.payload.take q.payloadLen = r.payload := hq.2
  rw [hp.1, hq.1, hpp, hqq, hcount]

theorem CarriesTrace.of_forward {localIdentity : Option Bytes}
    (h : buildClientRepeatForward localIdentity q = .ok (some f)) (hf : CarriesTrace r f) :
    CarriesTrace r q := by
  obtain ⟨path, pathLen, rfl⟩ := buildClientRepeatForward_eq_copy h
  refine ⟨hf.1, ?_⟩
  have hpayload : (q.payload.take q.payloadLen).take q.payloadLen = r.payload := hf.2
  rwa [List.take_take, min_self] at hpayload

theorem CarriesTrace.of_frame {d : Bytes} (hwrite : p.writeTo = .ok d)
    (hread : readFrom {} d = .ok q) (hq : CarriesTrace r q) : CarriesTrace r p := by
  obtain ⟨hp, hpd⟩ := writeTo_eq_ok.mp hwrite
  obtain ⟨hwf, hqd, -⟩ := readFrom_sound hread
  obtain ⟨hheader, -, -, hpayload⟩ := hp.encode_inj hwf.toWritable (hpd.trans hqd.symm)
  refine ⟨?_, ?_⟩
  · rw [Packet.getPayloadType, hheader]
    exact hq.1
  · rw [Packet.getPayload, hp.payload_length, List.take_length, hpayload, ← hwf.getPayload]
    exact hq.2

section Runs

variable {cfg : ι → RelayConfig Seed} {net net' : TraceNet ι} {window : ℚ}

/-- What holds in every run: the tables say what was marked seen, and whatever carries the
payload of the TRACE is a copy of it, or about to become one. -/
structure NetInv (cfg : ι → RelayConfig Seed) (r : TraceRoute) (origin : Packet) (window : ℚ)
    (net : TraceNet ι) : Prop where
  table : ∀ k, TableInv (cfg k).rx window (net.node k)
  air : ∀ d ∈ net.air, ∀ q, readFrom {} d = .ok q → CarriesTrace r q →
    ∃ trail f, net.Copy cfg origin trail f ∧ f.encode = d
  held : ∀ k, ∀ q ∈ (net.node k).rx.held, CarriesTrace r q →
    ∃ trail f rssi snr, net.Copy cfg origin trail f ∧ q = received f rssi snr
  pending : ∀ k, ∀ f ∈ (net.node k).pending,
    ∃ q, buildClientRepeatForward (some (cfg k).selfKey) q = .ok (some f) ∧
      (CarriesTrace r f → ∃ trail p rssi snr, net.Copy cfg origin trail p ∧
        q = received p rssi snr)
  sent : ∀ k, ∀ e ∈ (net.node k).tracked, e.sent = true → CarriesTrace r e.pkt →
    e.pkt = origin ∨ ∃ trail snr, net.Copy cfg origin (trail ++ [(k, snr)]) e.pkt

theorem NetInv.init (clock : ℚ) : NetInv cfg r origin window (TraceNet.init clock window) where
  table _ := ⟨rfl, List.forall_mem_nil _, List.forall_mem_nil _, nofun⟩
  air := List.forall_mem_nil _
  held _ := List.forall_mem_nil _
  pending _ := List.forall_mem_nil _
  sent _ := List.forall_mem_nil _

/-- A copy with as many SNRs was marked seen less than a window before `t`. -/
def SeenCount (r : TraceRoute) (window : ℚ) (tracked : List Tracked) (count : ℕ) (t : ℚ) : Prop :=
  ∃ e ∈ tracked, CarriesTrace r e.pkt ∧ e.pkt.pathLen = count ∧ t < e.time + window

/-- No other packet that was marked seen has the hash of this one. -/
def CollisionFree (c : RxConfig) (r : TraceRoute) (tracked : List Tracked) (q : Packet) : Prop :=
  ∀ e ∈ tracked, seenKey c e.pkt = seenKey c q →
    CarriesTrace r e.pkt ∧ e.pkt.pathLen = q.pathLen

instance (r : TraceRoute) (window : ℚ) (tracked : List Tracked) (count : ℕ) (t : ℚ) :
    Decidable (SeenCount r window tracked count t) :=
  inferInstanceAs (Decidable (∃ e ∈ tracked, _))

instance (c : RxConfig) (r : TraceRoute) (tracked : List Tracked) (q : Packet) :
    Decidable (CollisionFree c r tracked q) :=
  inferInstanceAs (Decidable (∀ e ∈ tracked, _))

theorem isTransitDirectNotNextHop_trace {c : RxConfig}
    (h : q.getPayloadType = payloadTypeTrace) : isTransitDirectNotNextHop c q = false := by
  unfold isTransitDirectNotNextHop
  rw [h, beq_self_eq_true, if_pos rfl, ite_self]

theorem TableInv.admission_trace {c : RelayConfig Seed} {n : Relay} {t : ℚ}
    (hi : TableInv c.rx window n) (hq : CarriesTrace r q) (hwritable : q.Writable)
    (hfree : CollisionFree c.rx r n.tracked q) (ht : n.rx.clock ≤ t) :
    c.dedupeEnabled = true ∧ SeenCount r window n.tracked q.pathLen t ∧
        admission c.rx n.rx.packetFilter q t = .duplicate ∨
      (c.dedupeEnabled = true → ¬ SeenCount r window n.tracked q.pathLen t) ∧
        admission c.rx n.rx.packetFilter q t = .checkedIn := by
  obtain ⟨digest, hdigest⟩ := hwritable.exists_packetHash c.rx.sha256
  have hkey : seenKey c.rx q = .ok (digest.take 8) := by
    rw [seenKey, hdigest]
    rfl
  have hdup : n.rx.packetFilter.isDuplicate (digest.take 8) t = true ↔
      SeenCount r window n.tracked q.pathLen t := by
    rw [hi.isDuplicate_iff ht]
    constructor
    · rintro ⟨e, he, hseen, hlt⟩
      obtain ⟨hcarries, hcount⟩ := hfree e he (hseen.trans hkey.symm)
      exact ⟨e, he, hcarries, hcount, hlt⟩
    · rintro ⟨e, he, hcarries, hcount, hlt⟩
      exact ⟨e, he, (hcarries.seenKey_eq hq hcount c.rx).trans hkey, hlt⟩
  have hadmission : admission c.rx n.rx.packetFilter q t =
      if c.dedupeEnabled && n.rx.packetFilter.isDuplicate (digest.take 8) t then .duplicate
      else .checkedIn := by
    unfold admission
    rw [hkey, isTransitDirectNotNextHop_trace hq.1]
    rfl
  have hboth : (c.dedupeEnabled && n.rx.packetFilter.isDuplicate (digest.take 8) t) = true ↔
      c.dedupeEnabled = true ∧ SeenCount r window n.tracked q.pathLen t := by
    rw [Bool.and_eq_true, hdup]
  by_cases hseen : c.dedupeEnabled = true ∧ SeenCount r window n.tracked q.pathLen t
  · rw [if_pos (hboth.mpr hseen)] at hadmission
    exact .inl ⟨hseen.1, hseen.2, hadmission⟩
  · rw [if_neg (mt hboth.mp hseen)] at hadmission
    exact .inr ⟨not_and.mp hseen, hadmission⟩

theorem NetInv.resume_pending {k : ι} {i : ℕ} {t t' : ℚ} {consumed : Bool} {n' : Relay}
    {frame : Option Bytes} (horigin : IsTraceOrigin r origin)
    (hi : NetInv cfg r origin window net) (hheld : (net.node k).rx.held[i]? = some q)
    (hq : CarriesTrace r q) (hhop : r.hops[q.pathLen]? = some ((cfg k).selfKey.take r.width))
    (hfree : CollisionFree (cfg k).rx r (net.node k).tracked q)
    (hstep : relayStep (cfg k) (net.node k) (.resume i t t' consumed) = some (n', frame)) :
    n'.pending = (net.node k).pending ++ [appendSnr q] ↔
      ((cfg k).dedupeEnabled = true → ¬ SeenCount r window (net.node k).tracked q.pathLen t) := by
  obtain ⟨trail, f, rssi, snr, hcopy, rfl⟩ := hi.held k q (List.mem_of_getElem? hheld) hq
  have hroute := TraceCopy.followsRoute horigin hcopy
  have hcount : (received f rssi snr).pathLen = trail.length := hroute.pathLen_eq
  have hforward : buildClientRepeatForward (some (cfg k).selfKey) (received f rssi snr) =
      .ok (some (appendSnr (received f rssi snr))) :=
    (hroute.forward_iff horigin _).mpr ⟨hcount ▸ hhop, rfl⟩
  have hflood : (appendSnr (received f rssi snr)).isRouteFlood = false := by
    by_contra hflood
    have hdirect : (appendSnr (received f rssi snr)).isRouteDirect = true := hroute.direct horigin
    rw [isRouteDirect_of_isRouteFlood (Bool.not_eq_false _ ▸ hflood)] at hdirect
    cases hdirect
  cases relayStep_cases hstep with
  | resumed hheld' hrx =>
    obtain rfl := Option.some.inj (hheld.symm.trans hheld')
    have ht : (net.node k).rx.clock ≤ t := by
      simp only [rxStep, hheld] at hrx
      exact (Option.ite_none_right_eq_some.mp hrx).1.1
    have hwf := received_wellFormed hroute.wellFormed rssi snr
    rcases (hi.table k).admission_trace hq hwf.toWritable hfree ht with
      ⟨hdedupe, hseen, hadm⟩ | ⟨hfresh, hadm⟩
    · refine iff_of_false ?_ fun h => h hdedupe hseen
      rw [hadm]
      simp [forwardOf]
    · refine iff_of_true ?_ hfresh
      have hforwardOf : forwardOf (cfg k).rx .checkedIn (received f rssi snr) consumed =
          some (appendSnr (received f rssi snr)) := by
        unfold forwardOf RelayConfig.rx
        dsimp only
        rw [hforward]
        dsimp only
        rw [hflood]
        rfl
      rw [hadm, hforwardOf]
      rfl

theorem NetInv.sent_count {k : ι} {e : Tracked} (horigin : IsTraceOrigin r origin)
    (hi : NetInv cfg r origin window net) (he : e ∈ (net.node k).tracked) (hsent : e.sent = true)
    (hcarries : CarriesTrace r e.pkt) :
    e.pkt = origin ∧ e.pkt.pathLen = 0 ∨ ∃ i, e.pkt.pathLen = i + 1 ∧
      r.hops[i]? = some ((cfg k).selfKey.take r.width) := by
  rcases hi.sent k e he hsent hcarries with heq | ⟨trail, snr, hcopy⟩
  · exact .inl ⟨heq, heq ▸ horigin.pathLen_eq⟩
  · have hroute := TraceCopy.followsRoute horigin hcopy
    have hlength : (trail ++ [(k, snr)]).length = trail.length + 1 := by simp
    refine .inr ⟨trail.length, hroute.pathLen_eq.trans hlength, ?_⟩
    have hlast := congrArg (fun l => l[trail.length]?) hroute.hops_eq
    rw [hlength] at hlast
    simpa [List.getElem?_take, List.getElem?_append_right] using hlast.symm

variable [DecidableEq ι]

section Move

variable {k : ι} {a : RelayAction} {n : Relay} {frame : Option Bytes}

def TraceNet.put (net : TraceNet ι) (k : ι) (n : Relay) (frame : Option Bytes) : TraceNet ι where
  node := Function.update net.node k n
  air := net.air ++ frame.toList

theorem TraceNet.node_put_self (net : TraceNet ι) (k : ι) (n : Relay) (frame : Option Bytes) :
    (net.put k n frame).node k = n := by
  simp only [TraceNet.put, Function.update_self]

theorem TraceNet.node_put_of_ne {j : ι} (hj : j ≠ k) :
    (net.put k n frame).node j = net.node j := by
  simp only [TraceNet.put, Function.update_of_ne hj]

theorem RelayMove.sentBy (hmove : RelayMove (cfg k) (net.node k) a n frame) (j : ι) (f : Packet)
    (h : net.SentBy j f) : (net.put k n frame).SentBy j f := by
  obtain ⟨t, ht⟩ := h
  refine ⟨t, ?_⟩
  by_cases hj : j = k
  · subst hj
    rw [TraceNet.node_put_self]
    exact hmove.tracked_mono ht
  · rwa [TraceNet.node_put_of_ne hj]

theorem TraceNet.Copy.put {trail : List (ι × ℚ)}
    (h : net.Copy cfg origin trail f) (hmove : RelayMove (cfg k) (net.node k) a n frame) :
    (net.put k n frame).Copy cfg origin trail f :=
  TraceCopy.mono hmove.sentBy h

theorem NetInv.copy_of_sends (horigin : IsTraceOrigin r origin)
    (hi : NetInv cfg r origin window net) (hmove : RelayMove (cfg k) (net.node k) a n frame)
    (htransmit : ∀ p t, a = .transmit p t → CarriesTrace r p → p = origin)
    (hsends : RelayMove.Sends (cfg k) (net.node k) a p) (hp : CarriesTrace r p)
    (hsent : (net.put k n frame).SentBy k p) :
    p = origin ∨ ∃ trail snr, (net.put k n frame).Copy cfg origin (trail ++ [(k, snr)]) p := by
  rcases hsends with ⟨f, hf, hout⟩ | ⟨t, rfl⟩
  · obtain ⟨q, hforward, hmade⟩ := hi.pending k f hf
    obtain rfl := Option.some.inj ((outgoing_forward hforward _ _).symm.trans hout)
    obtain ⟨trail, p', rssi, snr, hcopy, rfl⟩ := hmade hp
    have hwf := (TraceCopy.followsRoute horigin hcopy).wellFormed
    exact .inr ⟨trail, snr, .forward (hcopy.put hmove)
      (writeTo_eq_ok.mpr ⟨hwf.toWritable, rfl⟩) (readFrom_encode {} hwf) hforward hsent⟩
  · exact .inl (htransmit p t rfl hp)

theorem NetInv.move (horigin : IsTraceOrigin r origin) (hi : NetInv cfg r origin window net)
    (hmove : RelayMove (cfg k) (net.node k) a n frame)
    (hreceive : ∀ data rssi snr t t', a = .receive data rssi snr t t' →
      data ∈ net.air ∨ ∀ q, readFrom {} data = .ok q → ¬ CarriesTrace r q)
    (htransmit : ∀ p t, a = .transmit p t → CarriesTrace r p → p = origin) :
    NetInv cfg r origin window (net.put k n frame) where
  table := by
    intro j
    by_cases hj : j = k
    · subst hj
      rw [TraceNet.node_put_self]
      exact (hi.table j).move hmove
    · rw [TraceNet.node_put_of_ne hj]
      exact hi.table j
  air := by
    intro d hd q hread hq
    rcases List.mem_append.mp hd with hd | hd
    · obtain ⟨trail, f, hcopy, hencode⟩ := hi.air d hd q hread hq
      exact ⟨trail, f, hcopy.put hmove, hencode⟩
    · obtain rfl := Option.mem_toList.mp hd
      obtain ⟨p, t, hwrite, hmem, hsends⟩ := hmove.writes
      have hsent : (net.put k n (some d)).SentBy k p := ⟨t, by rwa [TraceNet.node_put_self]⟩
      have hencode : p.encode = d := (writeTo_eq_ok.mp hwrite).2
      rcases hi.copy_of_sends horigin hmove htransmit hsends (.of_frame hwrite hread hq) hsent
        with rfl | ⟨trail, snr, hcopy⟩
      · exact ⟨[], p, .origin, hencode⟩
      · exact ⟨_, p, hcopy, hencode⟩
  held := by
    intro j q hmem hq
    have hold : q ∈ (net.node j).rx.held → ∃ trail f rssi snr,
        (net.put k n frame).Copy cfg origin trail f ∧ q = received f rssi snr := by
      intro hmem
      obtain ⟨trail, f, rssi, snr, hcopy, heq⟩ := hi.held j q hmem hq
      exact ⟨trail, f, rssi, snr, hcopy.put hmove, heq⟩
    by_cases hj : j = k
    · subst hj
      rw [TraceNet.node_put_self] at hmem
      rcases hmove.held q hmem with hmem | ⟨data, rssi, snr, t, t', pkt, hdata, hread, rfl⟩
      · exact hold hmem
      · rcases hreceive data rssi snr t t' hdata with hair | hforeign
        · obtain ⟨trail, f, hcopy, rfl⟩ := hi.air data hair pkt hread hq
          have hwf := (TraceCopy.followsRoute horigin hcopy).wellFormed
          obtain rfl := Except.ok.inj ((readFrom_encode {} hwf).symm.trans hread)
          exact ⟨trail, f, rssi, snr, hcopy.put hmove, rfl⟩
        · exact absurd hq (hforeign pkt hread)
    · rw [TraceNet.node_put_of_ne hj] at hmem
      exact hold hmem
  pending := by
    intro j f hmem
    have hold : f ∈ (net.node j).pending → ∃ q,
        buildClientRepeatForward (some (cfg j).selfKey) q = .ok (some f) ∧
          (CarriesTrace r f → ∃ trail p rssi snr, (net.put k n frame).Copy cfg origin trail p ∧
            q = received p rssi snr) := by
      intro hmem
      obtain ⟨q, hforward, hmade⟩ := hi.pending j f hmem
      refine ⟨q, hforward, fun hf => ?_⟩
      obtain ⟨trail, p, rssi, snr, hcopy, heq⟩ := hmade hf
      exact ⟨trail, p, rssi, snr, hcopy.put hmove, heq⟩
    by_cases hj : j = k
    · subst hj
      rw [TraceNet.node_put_self] at hmem
      rcases hmove.pending f hmem with hmem | ⟨q, hheld, hforward⟩
      · exact hold hmem
      · refine ⟨q, hforward, fun hf => ?_⟩
        obtain ⟨trail, p, rssi, snr, hcopy, heq⟩ := hi.held j q hheld (.of_forward hforward hf)
        exact ⟨trail, p, rssi, snr, hcopy.put hmove, heq⟩
    · rw [TraceNet.node_put_of_ne hj] at hmem
      exact hold hmem
  sent := by
    intro j e hmem hsent he
    have hold : e ∈ (net.node j).tracked → e.pkt = origin ∨
        ∃ trail snr, (net.put k n frame).Copy cfg origin (trail ++ [(j, snr)]) e.pkt := by
      intro hmem
      rcases hi.sent j e hmem hsent he with heq | ⟨trail, snr, hcopy⟩
      · exact .inl heq
      · exact .inr ⟨trail, snr, hcopy.put hmove⟩
    by_cases hj : j = k
    · subst hj
      have hby : (net.put j n frame).SentBy j e.pkt := by
        refine ⟨e.time, ?_⟩
        rw [← hsent]
        exact hmem
      rw [TraceNet.node_put_self] at hmem
      rcases hmove.tracked hmem hsent with hmem | hsends
      · exact hold hmem
      · exact hi.copy_of_sends horigin hmove htransmit hsends he hby
    · rw [TraceNet.node_put_of_ne hj] at hmem
      exact hold hmem

end Move

theorem NetInv.step {b : NetAction ι} (horigin : IsTraceOrigin r origin)
    (hi : NetInv cfg r origin window net) (hb : b.Foreign r origin)
    (h : netStep cfg net b = some net') : NetInv cfg r origin window net' := by
  cases netStep_cases h with
  | @hear k index rssi snr t t' d n hair hmove =>
    have hput : (⟨Function.update net.node k n, net.air⟩ : TraceNet ι) = net.put k n none := by
      rw [TraceNet.put, Option.toList_none, List.append_nil]
    rw [hput]
    refine hi.move horigin hmove ?_ ?_
    · intro data rssi' snr' s s' heq
      obtain ⟨rfl, -⟩ := RelayAction.receive.inj heq
      exact .inl hair
    · intro p t heq
      cases heq
  | @act k a n frame hmove =>
    refine hi.move horigin hmove ?_ ?_
    · rintro data rssi snr t t' rfl
      exact .inr hb
    · rintro p t rfl
      exact hb

theorem NetInv.run {actions : List (NetAction ι)} {clock : ℚ} (horigin : IsTraceOrigin r origin)
    (hforeign : ∀ b ∈ actions, b.Foreign r origin)
    (h : netRun cfg (TraceNet.init clock window) actions = some net) :
    NetInv cfg r origin window net :=
  Machine.run_invariant_of_mem (fun _ b hb _ hi hs => hi.step horigin (hforeign b hb) hs)
    (.init clock) h

/-- In every run the frames with the payload of a TRACE are copies of it, which follow the route
with the SNRs that the nodes of their trail measured; the next hop forwards every copy but those
with as many SNRs as one that it marked seen less than a window ago. -/
theorem trace_visits_hops (cfg : ι → RelayConfig Seed) {actions : List (NetAction ι)} {clock : ℚ}
    (horigin : IsTraceOrigin r origin) (hforeign : ∀ b ∈ actions, b.Foreign r origin)
    (hrun : netRun cfg (TraceNet.init clock window) actions = some net) :
    (∀ d ∈ net.air, ∀ q, readFrom {} d = .ok q → CarriesTrace r q →
      ∃ trail f, net.Copy cfg origin trail f ∧ f.encode = d) ∧
    (∀ trail f, net.Copy cfg origin trail f →
      FollowsRoute r (fun k => (cfg k).selfKey) origin trail f ∧
      (∀ k rssi snr, (∃ f', buildClientRepeatForward (some (cfg k).selfKey)
          (received f rssi snr) = .ok (some f')) ↔
        r.hops[trail.length]? = some ((cfg k).selfKey.take r.width)) ∧
      ∀ rssi snr, TraceHandler.completes (received f rssi snr) = true ↔
        trail.length = r.hops.length) ∧
    (∀ k i q t t' consumed n' frame, (net.node k).rx.held[i]? = some q → CarriesTrace r q →
      r.hops[q.pathLen]? = some ((cfg k).selfKey.take r.width) →
      CollisionFree (cfg k).rx r (net.node k).tracked q →
      relayStep (cfg k) (net.node k) (.resume i t t' consumed) = some (n', frame) →
      (n'.pending = (net.node k).pending ++ [appendSnr q] ↔
        ((cfg k).dedupeEnabled = true → ¬ SeenCount r window (net.node k).tracked q.pathLen t))) ∧
    (∀ k, ∀ e ∈ (net.node k).tracked, e.sent = true → CarriesTrace r e.pkt →
      e.pkt = origin ∧ e.pkt.pathLen = 0 ∨
        ∃ i, e.pkt.pathLen = i + 1 ∧ r.hops[i]? = some ((cfg k).selfKey.take r.width)) := by
  have hi : NetInv cfg r origin window net := .run horigin hforeign hrun
  refine ⟨hi.air, ?_, ?_, ?_⟩
  · intro trail f hcopy
    have hroute := TraceCopy.followsRoute horigin hcopy
    refine ⟨hroute, fun k rssi snr => ?_, hroute.completes_iff⟩
    constructor
    · rintro ⟨f', hforward⟩
      exact ((hroute.forward_iff horigin _).mp hforward).1
    · intro hhop
      exact ⟨_, (hroute.forward_iff horigin _).mpr ⟨hhop, rfl⟩⟩
  · intro k i q t t' consumed n' frame hheld hq hhop hfree hstep
    exact hi.resume_pending horigin hheld hq hhop hfree hstep
  · intro k e he hsent hcarries
    exact hi.sent_count horigin he hsent hcarries

def traceOver (r : TraceRoute) : Packet :=
  { header := 0x26, payload := r.payload, payloadLen := r.payload.length }

theorem traceOver_isTraceOrigin (r : TraceRoute) : IsTraceOrigin r (traceOver r) where
  wellFormed := by
    have hsize : r.payload.length ≤ maxPacketPayload := r.length_payload.trans_le r.size_le
    have hcodes : (traceOver r).hasTransportCodes = false := by
      simp [traceOver, hasTransportCodes, getRouteType]
    refine ⟨⟨?_, rfl, hsize, ?_, ?_, ?_⟩, ?_, fun _ => rfl, ?_⟩
    · simp [traceOver, Packet.getPathByteLen, PathUtils.getPathByteLen]
    · simp [traceOver]
    · rw [hcodes]
      intro hfalse
      cases hfalse
    · simp [traceOver]
    · simp [traceOver, getPayloadVer]
    · simp [traceOver, isValidPathLen]
  direct := by simp [traceOver, isRouteDirect, getRouteType]
  type_eq := by simp [traceOver, getPayloadType]
  payload_eq := rfl
  pathLen_eq := rfl

/-- Two nodes, whose keys begin with 7 and with 9. -/
def twoRelays (k : Bool) : RelayConfig Bytes :=
  { crypto := xorCrypto, selfKey := List.replicate 32 (if k then 7 else 9) }

def thereAndBack : TraceRoute where
  tags := List.replicate 8 0
  flags := 0
  hops := [[7], [9], [7]]
  length_tags := rfl
  uniform := by decide
  count_pos := by decide
  count_le := by decide
  size_le := by decide

/-- The second node sends the TRACE, the first forwards it, and the second forwards it back. -/
def thereAndBackRun : List (NetAction Bool) :=
  [.act false (.transmit (traceOver thereAndBack) 0), .hear true 0 0 2 1 1,
    .act true (.resume 0 1 1 false), .act true (.retransmit 0 2), .hear false 1 0 3 3 3,
    .act false (.resume 0 3 3 false), .act false (.retransmit 0 4), .hear true 2 0 5 5 5]

/-- The first node gets its second turn. -/
theorem trace_visits_hops_there_and_back :
    ∃ net q n' frame, netRun twoRelays (TraceNet.init 0 30) thereAndBackRun = some net ∧
      (net.node true).rx.held[0]? = some q ∧ q.path = [8, 12] ∧
      relayStep (twoRelays true) (net.node true) (.resume 0 6 6 false) = some (n', frame) ∧
      n'.pending = (net.node true).pending ++ [appendSnr q] := by
  let q := received { traceOver thereAndBack with path := [8, 12], pathLen := 2 } 0 5
  let heard := received (traceOver thereAndBack) 0 2
  have hend : (netRun twoRelays (TraceNet.init 0 30) thereAndBackRun).map
      (fun net => ((net.node true).rx.held, (net.node true).tracked)) =
      some ([q], [⟨heard, 1, false⟩, ⟨appendSnr heard, 2, true⟩]) := by decide +kernel
  have hresumes : (netRun twoRelays (TraceNet.init 0 30) thereAndBackRun).map
      (fun net => (relayStep (twoRelays true) (net.node true) (.resume 0 6 6 false)).isSome) =
      some true := by decide +kernel
  obtain ⟨net, hnet, hview⟩ := Option.map_eq_some_iff.mp hend
  rw [hnet] at hresumes
  obtain ⟨⟨n', frame⟩, hstep⟩ := Option.isSome_iff_exists.mp (Option.some.inj hresumes)
  obtain ⟨hheld, htracked⟩ := Prod.mk.inj hview
  have hmem : (net.node true).rx.held[0]? = some q := by
    rw [hheld]
    rfl
  have hforeign : ∀ b ∈ thereAndBackRun, b.Foreign thereAndBack (traceOver thereAndBack) := by
    simp [thereAndBackRun, NetAction.Foreign]
  obtain ⟨-, -, hturn, -⟩ := trace_visits_hops twoRelays
    (traceOver_isTraceOrigin thereAndBack) hforeign hnet
  refine ⟨net, q, n', frame, hnet, hmem, rfl, hstep, ?_⟩
  refine (hturn true 0 q 6 6 false n' frame hmem (by decide) (by decide) ?_ hstep).mpr ?_
  · rw [htracked]
    decide +kernel
  · rw [htracked]
    decide +kernel

def twiceInARow : TraceRoute where
  tags := List.replicate 8 0
  flags := 0
  hops := [[7], [7]]
  length_tags := rfl
  uniform := by decide
  count_pos := by decide
  count_le := by decide
  size_le := by decide

/-- The first node forwards the TRACE and hears its own copy. -/
def twiceInARowRun : List (NetAction Bool) :=
  [.act false (.transmit (traceOver twiceInARow) 0), .hear true 0 0 2 1 1,
    .act true (.resume 0 1 1 false), .act true (.retransmit 0 2), .hear true 1 0 3 3 3]

/-- A node that is listed twice in a row is stopped at its second turn: the copy that it sent
itself is a duplicate to it. -/
theorem repeated_hop_blocked :
    ∃ net q n' frame, netRun twoRelays (TraceNet.init 0 30) twiceInARowRun = some net ∧
      (net.node true).rx.held[0]? = some q ∧ CarriesTrace twiceInARow q ∧
      twiceInARow.hops[q.pathLen]? = some ((twoRelays true).selfKey.take twiceInARow.width) ∧
      CollisionFree (twoRelays true).rx twiceInARow (net.node true).tracked q ∧
      relayStep (twoRelays true) (net.node true) (.resume 0 4 4 false) = some (n', frame) ∧
      n'.pending = [] := by
  let heard := received (traceOver twiceInARow) 0 2
  let q := received (appendSnr heard) 0 3
  have hend : (netRun twoRelays (TraceNet.init 0 30) twiceInARowRun).map
      (fun net => ((net.node true).rx.held, (net.node true).tracked)) =
      some ([q], [⟨heard, 1, false⟩, ⟨appendSnr heard, 2, true⟩]) := by decide +kernel
  have hresumes : (netRun twoRelays (TraceNet.init 0 30) twiceInARowRun).bind
      (fun net => (relayStep (twoRelays true) (net.node true) (.resume 0 4 4 false)).map
        fun m => m.1.pending) = some [] := by decide +kernel
  obtain ⟨net, hnet, hview⟩ := Option.map_eq_some_iff.mp hend
  obtain ⟨hheld, htracked⟩ := Prod.mk.inj hview
  rw [hnet] at hresumes
  obtain ⟨⟨n', frame⟩, hstep, hpending⟩ := Option.map_eq_some_iff.mp hresumes
  refine ⟨net, q, n', frame, hnet, ?_, by decide, by decide, ?_, hstep, hpending⟩
  · rw [hheld]
    rfl
  · rw [htracked]
    decide +kernel

end Runs

end OpenHop.Dispatcher
