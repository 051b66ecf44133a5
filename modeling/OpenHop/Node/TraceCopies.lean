import OpenHop.Node.TraceForward

/-! # The copies of a TRACE

The payload of a TRACE lists the hashes of the hops it is to visit, all of one width, and
each node that finds its own hash at the position given by the number of SNRs in the path
forwards a copy with one SNR more.
-/

namespace OpenHop

def PathUtils.tracePayloadHashWidth (flags : UInt8) : ℕ := 1 <<< (flags.toNat &&& 0x03)

namespace TraceHandler

/-- What the handler reads off the payload. -/
structure TraceData where
  tag : ℕ
  authCode : ℕ
  flags : UInt8
  tracePathBytes : Bytes
  pathHashWidth : ℕ
  traceHops : List Bytes
  tracePath : List UInt8
  pathLength : ℕ
  pathHopCount : ℕ
  tracePathRemainder : ℕ

def parseTracePayload (payload : Bytes) : Option TraceData :=
  match payload[8]? with
  | none => none
  | some flags =>
    let tracePathBytes := payload.drop 9
    let pathHashWidth := PathUtils.tracePayloadHashWidth flags
    let traceHops :=
      Bytes.cut pathHashWidth (tracePathBytes.length / pathHashWidth) tracePathBytes
    some {
      tag := Bytes.toNatLE (payload.take 4)
      authCode := Bytes.toNatLE (Packet.slice payload 4 8)
      flags := flags
      tracePathBytes := tracePathBytes
      pathHashWidth := pathHashWidth
      traceHops := traceHops
      tracePath := traceHops.filterMap List.head?
      pathLength := tracePathBytes.length
      pathHopCount := traceHops.length
      tracePathRemainder := tracePathBytes.length % pathHashWidth }

def isTraceComplete (pkt : Packet) (traceBytes : Bytes) (hashWidth : ℕ) : Bool :=
  if traceBytes = [] ∨ hashWidth ≤ 0 then false
  else decide (pkt.path.length * hashWidth ≥ traceBytes.length)

/-- Whether the handler reports the TRACE as complete. -/
def completes (pkt : Packet) : Bool :=
  match parseTracePayload pkt.payload with
  | none => isTraceComplete pkt [] 0
  | some data => isTraceComplete pkt data.tracePathBytes data.pathHashWidth

end TraceHandler

open PathUtils Packet

/-- The payload of a TRACE: eight bytes for tag and authorization code, the flags with the width
of the hashes, and the hashes of the hops. -/
structure TraceRoute where
  tags : Bytes
  flags : UInt8
  hops : List Bytes
  length_tags : tags.length = 8
  uniform : ∀ h ∈ hops, h.length = tracePayloadHashWidth flags
  count_pos : 0 < hops.length
  count_le : hops.length ≤ 63
  size_le : 9 + hops.length * tracePayloadHashWidth flags ≤ maxPacketPayload

namespace TraceRoute

variable (r : TraceRoute)

def width : ℕ := tracePayloadHashWidth r.flags

def payload : Bytes := r.tags ++ r.flags :: r.hops.flatten

theorem width_pos : 0 < r.width := by
  rw [width, tracePayloadHashWidth, Nat.shiftLeft_eq, Nat.one_mul]
  exact Nat.two_pow_pos _

theorem length_flatten : r.hops.flatten.length = r.hops.length * r.width :=
  Bytes.length_flatten_of_uniform r.uniform

theorem length_payload : r.payload.length = 9 + r.hops.length * r.width := by
  rw [payload, List.length_append, List.length_cons, r.length_flatten, r.length_tags]
  omega

theorem payload_flags : r.payload[8]? = some r.flags := by
  rw [payload, List.getElem?_append_right r.length_tags.le, r.length_tags]
  rfl

theorem payload_drop : r.payload.drop 9 = r.hops.flatten := by
  have hsplit : r.payload = (r.tags ++ [r.flags]) ++ r.hops.flatten := by simp [payload]
  rw [hsplit, List.drop_left' (by simp [r.length_tags])]

theorem payload_slice {i : ℕ} {h : Bytes} (hi : r.hops[i]? = some h) :
    slice r.payload (9 + i * r.width) (9 + i * r.width + r.width) = h := by
  obtain ⟨hlt, rfl⟩ := List.getElem?_eq_some_iff.mp hi
  have hlen : r.hops[i].length = r.width := r.uniform _ (List.getElem_mem hlt)
  have hbefore : (r.hops.take i).flatten.length = i * r.width := by
    rw [Bytes.length_flatten_of_uniform fun h hh => r.uniform h (List.mem_of_mem_take hh),
      List.length_take_of_le hlt.le]
    rfl
  have hsplit : r.hops.flatten =
      (r.hops.take i).flatten ++ (r.hops[i] ++ (r.hops.drop (i + 1)).flatten) := by
    rw [← List.flatten_cons, List.getElem_cons_drop, ← List.flatten_append, List.take_append_drop]
  rw [slice_add, ← List.drop_drop, r.payload_drop, hsplit, List.drop_left' hbefore,
    List.take_left' hlen]

end TraceRoute

namespace Dispatcher

variable {r : TraceRoute} {p f : Packet} {selfKey : Bytes}

theorem exists_isTraceHop_iff (hpayload : p.payload = r.payload)
    (hlen : p.payloadLen = p.payload.length) :
    (∃ flags, IsTraceHop p selfKey flags) ↔
      r.hops[p.pathLen]? = some (selfKey.take r.width) := by
  have hshift : p.pathLen <<< (r.flags.toNat &&& 0x03) = p.pathLen * r.width := by
    rw [TraceRoute.width, tracePayloadHashWidth, Nat.shiftLeft_eq, Nat.shiftLeft_eq, Nat.one_mul]
  have hsize : p.payloadLen = 9 + r.hops.length * r.width := by
    rw [hlen, hpayload, r.length_payload]
  constructor
  · rintro ⟨flags, hflags, -, hoffset, hhash⟩
    rw [hpayload, r.payload_flags] at hflags
    obtain rfl := Option.some.inj hflags
    rw [hshift, hsize, Nat.add_sub_cancel_left] at hoffset
    have hlt : p.pathLen < r.hops.length := Nat.lt_of_mul_lt_mul_right hoffset
    have hget : r.hops[p.pathLen]? = some r.hops[p.pathLen] := List.getElem?_eq_getElem hlt
    rw [hshift, hpayload] at hhash
    rw [hget, ← r.payload_slice hget]
    exact congrArg some hhash
  · intro hget
    have hlt : p.pathLen < r.hops.length := (List.getElem?_eq_some_iff.mp hget).1
    refine ⟨r.flags, ?_, ?_, ?_, ?_⟩
    · rw [hpayload, r.payload_flags]
    · omega
    · rw [hshift, hsize, Nat.add_sub_cancel_left]
      exact Nat.mul_lt_mul_of_pos_right hlt r.width_pos
    · rw [hshift, hpayload]
      exact r.payload_slice hget

/-- A direct TRACE over the hops of `r` as its originator sends it. -/
structure IsTraceOrigin (r : TraceRoute) (p : Packet) : Prop where
  wellFormed : WellFormed p
  direct : p.isRouteDirect = true
  type_eq : p.getPayloadType = payloadTypeTrace
  payload_eq : p.payload = r.payload
  pathLen_eq : p.pathLen = 0

/-- What client-repeat forwarding makes of a TRACE: each node of the trail read the copy before
off the air, with the SNR it measured, and transmitted its forward of it. -/
inductive TraceCopy {ι : Type} (selfKey : ι → Bytes) (sentBy : ι → Packet → Prop)
    (origin : Packet) : List (ι × ℚ) → Packet → Prop where
  | origin : TraceCopy selfKey sentBy origin [] origin
  | forward {trail : List (ι × ℚ)} {p q f : Packet} {d : Bytes} {k : ι} {rssi : ℤ} {snr : ℚ}
      (hcopy : TraceCopy selfKey sentBy origin trail p) (hwrite : p.writeTo = .ok d)
      (hread : readFrom {} d = .ok q)
      (hforward : buildClientRepeatForward (some (selfKey k)) { q with rssi := rssi, snr := snr } =
        .ok (some f))
      (hsent : sentBy k f) :
      TraceCopy selfKey sentBy origin (trail ++ [(k, snr)]) f

/-- A packet as a node receives it from the air. -/
def received (f : Packet) (rssi : ℤ) (snr : ℚ) : Packet :=
  { receive {} f with rssi := rssi, snr := snr }

theorem received_wellFormed (h : WellFormed f) (rssi : ℤ) (snr : ℚ) :
    WellFormed (received f rssi snr) :=
  h.of_wire rfl rfl rfl rfl rfl rfl

/-- A direct TRACE is forwarded by the node that its count points to, if it counts at most the
hops. -/
theorem buildClientRepeatForward_trace (hp : WellFormed p) (hdirect : p.isRouteDirect = true)
    (htype : p.getPayloadType = payloadTypeTrace) (hpayload : p.payload = r.payload)
    (hcount : p.pathLen ≤ r.hops.length) :
    buildClientRepeatForward (some selfKey) p = .ok (some f) ↔
      r.hops[p.pathLen]? = some (selfKey.take r.width) ∧ appendSnr p = f := by
  have hlt : p.pathLen < 64 := by
    have := r.count_le
    omega
  have hbuild : buildClientRepeatForward (some selfKey) p = buildTraceForward p selfKey := by
    simp [buildClientRepeatForward, hdirect, htype]
  rw [hbuild, buildTraceForward_eq_some (path_length_of_lt hp hlt),
    exists_isTraceHop_iff hpayload hp.payload_length]
  exact and_iff_right hlt

variable {ι : Type} {key : ι → Bytes} {origin : Packet} {trail : List (ι × ℚ)}

/-- What holds of a copy with a trail: the trail is the listed hops as far as it goes, the path
is what its nodes measured, and everything else is as it was sent. -/
structure FollowsRoute (r : TraceRoute) (key : ι → Bytes) (origin : Packet)
    (trail : List (ι × ℚ)) (f : Packet) : Prop where
  wellFormed : WellFormed f
  header_eq : f.header = origin.header
  codes_eq : f.transportCodes = origin.transportCodes
  payload_eq : f.payload = r.payload
  pathLen_eq : f.pathLen = trail.length
  path_eq : f.path = trail.map fun hop => snrByte hop.2
  hops_eq : trail.map (fun hop => (key hop.1).take r.width) = r.hops.take trail.length
  length_le : trail.length ≤ r.hops.length

theorem IsTraceOrigin.followsRoute (h : IsTraceOrigin r origin) (key : ι → Bytes) :
    FollowsRoute r key origin [] origin where
  wellFormed := h.wellFormed
  header_eq := rfl
  codes_eq := rfl
  payload_eq := h.payload_eq
  pathLen_eq := h.pathLen_eq
  path_eq := by
    have hlen := h.wellFormed.path_length
    rw [Packet.getPathByteLen, h.pathLen_eq] at hlen
    exact List.length_eq_zero_iff.mp hlen.symm
  hops_eq := rfl
  length_le := Nat.zero_le _

namespace FollowsRoute

theorem direct (h : FollowsRoute r key origin trail f) (horigin : IsTraceOrigin r origin) :
    f.isRouteDirect = true := by
  have hdirect := horigin.direct
  simp only [Packet.isRouteDirect, Packet.getRouteType] at hdirect ⊢
  rwa [h.header_eq]

theorem type_eq (h : FollowsRoute r key origin trail f) (horigin : IsTraceOrigin r origin) :
    f.getPayloadType = payloadTypeTrace := by
  have htype := horigin.type_eq
  simp only [Packet.getPayloadType] at htype ⊢
  rwa [h.header_eq]

/-- A node forwards a copy that it received exactly if it is the hop after those of the trail. -/
theorem forward_iff {rssi : ℤ} {snr : ℚ} {f' : Packet} (h : FollowsRoute r key origin trail f)
    (horigin : IsTraceOrigin r origin) (selfKey : Bytes) :
    buildClientRepeatForward (some selfKey) (received f rssi snr) = .ok (some f') ↔
      r.hops[trail.length]? = some (selfKey.take r.width) ∧
        appendSnr (received f rssi snr) = f' := by
  have hcount : (received f rssi snr).pathLen = trail.length := h.pathLen_eq
  rw [buildClientRepeatForward_trace (received_wellFormed h.wellFormed rssi snr)
    (h.direct horigin) (h.type_eq horigin) h.payload_eq (hcount.trans_le h.length_le), hcount]

theorem appendSnr {k : ι} (rssi : ℤ) (snr : ℚ) (h : FollowsRoute r key origin trail f)
    (hhop : r.hops[trail.length]? = some ((key k).take r.width)) :
    FollowsRoute r key origin (trail ++ [(k, snr)]) (appendSnr (received f rssi snr)) := by
  obtain ⟨hlt, hget⟩ := List.getElem?_eq_some_iff.mp hhop
  have hwf := received_wellFormed h.wellFormed rssi snr
  have hcount : (received f rssi snr).pathLen = trail.length := h.pathLen_eq
  have hroom : (received f rssi snr).pathLen < 63 := by
    have := r.count_le
    omega
  refine ⟨appendSnr_wellFormed hwf hroom, h.header_eq, h.codes_eq, ?_, ?_, ?_, ?_, ?_⟩
  · exact (appendSnr_payload hwf).trans h.payload_eq
  · rw [List.length_append]
    exact congrArg (· + 1) hcount
  · rw [List.map_append, ← h.path_eq]
    rfl
  · rw [List.map_append, h.hops_eq, List.length_append, List.length_singleton,
      List.take_add_one, hhop]
    rfl
  · rw [List.length_append, List.length_singleton]
    exact hlt

/-- The handler of a node that receives a copy takes it for complete exactly after the last hop. -/
theorem completes_iff (h : FollowsRoute r key origin trail f) (rssi : ℤ) (snr : ℚ) :
    TraceHandler.completes (received f rssi snr) = true ↔ trail.length = r.hops.length := by
  have hpath : (received f rssi snr).path.length = trail.length := by
    have hkept : (received f rssi snr).path = f.path := rfl
    rw [hkept, h.path_eq, List.length_map]
  have hpayload : (received f rssi snr).payload = r.payload := h.payload_eq
  have hparse : TraceHandler.completes (received f rssi snr) =
      TraceHandler.isTraceComplete (received f rssi snr) r.hops.flatten r.width := by
    unfold TraceHandler.completes TraceHandler.parseTracePayload
    rw [hpayload, r.payload_flags, r.payload_drop]
    rfl
  have hne : ¬ (r.hops.flatten = [] ∨ r.width ≤ 0) := by
    rintro (hnil | hzero)
    · have hlen := r.length_flatten
      rw [hnil, List.length_nil, eq_comm, Nat.mul_eq_zero] at hlen
      rcases hlen with hlen | hlen
      · exact absurd hlen r.count_pos.ne'
      · exact absurd hlen r.width_pos.ne'
    · exact absurd hzero (not_le.mpr r.width_pos)
  rw [hparse, TraceHandler.isTraceComplete, if_neg hne, decide_eq_true_eq, hpath,
    r.length_flatten, ge_iff_le, Nat.mul_le_mul_right_iff r.width_pos]
  exact ⟨fun hge => le_antisymm h.length_le hge, fun heq => heq.ge⟩

end FollowsRoute

variable {sentBy sentBy' : ι → Packet → Prop}

theorem TraceCopy.mono (hle : ∀ k f, sentBy k f → sentBy' k f)
    (h : TraceCopy key sentBy origin trail f) : TraceCopy key sentBy' origin trail f := by
  induction h with
  | origin => exact .origin
  | forward _ hwrite hread hforward hsent ih =>
    exact .forward ih hwrite hread hforward (hle _ _ hsent)

theorem TraceCopy.followsRoute (horigin : IsTraceOrigin r origin)
    (h : TraceCopy key sentBy origin trail f) : FollowsRoute r key origin trail f := by
  induction h with
  | origin => exact horigin.followsRoute key
  | @forward trail p q f d k rssi snr _ hwrite hread hforward _ ih =>
    obtain ⟨hwritable, rfl⟩ := writeTo_eq_ok.mp hwrite
    obtain rfl := Except.ok.inj ((readFrom_encode {} ih.wellFormed).symm.trans hread)
    obtain ⟨hhop, rfl⟩ := (ih.forward_iff horigin (key k)).mp hforward
    exact ih.appendSnr rssi snr hhop

end Dispatcher

end OpenHop
