import OpenHop.Node.AnonDiscovery
import OpenHop.Node.SendPacket

/-! # Packets injected by the app

The app may hand over a whole packet as it is to go on air. It is parsed, which leaves no
mark on it that its scope and its hash width are decided, and then takes the way of every
packet, where a flood may be scoped and a flood without hops be given another hash width.
-/

namespace OpenHop

open PathUtils

inductive RawPacketError where
  | illegalArg
  | sendFailed
  deriving DecidableEq

/-- A `SentResult`, as far as a raw packet sets it. -/
structure RawSent where
  success : Bool
  error : Option RawPacketError := none
  deriving DecidableEq

variable {Seed : Type} (c : Crypto Seed)

/-- What `send_raw_packet` returns, unless it is cancelled, with the sends it leads to. -/
def sendRawPacket (d : DispatcherConfig) (port : RadioPort) (behaviour : RadioBehaviour)
    (packetBytes : Bytes) (callbackRaises : Bool := false) : List SendCall × Option RawSent :=
  match Packet.readFrom {} packetBytes with
  | .error _ => ([], some { success := false, error := some .illegalArg })
  | .ok pkt =>
    let run := sendPacket c d port behaviour pkt none callbackRaises
    (run.calls, match run.outcome with
      | .returned true => some { success := true }
      | .returned false | .raised => some { success := false, error := some .sendFailed }
      | .cancelled => none)

/-- A packet without marks whose bytes are changed on the way to the radio. -/
inductive Rewritten (d : DispatcherConfig) (p : Packet) : Prop where
  /-- A plain flood is scoped. -/
  | scoped (hroute : p.getRouteType = routeTypeFlood) (hon : d.scope.floodUnscoped = false)
      (hkey : d.scope.sendKey.isSome = true)
  /-- A flood without hops has another hash width than the default. -/
  | widened {mode : Fin 3} (hmode : d.pathHashMode = some mode) (hflood : p.isRouteFlood = true)
      (hcount : p.getPathHashCount = 0) (hwidth : p.pathLen ≠ 64 * mode)

variable {c} {d : DispatcherConfig} {p q : Packet}

/-- What decides about the second change, after the first. -/
structure SameFlood (p q : Packet) : Prop where
  flood : q.isRouteFlood = p.isRouteFlood
  type : q.getPayloadType = p.getPayloadType
  pathLen : q.pathLen = p.pathLen
  path : q.path = p.path
  payload : q.payload = p.payload
  mark : q.pathHashModeApplied = p.pathHashModeApplied

theorem applyFloodScope_of_plain (hmark : p.floodScopeApplied = false)
    (h : ¬ (p.getRouteType = routeTypeFlood ∧ d.scope.floodUnscoped = false ∧
      d.scope.sendKey.isSome = true)) : d.scope.applyFloodScope c p = some p := by
  unfold FloodScope.applyFloodScope
  rw [if_neg (by simp [hmark])]
  split
  · rfl
  rename_i hroute
  split
  · rfl
  rename_i hon
  split
  · rfl
  · rename_i key hkey
    refine absurd ⟨not_not.mp hroute, by simpa using hon, ?_⟩ h
    rw [hkey]
    rfl

theorem applyFloodScope_of_scoped (hp : p.WellFormed) (hmark : p.floodScopeApplied = false)
    (hroute : p.getRouteType = routeTypeFlood) (hon : d.scope.floodUnscoped = false)
    (hkey : d.scope.sendKey.isSome = true) :
    ∃ q, d.scope.applyFloodScope c p = some q ∧ q.WellFormed ∧ q.header ≠ p.header ∧
      SameFlood p q := by
  obtain ⟨key, hkey⟩ := Option.isSome_iff_exists.mp hkey
  unfold FloodScope.applyFloodScope
  rw [if_neg (by simp [hmark]), if_neg (not_not.mpr hroute), if_neg (by simp [hon]), hkey]
  obtain ⟨q, hq, -, htype, hwell⟩ := scopePacket_spec (c := c) (FloodScope.length_sendKey hkey) hp
  refine ⟨q, hq, hwell, ?_, ?_⟩
  · intro hsame
    have hrouteq := getRouteType_scopePacket hq
    rw [Packet.getRouteType, hsame] at hrouteq
    exact absurd (hrouteq.symm.trans hroute) (by decide)
  · have hrouteq := getRouteType_scopePacket hq
    obtain ⟨code, -, rfl⟩ := Option.map_eq_some_iff.mp hq
    refine ⟨?_, htype, rfl, rfl, rfl, rfl⟩
    rw [Packet.isRouteFlood, Packet.isRouteFlood, hrouteq, hroute]
    rfl

theorem applyDefaultPathHashMode_spec (hp : p.WellFormed) (hmark : p.pathHashModeApplied = false)
    (htrace : ¬ (p.isRouteFlood = true ∧ p.getPayloadType = payloadTypeTrace)) :
    ∃ q, d.applyDefaultPathHashMode p = .ok q ∧ q.WellFormed ∧ q.header = p.header ∧
      q.transportCodes = p.transportCodes ∧ q.path = p.path ∧ q.payload = p.payload ∧
      (q.pathLen = p.pathLen ↔ ¬ ∃ mode : Fin 3, d.pathHashMode = some mode ∧
        p.isRouteFlood = true ∧ p.getPathHashCount = 0 ∧ p.pathLen ≠ 64 * mode) := by
  unfold DispatcherConfig.applyDefaultPathHashMode
  split
  · rename_i hmode
    exact ⟨p, rfl, hp, rfl, rfl, rfl, rfl, by simp [hmode]⟩
  rename_i mode hmode
  split
  · rename_i hroute
    have hflood : p.isRouteFlood = false := by
      simp only [Packet.isRouteFlood, Bool.or_eq_false_iff, beq_eq_false_iff_ne]
      exact hroute.symm
    exact ⟨p, rfl, hp, rfl, rfl, rfl, rfl, by simp [hflood]⟩
  rename_i hroute
  have hflood : p.isRouteFlood = true := by
    simp only [Packet.isRouteFlood, Bool.or_eq_true, beq_iff_eq]
    tauto
  split
  · rename_i hcount
    exact ⟨p, rfl, hp, rfl, rfl, rfl, rfl, by simp [hcount]⟩
  rename_i hcount
  rw [if_neg (by simp [hmark])]
  have htype : p.getPayloadType ≠ payloadTypeTrace := fun htype => htrace ⟨hflood, htype⟩
  have happly : p.applyPathHashMode mode = .ok
      { p with
        pathLen := 64 * mode
        pathHashModeApplied := p.pathHashModeApplied || false } := by
    unfold Packet.applyPathHashMode
    rw [if_neg (by omega), if_neg htype, if_neg hcount, encodePathLen_of_le (Nat.zero_le 63)]
    rfl
  refine ⟨_, happly, (Packet.applyPathHashMode_wellFormed hp happly).1, rfl, rfl, rfl, rfl, ?_⟩
  have hcount : p.getPathHashCount = 0 := not_not.mp hcount
  constructor
  · rintro hsame ⟨mode', hmode', -, -, hwidth⟩
    cases hmode.symm.trans hmode'
    exact hwidth hsame.symm
  · intro hsame
    by_contra hwidth
    exact hsame ⟨mode, hmode, hflood, hcount, fun heq => hwidth heq.symm⟩

theorem encode_congr (hheader : q.header = p.header) (hcodes : q.transportCodes = p.transportCodes)
    (hpathLen : q.pathLen = p.pathLen) (hpath : q.path = p.path)
    (hpayload : q.payload = p.payload) : q.encode = p.encode := by
  cases p
  cases q
  dsimp only at hheader hcodes hpathLen hpath hpayload
  subst hheader hcodes hpathLen hpath hpayload
  rfl

/-- A packet without marks goes out as a well-formed one, with its own bytes exactly if nothing
rewrites it. -/
theorem wire_spec (hp : p.WellFormed) (hscope : p.floodScopeApplied = false)
    (hmode : p.pathHashModeApplied = false)
    (htrace : ¬ (p.isRouteFlood = true ∧ p.getPayloadType = payloadTypeTrace)) :
    ∃ raw, d.wire c p = some raw ∧ (raw = p.encode ↔ ¬ Rewritten d p) := by
  by_cases hscoped : p.getRouteType = routeTypeFlood ∧ d.scope.floodUnscoped = false ∧
      d.scope.sendKey.isSome = true
  · obtain ⟨r, hr, hwell, hheader, hsame⟩ :=
      applyFloodScope_of_scoped (c := c) hp hscope hscoped.1 hscoped.2.1 hscoped.2.2
    obtain ⟨q, hq, hqwell, hqheader, -⟩ := applyDefaultPathHashMode_spec (d := d) hwell
      (hsame.mark.trans hmode) (by rwa [hsame.flood, hsame.type])
    have hwrite := Packet.writeTo_eq_ok.mpr ⟨hqwell.toWritable, rfl⟩
    refine ⟨q.encode, ?_, iff_of_false (fun hbytes => hheader ?_) ?_⟩
    · simp [DispatcherConfig.wire, DispatcherConfig.outgoing, hr, hq, hwrite, Except.toOption]
    · rw [← hqheader]
      exact (Packet.pathLen_of_encode_eq hp.toWritable hqwell.toWritable hbytes).1
    · exact not_not.mpr (.scoped hscoped.1 hscoped.2.1 hscoped.2.2)
  · have hr := applyFloodScope_of_plain (c := c) hscope hscoped
    obtain ⟨q, hq, hqwell, hheader, hcodes, hpath, hpayload, hpathLen⟩ :=
      applyDefaultPathHashMode_spec (d := d) hp hmode htrace
    have hwrite := Packet.writeTo_eq_ok.mpr ⟨hqwell.toWritable, rfl⟩
    refine ⟨q.encode, ?_, ?_⟩
    · simp [DispatcherConfig.wire, DispatcherConfig.outgoing, hr, hq, hwrite, Except.toOption]
    have hbytes : q.encode = p.encode ↔ q.pathLen = p.pathLen := by
      constructor
      · exact fun h => (Packet.pathLen_of_encode_eq hp.toWritable hqwell.toWritable h).2
      · exact fun h => encode_congr hheader hcodes h hpath hpayload
    rw [hbytes, hpathLen]
    refine not_congr ⟨?_, ?_⟩
    · rintro ⟨mode, hset, hflood, hcount, hwidth⟩
      exact .widened hset hflood hcount hwidth
    · rintro (⟨hroute, hon, hkey⟩ | ⟨hset, hflood, hcount, hwidth⟩)
      · exact absurd ⟨hroute, hon, hkey⟩ hscoped
      · exact ⟨_, hset, hflood, hcount, hwidth⟩

/-- A packet of the app that is sent goes to the radio with the very bytes it was handed over with,
unless it is rewritten. -/
theorem sendRawPacket_verbatim_iff (c : Crypto Seed) (d : DispatcherConfig) (port : RadioPort)
    (behaviour : RadioBehaviour) (callbackRaises : Bool) {packetBytes : Bytes}
    (hread : Packet.readFrom {} packetBytes = .ok p)
    (htrace : ¬ (p.isRouteFlood = true ∧ p.getPayloadType = payloadTypeTrace))
    (hsends : (sendRawPacket c d port behaviour packetBytes callbackRaises).1 ≠ []) :
    (∀ call ∈ (sendRawPacket c d port behaviour packetBytes callbackRaises).1,
        call.data = packetBytes) ↔ ¬ Rewritten d p := by
  obtain ⟨hwell, rfl, hmarks⟩ := Packet.readFrom_sound hread
  have hscope : p.floodScopeApplied = false := by rw [hmarks]; rfl
  have hmode : p.pathHashModeApplied = false := by rw [hmarks]; rfl
  obtain ⟨raw, hraw, hbytes⟩ := wire_spec (c := c) (d := d) hwell hscope hmode htrace
  have hcalls : (sendRawPacket c d port behaviour p.encode callbackRaises).1 =
      (transmit port behaviour raw none).1 := by
    unfold sendRawPacket sendPacket
    rw [hread]
    dsimp only
    rw [if_neg htrace, hraw]
  rw [hcalls] at hsends ⊢
  rw [← hbytes]
  have hdata := (transmit_cases port behaviour raw none).data_eq
  constructor
  · intro hall
    obtain ⟨call, hcall⟩ := List.exists_mem_of_ne_nil _ hsends
    exact (hdata call hcall).symm.trans (hall call hcall)
  · exact fun hraw' call hcall => (hdata call hcall).trans hraw'

/-- A radio that reports every transmission. -/
def goodRadio : RadioBehaviour := fun _ _ _ => .metadata none

/-- A default scope and hashes of two bytes. -/
def scopedConfig : DispatcherConfig where
  scope := { defaultFloodTransportKey := some ⟨List.replicate 16 1, List.length_replicate⟩ }
  pathHashMode := some 1

/-- A direct packet passes with every setting in force. -/
theorem sendRawPacket_verbatim_direct :
    (sendRawPacket xorCrypto scopedConfig (.single false) goodRadio [0x0A, 1, 7, 9]).1.length = 1 ∧
      ∀ call ∈ (sendRawPacket xorCrypto scopedConfig (.single false) goodRadio [0x0A, 1, 7, 9]).1,
        call.data = [0x0A, 1, 7, 9] := by
  have hread : Packet.readFrom {} [0x0A, 1, 7, 9] =
      .ok { header := 0x0A, pathLen := 1, path := [7], payload := [9], payloadLen := 1 } := by
    decide
  refine ⟨by decide +kernel, (sendRawPacket_verbatim_iff xorCrypto scopedConfig (.single false)
    goodRadio false hread (by decide) (by decide +kernel)).mpr ?_⟩
  rintro (⟨hroute, -, -⟩ | ⟨-, hflood, -, -⟩)
  · exact absurd hroute (by decide)
  · exact absurd hflood (by decide)

/-- A plain flood is scoped, and one for which there is no scope gets two-byte hashes. -/
theorem not_sendRawPacket_verbatim_flood :
    (sendRawPacket xorCrypto scopedConfig (.single false) goodRadio [0x05, 0x40, 9]).1.map
        (·.data) = [[0x04, 1, 0, 0, 0, 0x40, 9]] ∧
    (sendRawPacket xorCrypto { pathHashMode := some 1 } (.single false) goodRadio
        [0x05, 0, 9]).1.map (·.data) = [[0x05, 0x40, 9]] := by
  decide +kernel

end OpenHop
