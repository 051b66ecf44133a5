import OpenHop.Data.Result
import OpenHop.Protocol.Packet

/-! # The wire format and its codec

`WellFormed` packets are those the reader can produce and `encode` is their
layout. The reader accepts exactly the layouts of well-formed packets and
restores every wire field; the writer returns the layout of any packet that
passes its own checks.
-/

namespace OpenHop.Packet

open PathUtils

def codeBytes (p : Packet) : Bytes :=
  if p.hasTransportCodes then Bytes.le 2 p.transportCodes.1 ++ Bytes.le 2 p.transportCodes.2
  else []

def encode (p : Packet) : Bytes :=
  UInt8.ofNat p.header :: (p.codeBytes ++ UInt8.ofNat p.pathLen :: (p.path ++ p.payload))

/-- What the checks of `writeTo` establish. -/
structure Writable (p : Packet) : Prop where
  path_length : p.getPathByteLen = p.path.length
  payload_length : p.payloadLen = p.payload.length
  payload_size : p.payloadLen ≤ maxPacketPayload
  header_lt : p.header < 256
  codes_lt : p.hasTransportCodes = true →
    p.transportCodes.1 < 256 ^ 2 ∧ p.transportCodes.2 < 256 ^ 2
  pathLen_lt : p.pathLen < 256

/-- A packet as it can come off the wire. -/
structure WellFormed (p : Packet) : Prop extends Writable p where
  version : p.getPayloadVer = 0
  no_codes : p.hasTransportCodes = false → p.transportCodes = (0, 0)
  valid : isValidPathLen p.pathLen = true

theorem WellFormed.of_wire {p q : Packet} (h : WellFormed p) (hheader : q.header = p.header)
    (hcodes : q.transportCodes = p.transportCodes) (hpathLen : q.pathLen = p.pathLen)
    (hpath : q.path = p.path) (hpayload : q.payload = p.payload)
    (hpayloadLen : q.payloadLen = p.payloadLen) : WellFormed q := by
  obtain ⟨⟨h₁, h₂, h₃, h₄, h₅, h₆⟩, h₇, h₈, h₉⟩ := h
  cases p
  cases q
  dsimp only at hheader hcodes hpathLen hpath hpayload hpayloadLen
  subst hheader hcodes hpathLen hpath hpayload hpayloadLen
  exact ⟨⟨h₁, h₂, h₃, h₄, h₅, h₆⟩, h₇, h₈, h₉⟩

theorem WellFormed.getPayload {p : Packet} (h : WellFormed p) : p.getPayload = p.payload := by
  rw [Packet.getPayload, h.payload_length, List.take_length]

theorem WellFormed.withPath {p : Packet} (h : WellFormed p) {path : Bytes} {encoded : ℕ}
    (hvalid : isValidPathLen encoded = true)
    (hlen : PathUtils.getPathByteLen encoded = path.length) :
    WellFormed { p with path := path, pathLen := encoded } :=
  ⟨⟨hlen, h.payload_length, h.payload_size, h.header_lt, h.codes_lt,
    (isValidPathLen_lt hvalid).trans (by decide)⟩, h.version, h.no_codes, hvalid⟩

theorem setPath_eq {p q : Packet} {path : Bytes} {encoded : Option ℕ}
    (h : p.setPath path encoded = .ok q) :
    ∃ pathLen, q = { p with path := path, pathLen := pathLen } := by
  unfold setPath at h
  split at h
  · cases h
    exact ⟨_, rfl⟩
  split at h
  · cases h
  · obtain ⟨pathLen, -, hq⟩ := bind_eq_ok.mp h
    cases hq
    exact ⟨pathLen, rfl⟩

theorem applyPathHashMode_eq {p q : Packet} {mode : ℕ} {mark : Bool}
    (h : p.applyPathHashMode mode mark = .ok q) :
    ∃ pathLen applied, q = { p with pathLen := pathLen, pathHashModeApplied := applied } := by
  unfold applyPathHashMode at h
  split at h
  · cases h
  split at h
  · cases h
    exact ⟨_, _, rfl⟩
  split at h
  · cases h
    exact ⟨_, _, rfl⟩
  · obtain ⟨pathLen, -, hq⟩ := bind_eq_ok.mp h
    cases hq
    exact ⟨pathLen, _, rfl⟩

theorem applyPathHashMode_wellFormed {p q : Packet} {mode : ℕ} {mark : Bool} (hp : WellFormed p)
    (h : p.applyPathHashMode mode mark = .ok q) :
    WellFormed q ∧ q.header = p.header ∧ q.payload = p.payload := by
  unfold applyPathHashMode at h
  split at h
  · cases h
  rename_i hmode
  split at h
  · cases h
    exact ⟨hp, rfl, rfl⟩
  split at h
  · cases h
    exact ⟨hp, rfl, rfl⟩
  · rename_i hcount
    rw [encodePathLen_of_le (Nat.zero_le 63)] at h
    cases h
    have hpath : p.path.length = 0 := by
      rw [← hp.path_length, getPathByteLen, getPathByteLen_eq]
      simp only [ne_eq, not_not, getPathHashCount] at hcount
      rw [hcount, Nat.zero_mul]
    have hvalid : isValidPathLen (64 * (mode + 1 - 1) + 0) = true :=
      (isValidPathLen_pack (Nat.succ_pos mode) (Nat.zero_le 63)).mpr ⟨by omega, by simp⟩
    refine ⟨⟨⟨?_, hp.payload_length, hp.payload_size, hp.header_lt, hp.codes_lt, ?_⟩, hp.version,
      hp.no_codes, hvalid⟩, rfl, rfl⟩
    · exact (getPathByteLen_pack (Nat.succ_pos mode) (Nat.zero_le 63)).trans
        ((Nat.zero_mul _).trans hpath.symm)
    · exact (isValidPathLen_lt hvalid).trans (by decide)

/-- The wire fields of `p` stored into `q`. -/
def receive (q p : Packet) : Packet :=
  { q.resetFrame with
    header := p.header
    transportCodes := p.transportCodes
    pathLen := p.pathLen
    path := p.path
    payload := p.payload
    payloadLen := p.payloadLen }

theorem length_codeBytes (p : Packet) :
    p.codeBytes.length = if p.hasTransportCodes then 4 else 0 := by
  unfold codeBytes
  split <;> simp_all

theorem length_encode {p : Packet} (h : Writable p) : p.encode.length = p.getRawLength := by
  simp only [encode, getRawLength, List.length_cons, List.length_append, length_codeBytes,
    h.path_length, h.payload_length]
  omega

theorem Writable.encode_inj {p q : Packet} (hp : Writable p) (hq : Writable q)
    (h : p.encode = q.encode) :
    p.header = q.header ∧ p.pathLen = q.pathLen ∧ p.path = q.path ∧ p.payload = q.payload := by
  have hbyte : ∀ {m n : ℕ}, m < 256 → n < 256 → UInt8.ofNat m = UInt8.ofNat n → m = n := by
    intro m n hm hn heq
    rw [← Bytes.toNat_ofNat_of_lt hm, heq, Bytes.toNat_ofNat_of_lt hn]
  obtain ⟨hheader, hrest⟩ := List.cons_eq_cons.mp h
  have hheader := hbyte hp.header_lt hq.header_lt hheader
  have hcodes : p.codeBytes.length = q.codeBytes.length := by
    have htransport : p.hasTransportCodes = q.hasTransportCodes := by
      simp only [hasTransportCodes, getRouteType, hheader]
    rw [length_codeBytes, length_codeBytes, htransport]
  obtain ⟨-, hrest⟩ := List.append_inj hrest hcodes
  obtain ⟨hpathLen, hrest⟩ := List.cons_eq_cons.mp hrest
  have hpathLen := hbyte hp.pathLen_lt hq.pathLen_lt hpathLen
  have hlength : p.path.length = q.path.length := by
    rw [← hp.path_length, ← hq.path_length, Packet.getPathByteLen, hpathLen, Packet.getPathByteLen]
  obtain ⟨hpath, hpayload⟩ := List.append_inj hrest hlength
  exact ⟨hheader, hpathLen, hpath, hpayload⟩

theorem WellFormed.getPathByteLen_le {p : Packet} (h : WellFormed p) :
    p.getPathByteLen ≤ maxPathSize :=
  ((isValidPathLen_iff _).mp h.valid).2

theorem getRawLength_le {p : Packet} (h : WellFormed p) : p.getRawLength ≤ maxTransUnit := by
  have hv := h.getPathByteLen_le
  have hs := h.payload_size
  simp only [maxPathSize, maxPacketPayload, maxTransUnit] at hv hs ⊢
  unfold getRawLength
  split <;> omega

theorem validateLengths_eq_ok {p : Packet} {u : Unit} :
    p.validateLengths = .ok u ↔
      p.getPathByteLen = p.path.length ∧ p.payloadLen = p.payload.length := by
  simp only [validateLengths, ite_error_eq_ok, not_not, and_true]

theorem validatePayloadSize_eq_ok {n : ℕ} {u : Unit} :
    validatePayloadSize n = .ok u ↔ n ≤ maxPacketPayload := by
  simp only [validatePayloadSize, ite_error_eq_ok, gt_iff_lt, not_lt, and_true]

theorem byte_eq_ok {n : ℕ} {d : Bytes} : byte n = .ok d ↔ n < 256 ∧ [UInt8.ofNat n] = d := by
  unfold byte
  split <;> simp_all

theorem code_eq_ok {n : ℕ} {d : Bytes} : code n = .ok d ↔ n < 256 ^ 2 ∧ Bytes.le 2 n = d := by
  rw [← Bytes.ofNatLE?_eq_some]
  unfold code
  split <;> simp_all

theorem writeTransportCodes_eq_ok {p : Packet} {d : Bytes} :
    p.writeTransportCodes = .ok d ↔
      (p.hasTransportCodes = true →
        p.transportCodes.1 < 256 ^ 2 ∧ p.transportCodes.2 < 256 ^ 2) ∧ p.codeBytes = d := by
  unfold writeTransportCodes codeBytes
  split
  · rename_i ht
    simp only [bind_eq_ok, code_eq_ok, pure_eq_ok, Except.ok.injEq, ht]
    constructor
    · rintro ⟨_, ⟨h₀, rfl⟩, _, ⟨h₁, rfl⟩, rfl⟩
      exact ⟨fun _ => ⟨h₀, h₁⟩, by simp⟩
    · rintro ⟨h, rfl⟩
      exact ⟨_, ⟨(h trivial).1, rfl⟩, _, ⟨(h trivial).2, rfl⟩, by simp⟩
  · rename_i ht
    simp [ht]

theorem writeTo_eq_ok {p : Packet} {d : Bytes} :
    p.writeTo = .ok d ↔ Writable p ∧ p.encode = d := by
  simp only [writeTo, bind_eq_ok, validateLengths_eq_ok, validatePayloadSize_eq_ok, byte_eq_ok,
    writeTransportCodes_eq_ok, pure_eq_ok, Except.ok.injEq]
  constructor
  · rintro ⟨_, ⟨hp, hl⟩, _, hs, _, ⟨hh, rfl⟩, _, ⟨hc, rfl⟩, _, ⟨hn, rfl⟩, rfl⟩
    refine ⟨⟨hp, hl, hs, hh, hc, hn⟩, ?_⟩
    simp [encode, hp, hl]
  · rintro ⟨⟨hp, hl, hs, hh, hc, hn⟩, rfl⟩
    refine ⟨(), ⟨hp, hl⟩, (), hs, _, ⟨hh, rfl⟩, _, ⟨hc, rfl⟩, _, ⟨hn, rfl⟩, ?_⟩
    simp [encode, hp, hl]

theorem slice_add (d : Bytes) (i n : ℕ) : slice d i (i + n) = (d.drop i).take n := by
  rw [slice, List.drop_take, Nat.add_sub_cancel_left]

theorem slice_append_drop (d : Bytes) (i n : ℕ) :
    slice d i (i + n) ++ d.drop (i + n) = d.drop i := by
  rw [slice_add, ← List.drop_drop, List.take_append_drop]

theorem slice_of_drop {d a rest : Bytes} {i j : ℕ} (h : d.drop i = a ++ rest)
    (hj : j = i + a.length) : slice d i j = a := by
  rw [hj, slice_add, h, List.take_left]

theorem drop_of_drop {d a rest : Bytes} {i j : ℕ} (h : d.drop i = a ++ rest)
    (hj : j = i + a.length) : d.drop j = rest := by
  subst hj
  rw [← List.drop_drop, h, List.drop_left]

theorem length_of_drop {d a rest : Bytes} {i : ℕ} (h : d.drop i = a ++ rest) (ha : a ≠ []) :
    i + a.length + rest.length = d.length := by
  have hl := congrArg List.length h
  have hp := List.length_pos_of_ne_nil ha
  simp only [List.length_drop, List.length_append] at hl
  omega

theorem checkBounds_eq_ok {i r n : ℕ} {e : PacketError} {u : Unit} :
    checkBounds i r n e = .ok u ↔ i + r ≤ n := by
  simp only [checkBounds, ite_error_eq_ok, gt_iff_lt, not_lt, and_true]

theorem readTransportCodes_sound {p p' : Packet} {d : Bytes} {i i' : ℕ}
    (h : p.readTransportCodes d i = .ok (p', i')) :
    ∃ c : ℕ × ℕ, p' = { p with transportCodes := c } ∧
      (p.hasTransportCodes = true → c.1 < 256 ^ 2 ∧ c.2 < 256 ^ 2) ∧
      (p.hasTransportCodes = false → c = (0, 0)) ∧ d.drop i = p'.codeBytes ++ d.drop i' := by
  unfold readTransportCodes at h
  split at h
  · rename_i ht
    simp only [bind_eq_ok, checkBounds_eq_ok, pure_eq_ok, Except.ok.injEq, Prod.mk.injEq] at h
    obtain ⟨_, hb, rfl, rfl⟩ := h
    have h₀ : (slice d i (i + 2)).length = 2 := by
      simp only [slice, List.length_drop, List.length_take]; omega
    have h₁ : (slice d (i + 2) (i + 4)).length = 2 := by
      simp only [slice, List.length_drop, List.length_take]; omega
    refine ⟨_, rfl, fun _ => ⟨?_, ?_⟩, by simp [ht], ?_⟩
    · simpa only [h₀] using Bytes.toNatLE_lt (slice d i (i + 2))
    · simpa only [h₁] using Bytes.toNatLE_lt (slice d (i + 2) (i + 4))
    · have e₀ := Bytes.le_toNatLE (slice d i (i + 2))
      have e₁ := Bytes.le_toNatLE (slice d (i + 2) (i + 4))
      rw [h₀] at e₀
      rw [h₁] at e₁
      have hc : codeBytes { p with transportCodes :=
          (Bytes.toNatLE (slice d i (i + 2)), Bytes.toNatLE (slice d (i + 2) (i + 4))) } =
          slice d i (i + 2) ++ slice d (i + 2) (i + 4) := by
        have ht' : hasTransportCodes { p with transportCodes :=
          (Bytes.toNatLE (slice d i (i + 2)), Bytes.toNatLE (slice d (i + 2) (i + 4))) } = true :=
          ht
        rw [codeBytes, if_pos ht', e₀, e₁]
      rw [hc, List.append_assoc, slice_append_drop d (i + 2) 2, slice_append_drop]
  · rename_i ht
    simp only [Except.ok.injEq, Prod.mk.injEq] at h
    obtain ⟨rfl, rfl⟩ := h
    refine ⟨_, rfl, by simp [ht], by simp, ?_⟩
    have hc : codeBytes { p with transportCodes := (0, 0) } = [] := if_neg ht
    rw [hc, List.nil_append]

theorem readPath_sound {p p' : Packet} {d : Bytes} {i i' : ℕ}
    (h : p.readPath d i = .ok (p', i')) :
    ∃ (b : UInt8) (path : Bytes), p' = { p with pathLen := b.toNat, path := path } ∧
      isValidPathLen b.toNat = true ∧ path.length = PathUtils.getPathByteLen b.toNat ∧
      d.drop i = b :: (path ++ d.drop i') := by
  simp only [readPath, bind_eq_ok, checkBounds_eq_ok] at h
  obtain ⟨_, hb, h⟩ := h
  split at h
  · rename_i b hi
    split at h
    · split at h <;> simp at h
    · rename_i hv
      simp only [bind_eq_ok, checkBounds_eq_ok, pure_eq_ok, Except.ok.injEq, Prod.mk.injEq] at h
      obtain ⟨_, hp, rfl, rfl⟩ := h
      have hg : d.drop i = b :: d.drop (i + 1) := by
        obtain ⟨hlt, he⟩ := List.getElem?_eq_some_iff.mp hi
        rw [List.drop_eq_getElem_cons hlt, he]
      refine ⟨b, _, rfl, by simpa using hv, ?_, ?_⟩
      · simp only [getPathByteLen] at hp
        simp only [slice, getPathByteLen, List.length_drop, List.length_take]
        omega
      · rw [hg, slice_append_drop]
  · simp at h

theorem readPayload_sound {p p' : Packet} {d : Bytes} {i : ℕ}
    (h : p.readPayload d i = .ok p') :
    p' = { p with payload := d.drop i, payloadLen := (d.drop i).length } ∧
      (d.drop i).length ≤ maxPacketPayload := by
  simp only [readPayload, bind_eq_ok, validatePayloadSize_eq_ok, pure_eq_ok,
    Except.ok.injEq] at h
  obtain ⟨_, hs, rfl⟩ := h
  exact ⟨rfl, hs⟩

theorem readFrom_sound {q p : Packet} {d : Bytes} (h : q.readFrom d = .ok p) :
    WellFormed p ∧ p.encode = d ∧ p = q.receive p := by
  simp only [readFrom] at h
  split at h
  · rename_i b hb
    obtain ⟨rest, rfl⟩ : ∃ rest, d = b :: rest := by
      cases d with
      | nil => simp at hb
      | cons x rest => exact ⟨rest, by simpa using hb⟩
    split at h
    · simp at h
    · rename_i hver
      simp only [bind_eq_ok, Prod.exists] at h
      obtain ⟨p₁, i₁, h₁, p₂, i₂, h₂, h₃⟩ := h
      obtain ⟨c, rfl, hc, hn, e₁⟩ := readTransportCodes_sound h₁
      obtain ⟨l, path, rfl, hv, hl, e₂⟩ := readPath_sound h₂
      obtain ⟨rfl, hs⟩ := readPayload_sound h₃
      refine ⟨⟨⟨hl.symm, rfl, hs, b.toNat_lt, hc, l.toNat_lt⟩, ?_, hn, hv⟩, ?_, rfl⟩
      · simp only [maxSupportedPayloadVersion, payloadVer1, gt_iff_lt, not_lt,
          Nat.le_zero] at hver
        exact hver
      · simp only [List.drop_succ_cons, List.drop_zero] at e₁
        rw [e₂] at e₁
        simp only [encode, UInt8.ofNat_toNat]
        exact congrArg (List.cons b) e₁.symm
  · simp at h

theorem readTransportCodes_complete {p : Packet} {c : ℕ × ℕ} {d rest : Bytes} {i : ℕ}
    (hc : p.hasTransportCodes = true → c.1 < 256 ^ 2 ∧ c.2 < 256 ^ 2)
    (hn : p.hasTransportCodes = false → c = (0, 0))
    (h : d.drop i = codeBytes { p with transportCodes := c } ++ rest) :
    p.readTransportCodes d i = .ok ({ p with transportCodes := c },
      i + (codeBytes { p with transportCodes := c }).length) := by
  cases ht : p.hasTransportCodes with
  | false =>
    obtain rfl := hn ht
    have hb : codeBytes { p with transportCodes := (0, 0) } = [] := if_neg (by simp [← ht]; rfl)
    simp [readTransportCodes, ht, hb]
  | true =>
    obtain ⟨h₀, h₁⟩ := hc ht
    have hb : codeBytes { p with transportCodes := c } = Bytes.le 2 c.1 ++ Bytes.le 2 c.2 :=
      if_pos ht
    rw [hb] at h ⊢
    have hl := length_of_drop h (by simp [Bytes.le])
    simp only [List.length_append, Bytes.length_le] at hl
    rw [List.append_assoc] at h
    have e₀ : slice d i (i + 2) = Bytes.le 2 c.1 := slice_of_drop h (by simp)
    have e₁ : slice d (i + 2) (i + 4) = Bytes.le 2 c.2 :=
      slice_of_drop (drop_of_drop h (by simp)) (by simp)
    have hcb : checkBounds i 4 d.length .missingTransportCodes = .ok () :=
      checkBounds_eq_ok.mpr (by omega)
    simp [readTransportCodes, ht, hcb, e₀, e₁, Bytes.toNatLE_le 2 _ h₀, Bytes.toNatLE_le 2 _ h₁]

theorem readPath_complete {p : Packet} {l : UInt8} {d : Bytes} {i : ℕ} (path rest : Bytes)
    (hv : isValidPathLen l.toNat = true) (hl : path.length = PathUtils.getPathByteLen l.toNat)
    (h : d.drop i = l :: (path ++ rest)) :
    p.readPath d i = .ok ({ p with pathLen := l.toNat, path := path }, i + 1 + path.length) := by
  have hlen : i + 1 + (path ++ rest).length = d.length :=
    length_of_drop (a := [l]) h (by simp)
  simp only [List.length_append] at hlen
  have hg : d[i]? = some l := by
    rw [← List.head?_drop, h]
    rfl
  have hd : d.drop (i + 1) = path ++ rest := drop_of_drop (a := [l]) h rfl
  have hs : slice d (i + 1) (i + 1 + PathUtils.getPathByteLen l.toNat) = path :=
    slice_of_drop hd (by rw [hl])
  have hb : checkBounds i 1 d.length .missingPathLen = .ok () :=
    checkBounds_eq_ok.mpr (by omega)
  have hb' : checkBounds (i + 1) (PathUtils.getPathByteLen l.toNat) d.length .truncatedPath =
      .ok () := checkBounds_eq_ok.mpr (by omega)
  simp [readPath, hb, hg, hv, getPathByteLen, hb', hs, hl]

theorem readFrom_encode (q : Packet) {p : Packet} (h : WellFormed p) :
    q.readFrom p.encode = .ok (q.receive p) := by
  have hver : getPayloadVer { q.resetFrame with header := p.header } = 0 := h.version
  have hcod := readTransportCodes_complete (p := { q.resetFrame with header := p.header })
    (c := p.transportCodes) (d := p.encode) (i := 1) h.codes_lt h.no_codes rfl
  have hpath := readPath_complete p.path p.payload
    (p := { q.resetFrame with header := p.header, transportCodes := p.transportCodes })
    (l := UInt8.ofNat p.pathLen) (d := p.encode) (i := 1 + p.codeBytes.length)
    (by rw [Bytes.toNat_ofNat_of_lt h.pathLen_lt]; exact h.valid)
    (by rw [Bytes.toNat_ofNat_of_lt h.pathLen_lt]; exact h.path_length.symm)
    (drop_of_drop (a := UInt8.ofNat p.header :: p.codeBytes) (i := 0) rfl
      (by simp; omega))
  rw [Bytes.toNat_ofNat_of_lt h.pathLen_lt] at hpath
  have hpay : p.encode.drop (1 + p.codeBytes.length + 1 + p.path.length) = p.payload := by
    refine drop_of_drop (i := 0)
      (a := UInt8.ofNat p.header :: (p.codeBytes ++ UInt8.ofNat p.pathLen :: p.path)) ?_ ?_
    · simp [encode]
    · simp; omega
  have hsize : validatePayloadSize p.payload.length = .ok () :=
    validatePayloadSize_eq_ok.mpr (h.payload_length ▸ h.payload_size)
  have hhead : p.encode[0]? = some (UInt8.ofNat p.header) := rfl
  simp only [readFrom, hhead, Bytes.toNat_ofNat_of_lt h.header_lt, hver]
  rw [if_neg (by simp), hcod, ok_bind]
  change (readPath _ p.encode (1 + p.codeBytes.length) >>= _) = _
  rw [hpath, ok_bind]
  change readPayload _ p.encode (1 + p.codeBytes.length + 1 + p.path.length) = _
  simp only [readPayload, hpay, hsize, ok_bind, pure_eq_ok, receive, h.payload_length]

/-- What the reader accepts is written back byte for byte, and a well-formed packet survives
the wire. -/
theorem readFrom_writeTo_inverse :
    (∀ (d : Bytes) (p : Packet), readFrom {} d = .ok p →
      p.writeTo = .ok d ∧ p.getRawLength = d.length) ∧
    (∀ (p : Packet) (d : Bytes), p.header < 256 → p.getPayloadVer = 0 →
      isValidPathLen p.pathLen = true →
      p.transportCodes.1 < 2 ^ 16 → p.transportCodes.2 < 2 ^ 16 →
      (p.hasTransportCodes = false → p.transportCodes = (0, 0)) →
      p.writeTo = .ok d →
      ∃ q, readFrom {} d = .ok q ∧ q.header = p.header ∧ q.transportCodes = p.transportCodes ∧
        q.pathLen = p.pathLen ∧ q.path = p.path ∧ q.payload = p.payload ∧
        q.payloadLen = p.payloadLen) := by
  constructor
  · intro d p h
    obtain ⟨hw, he, -⟩ := readFrom_sound h
    refine ⟨writeTo_eq_ok.mpr ⟨hw.toWritable, he⟩, ?_⟩
    rw [← he, length_encode hw.toWritable]
  · intro p d _ hver hvalid _ _ hnone hwrite
    obtain ⟨hw, rfl⟩ := writeTo_eq_ok.mp hwrite
    have hwf : WellFormed p := { hw with version := hver, no_codes := hnone, valid := hvalid }
    exact ⟨receive {} p, readFrom_encode {} hwf, rfl, rfl, rfl, rfl, rfl, rfl⟩

theorem readFrom_writeTo_inverse_transport :
    ∃ p q : Packet, readFrom {} [0x08, 0x34, 0x12, 0xCD, 0xAB, 0x41, 1, 2, 9] = .ok q ∧
      q.transportCodes = p.transportCodes ∧ p.transportCodes = (0x1234, 0xABCD) ∧
      q.writeTo = .ok [0x08, 0x34, 0x12, 0xCD, 0xAB, 0x41, 1, 2, 9] ∧ q.getRawLength = 9 := by
  have hwrite : writeTo
      { header := 0x08, transportCodes := (0x1234, 0xABCD), pathLen := 0x41
        path := [1, 2], payload := [9], payloadLen := 1 } =
      .ok [0x08, 0x34, 0x12, 0xCD, 0xAB, 0x41, 1, 2, 9] := by decide
  obtain ⟨q, hq, -, hcodes, -⟩ := readFrom_writeTo_inverse.2 _ _ (by decide) (by decide)
    (by decide) (by decide) (by decide) (by decide) hwrite
  obtain ⟨hback, hlen⟩ := readFrom_writeTo_inverse.1 _ q hq
  exact ⟨_, q, hq, hcodes, rfl, hback, hlen⟩

end OpenHop.Packet
