import OpenHop.Protocol.Wire

/-! # Routes

A route is the list of hop hashes a path stands for, all of one width, within the
limits of the encoded length. A packet carries a route when its path buffer and
its path length byte are the encoding of it; every well-formed packet carries
exactly one, and its hop list is read back by `getPathHashes`.
-/

namespace OpenHop

open PathUtils

/-- A list of hop hashes that a path of the wire can hold. -/
structure Route where
  width : ℕ
  hops : List Bytes
  width_pos : 0 < width
  width_le : width ≤ 3
  uniform : ∀ h ∈ hops, h.length = width
  count_le : hops.length ≤ 63
  size_le : hops.length * width ≤ maxPathSize

namespace Route

def pathLen (r : Route) : ℕ := 64 * (r.width - 1) + r.hops.length

def path (r : Route) : Bytes := r.hops.flatten

/-- Add a last hop, if the encoded length can still count it. -/
def push (r : Route) (h : Bytes) (hw : h.length = r.width) : Option Route :=
  if hf : r.hops.length + 1 ≤ 63 ∧ (r.hops.length + 1) * r.width ≤ maxPathSize then
    some { r with
      hops := r.hops ++ [h]
      uniform := by
        intro x hx
        rcases List.mem_append.mp hx with hx | hx
        · exact r.uniform x hx
        · rw [List.mem_singleton.mp hx, hw]
      count_le := by simpa using hf.1
      size_le := by simpa using hf.2 }
  else none

/-- Remove the first hop. -/
def pop (r : Route) : Route :=
  { r with
    hops := r.hops.tail
    uniform := fun x hx => r.uniform x (List.mem_of_mem_tail hx)
    count_le := by have := r.count_le; simp; omega
    size_le := by
      have hs := r.size_le
      have hm : r.hops.tail.length * r.width ≤ r.hops.length * r.width :=
        Nat.mul_le_mul_right _ (by simp)
      omega }

theorem length_path (r : Route) : r.path.length = r.hops.length * r.width :=
  Bytes.length_flatten_of_uniform r.uniform

theorem getPathHashSize_pathLen (r : Route) : getPathHashSize r.pathLen = r.width :=
  getPathHashSize_pack r.width_pos r.count_le

theorem getPathHashCount_pathLen (r : Route) : getPathHashCount r.pathLen = r.hops.length :=
  getPathHashCount_pack r.count_le

theorem getPathByteLen_pathLen (r : Route) : getPathByteLen r.pathLen = r.path.length := by
  rw [length_path]
  exact getPathByteLen_pack r.width_pos r.count_le

theorem isValidPathLen_pathLen (r : Route) : isValidPathLen r.pathLen = true :=
  (isValidPathLen_pack r.width_pos r.count_le).mpr ⟨r.width_le, r.size_le⟩

theorem encodePathLen_pathLen (r : Route) :
    encodePathLen r.width r.hops.length = .ok r.pathLen :=
  encodePathLen_of_le r.count_le

theorem push_eq_none_iff {r : Route} {h : Bytes} (hw : h.length = r.width) :
    r.push h hw = none ↔
      63 < r.hops.length + 1 ∨ maxPathSize < (r.hops.length + 1) * r.width := by
  unfold push
  split
  · rename_i hf
    simp only [reduceCtorEq, false_iff]
    omega
  · rename_i hf
    simp only [true_iff]
    omega

theorem push_eq_some {r s : Route} {h : Bytes} (hw : h.length = r.width)
    (hs : r.push h hw = some s) :
    s.width = r.width ∧ s.hops = r.hops ++ [h] ∧ s.path = r.path ++ h := by
  unfold push at hs
  split at hs
  · obtain rfl := Option.some.inj hs
    exact ⟨rfl, rfl, by simp [path]⟩
  · cases hs

theorem pop_path {r : Route} {h : Bytes} {hs : List Bytes} (hr : r.hops = h :: hs) :
    r.path = h ++ r.pop.path := by
  simp [path, pop, hr]

end Route

/-- The path buffer and the path length byte of `p` are the encoding of `r`. -/
structure Packet.Carries (p : Packet) (r : Route) : Prop where
  pathLen_eq : p.pathLen = r.pathLen
  path_eq : p.path = r.path

namespace Packet

def withRoute (p : Packet) (r : Route) : Packet := { p with path := r.path, pathLen := r.pathLen }

theorem withRoute_carries (p : Packet) (r : Route) : (p.withRoute r).Carries r := ⟨rfl, rfl⟩

theorem getPathHashes_of_length {p : Packet} (h : p.path.length = p.getPathByteLen) :
    p.getPathHashes = Bytes.cut p.getPathHashSize p.getPathHashCount p.path :=
  Bytes.filterMap_range_eq_cut h

namespace Carries

variable {p : Packet} {r : Route}

theorem hashSize (h : p.Carries r) : p.getPathHashSize = r.width := by
  rw [getPathHashSize, h.pathLen_eq, r.getPathHashSize_pathLen]

theorem hashCount (h : p.Carries r) : p.getPathHashCount = r.hops.length := by
  rw [getPathHashCount, h.pathLen_eq, r.getPathHashCount_pathLen]

theorem byteLen (h : p.Carries r) : p.getPathByteLen = p.path.length := by
  rw [getPathByteLen, h.pathLen_eq, r.getPathByteLen_pathLen, h.path_eq]

theorem valid (h : p.Carries r) : isValidPathLen p.pathLen = true := by
  rw [h.pathLen_eq]
  exact r.isValidPathLen_pathLen

theorem hashes (h : p.Carries r) : p.getPathHashes = r.hops := by
  rw [getPathHashes_of_length h.byteLen.symm, h.hashSize, h.hashCount, h.path_eq]
  exact Bytes.cut_flatten r.uniform

theorem wellFormed {q : Packet} (h : p.Carries r) (hq : WellFormed q)
    (hhead : p.header = q.header) (hcodes : p.transportCodes = q.transportCodes)
    (hpay : p.payload = q.payload) (hlen : p.payloadLen = q.payloadLen) : WellFormed p where
  path_length := h.byteLen
  payload_length := by rw [hlen, hpay, hq.payload_length]
  payload_size := hlen ▸ hq.payload_size
  header_lt := hhead ▸ hq.header_lt
  codes_lt := by
    have hc := hq.codes_lt
    rwa [hasTransportCodes, getRouteType, ← hhead, ← hcodes] at hc
  pathLen_lt := lt_trans (isValidPathLen_lt h.valid) (by decide)
  version := by
    have hv := hq.version
    rwa [getPayloadVer, ← hhead] at hv
  no_codes := by
    have hn := hq.no_codes
    rwa [hasTransportCodes, getRouteType, ← hhead, ← hcodes] at hn
  valid := h.valid

end Carries

theorem WellFormed.carries {p : Packet} (h : WellFormed p) : ∃ r, p.Carries r := by
  obtain ⟨hw, hs⟩ := (isValidPathLen_iff _).mp h.valid
  have hl : p.path.length = PathUtils.getPathHashCount p.pathLen *
      PathUtils.getPathHashSize p.pathLen := h.path_length.symm
  refine ⟨⟨PathUtils.getPathHashSize p.pathLen,
    Bytes.cut (PathUtils.getPathHashSize p.pathLen) (PathUtils.getPathHashCount p.pathLen) p.path,
    getPathHashSize_pos _, hw, Bytes.length_of_mem_cut hl, ?_, ?_⟩, ?_, ?_⟩
  · have := getPathHashCount_lt p.pathLen
    simp only [Bytes.length_cut]
    omega
  · rw [Bytes.length_cut]
    exact hs
  · simp only [Route.pathLen, Bytes.length_cut, getPathHashSize_eq, getPathHashCount_eq]
    omega
  · exact (Bytes.flatten_cut hl).symm

end Packet

end OpenHop
