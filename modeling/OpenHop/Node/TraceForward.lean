import OpenHop.Node.ForwardRepeat

/-! # Forwards of a TRACE

A direct TRACE collects one byte of SNR per hop in its path and counts them in `path_len`,
as a plain number. The writer reads the same field as a packed width and hop count.
-/

namespace OpenHop.Dispatcher

open PathUtils Packet

variable {p f : Packet} {selfKey : Bytes}

/-- The copy for retransmission with the SNR of its reception added. -/
def appendSnr (p : Packet) : Packet :=
  { copyPacketForForward p with
    path := p.path ++ [snrByte p.snr]
    pathLen := p.pathLen + 1 }

/-- The hash in the payload that the TRACE is to visit next is this node's. -/
structure IsTraceHop (p : Packet) (selfKey : Bytes) (flags : UInt8) : Prop where
  flags_eq : p.payload[8]? = some flags
  payload_size : 9 ≤ p.payloadLen
  offset_lt : p.pathLen <<< (flags.toNat &&& 0x03) < p.payloadLen - 9
  hash_eq : slice p.payload (9 + p.pathLen <<< (flags.toNat &&& 0x03))
    (9 + p.pathLen <<< (flags.toNat &&& 0x03) + 1 <<< (flags.toNat &&& 0x03)) =
      selfKey.take (1 <<< (flags.toNat &&& 0x03))

theorem set_path_append (path : Bytes) (b : UInt8) :
    (path ++ List.replicate (path.length + 1 - path.length) 0).set path.length b = path ++ [b] := by
  rw [Nat.add_sub_cancel_left, List.set_append_right _ _ le_rfl, Nat.sub_self]
  rfl

theorem buildTraceForward_eq_some (hlen : p.path.length = p.pathLen) :
    buildTraceForward p selfKey = .ok (some f) ↔
      p.pathLen < maxPathSize ∧ (∃ flags, IsTraceHop p selfKey flags) ∧ appendSnr p = f := by
  have hfwd : ({ copyPacketForForward p with
      path := ((copyPacketForForward p).path ++ List.replicate
        ((copyPacketForForward p).pathLen + 1 - (copyPacketForForward p).path.length) 0).set
          (copyPacketForForward p).pathLen (snrByte p.snr)
      pathLen := (copyPacketForForward p).pathLen + 1 } : Packet) = appendSnr p := by
    simp only [appendSnr, copyPacketForForward, ← hlen, set_path_append]
  unfold buildTraceForward
  constructor
  · intro h
    split at h
    · cases h
    rename_i hcount
    split at h
    · cases h
    rename_i hsize
    split at h
    · cases h
    rename_i flags hflags
    dsimp only at h
    split at h
    · cases h
    rename_i hoffset
    split at h
    · cases h
    rename_i hhash
    rw [hfwd] at h
    exact ⟨not_le.mp hcount, ⟨flags, hflags, not_lt.mp hsize, not_le.mp hoffset,
      not_not.mp hhash⟩, Option.some.inj (Except.ok.inj h)⟩
  · rintro ⟨hcount, ⟨flags, hflags, hsize, hoffset, hhash⟩, rfl⟩
    rw [if_neg (not_le.mpr hcount), if_neg (not_lt.mpr hsize), hflags]
    dsimp only
    rw [if_neg (not_le.mpr hoffset), if_neg (not_not.mpr hhash), hfwd]

theorem getPathByteLen_of_lt {n : ℕ} (h : n < 64) : PathUtils.getPathByteLen n = n := by
  rw [getPathByteLen_eq, getPathHashCount_eq, getPathHashSize_eq, Nat.mod_eq_of_lt h,
    Nat.div_eq_of_lt h, Nat.zero_add, Nat.mul_one]

theorem isValidPathLen_of_lt {n : ℕ} (h : n < 64) : isValidPathLen n = true := by
  rw [isValidPathLen_iff, getPathByteLen_of_lt h, getPathHashSize_eq, Nat.div_eq_of_lt h]
  exact ⟨by decide, h.le⟩

theorem path_length_of_lt (hp : WellFormed p) (h : p.pathLen < 64) :
    p.path.length = p.pathLen :=
  hp.path_length.symm.trans (getPathByteLen_of_lt h)

theorem appendSnr_payload (hp : WellFormed p) : (appendSnr p).payload = p.payload := by
  simp only [appendSnr, copyPacketForForward, hp.payload_length, List.take_length]

theorem appendSnr_wellFormed (hp : WellFormed p) (h : p.pathLen < 63) :
    WellFormed (appendSnr p) := by
  have hcount : p.pathLen + 1 < 64 := by omega
  have hpath : PathUtils.getPathByteLen (p.pathLen + 1) = (p.path ++ [snrByte p.snr]).length := by
    rw [getPathByteLen_of_lt hcount, List.length_append, path_length_of_lt hp (by omega)]
    rfl
  have hgrown := hp.withPath (isValidPathLen_of_lt hcount) hpath
  exact hgrown.of_wire rfl rfl rfl rfl (appendSnr_payload hp) rfl

theorem appendSnr_not_writable (hp : WellFormed p) (h : p.pathLen = 63) :
    ¬ Writable (appendSnr p) := by
  intro hw
  have hpath : PathUtils.getPathByteLen (p.pathLen + 1) = (p.path ++ [snrByte p.snr]).length :=
    hw.path_length
  rw [List.length_append, path_length_of_lt hp (by omega), List.length_singleton, h] at hpath
  exact absurd hpath (by decide)

theorem pathLen_lt_of_buildTraceForward (h : buildTraceForward p selfKey = .ok (some f)) :
    p.pathLen < 64 := by
  by_contra hlt
  have hge : p.pathLen ≥ maxPathSize := not_lt.mp hlt
  unfold buildTraceForward at h
  rw [if_pos hge] at h
  cases h

/-- A forward of a received TRACE can be sent, and reaches the next node with one more SNR and
nothing else changed, exactly if it is not the sixty-fourth. -/
theorem buildTraceForward_transmittable_iff {d : Bytes} {snr : ℚ} (hread : readFrom {} d = .ok p)
    (hf : buildTraceForward { p with snr := snr } selfKey = .ok (some f)) :
    (∃ w q, f.writeTo = .ok w ∧ readFrom {} w = .ok q ∧ q.header = p.header ∧
      q.transportCodes = p.transportCodes ∧ q.payload = p.payload ∧
      q.path = p.path ++ [snrByte snr]) ↔ p.pathLen ≠ 63 := by
  obtain ⟨hread, -, -⟩ := readFrom_sound hread
  have hp : WellFormed { p with snr := snr } := hread.of_wire rfl rfl rfl rfl rfl rfl
  have hcount := pathLen_lt_of_buildTraceForward hf
  change p.pathLen < 64 at hcount
  obtain ⟨-, -, rfl⟩ := (buildTraceForward_eq_some (path_length_of_lt hp hcount)).mp hf
  constructor
  · rintro ⟨w, q, hw, -⟩ hlast
    exact appendSnr_not_writable hp hlast (writeTo_eq_ok.mp hw).1
  · intro hlast
    have hlt : p.pathLen < 63 := by omega
    have hfwd := appendSnr_wellFormed hp hlt
    exact ⟨_, _, writeTo_eq_ok.mpr ⟨hfwd.toWritable, rfl⟩, readFrom_encode {} hfwd, rfl, rfl,
      appendSnr_payload hp, rfl⟩

/-- A direct TRACE on its way over one-byte hashes, with `count` SNRs. -/
def longTrace (count : ℕ) : Bytes :=
  [0x26, UInt8.ofNat count] ++ List.replicate count 0 ++ List.replicate 9 0 ++
    List.replicate 64 7

theorem buildTraceForward_transmittable_last :
    ∃ (p f q : Packet) (w : Bytes), readFrom {} (longTrace 62) = .ok p ∧
      buildTraceForward { p with snr := -3 } (List.replicate 32 7) = .ok (some f) ∧
      f.writeTo = .ok w ∧ readFrom {} w = .ok q ∧ q.path = List.replicate 62 0 ++ [244] := by
  let p : Packet :=
    { header := 0x26, pathLen := 62, path := List.replicate 62 0
      payload := List.replicate 9 0 ++ List.replicate 64 7, payloadLen := 73 }
  have hread : readFrom {} (longTrace 62) = .ok p := by decide +kernel
  have hf : buildTraceForward { p with snr := -3 } (List.replicate 32 7) =
      .ok (some (appendSnr { p with snr := -3 })) := by decide +kernel
  obtain ⟨w, q, hw, hq, -, -, -, hpath⟩ :=
    (buildTraceForward_transmittable_iff hread hf).mpr (by decide)
  have hsnr : snrByte (-3) = 244 := by decide +kernel
  exact ⟨p, _, q, w, hread, hf, hw, hq, by rw [hpath, hsnr]⟩

/-- The node whose turn it is after 63 hops builds a forward that cannot be written. -/
theorem buildTraceForward_unwritable :
    ∃ p f : Packet, readFrom {} (longTrace 63) = .ok p ∧
      buildTraceForward { p with snr := -3 } (List.replicate 32 7) = .ok (some f) ∧
      f.writeTo = .error (.pathLenMismatch 0 64) := by
  let p : Packet :=
    { header := 0x26, pathLen := 63, path := List.replicate 63 0
      payload := List.replicate 9 0 ++ List.replicate 64 7, payloadLen := 73 }
  exact ⟨p, appendSnr { p with snr := -3 }, by decide +kernel, by decide +kernel,
    by decide +kernel⟩

end OpenHop.Dispatcher
