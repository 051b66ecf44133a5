import OpenHop.Hardware.ModemFrame

/-! # Frames after a stray byte

To say which frame of a stream a dispatch stands for, the scanner is run with the place of
each SYNC byte it parses at. A noise byte in front of intact frames is harmless unless it is
a SYNC byte itself.
-/

namespace OpenHop.Modem

/-- The frames dispatched from `buf`, the rest of a stream of length `n`, each with the place
of its SYNC byte in the stream. -/
def dispatchesFrom (n : ℕ) (buf : Bytes) : List (ℕ × UInt8 × Bytes) :=
  match _h : parseSynced (cutToSync buf) with
  | .wait _ => []
  | .drop rest => dispatchesFrom n rest
  | .frame cmd payload rest =>
    (n - (cutToSync buf).length, cmd, payload) :: dispatchesFrom n rest
termination_by buf.length
decreasing_by
  · exact (parseSynced_drop_length _h).trans_le (length_cutToSync_le buf)
  · have := parseSynced_frame_length _h
    have := length_cutToSync_le buf
    omega

def dispatches (stream : Bytes) : List (ℕ × UInt8 × Bytes) :=
  dispatchesFrom stream.length stream

variable {n : ℕ} {buf rest payload w : Bytes} {cmd : UInt8}

theorem dispatchesFrom_of_wait {kept : Bytes} (h : parseSynced (cutToSync buf) = .wait kept) :
    dispatchesFrom n buf = [] := by
  rw [dispatchesFrom]
  split <;> simp_all only [reduceCtorEq]

theorem dispatchesFrom_of_drop (h : parseSynced (cutToSync buf) = .drop rest) :
    dispatchesFrom n buf = dispatchesFrom n rest := by
  rw [dispatchesFrom]
  split <;> simp_all only [reduceCtorEq, ParseStep.drop.injEq]

theorem dispatchesFrom_of_frame (h : parseSynced (cutToSync buf) = .frame cmd payload rest) :
    dispatchesFrom n buf =
      (n - (cutToSync buf).length, cmd, payload) :: dispatchesFrom n rest := by
  rw [dispatchesFrom]
  split <;> simp_all only [reduceCtorEq, ParseStep.frame.injEq]

theorem map_snd_dispatchesFrom (n : ℕ) (buf : Bytes) :
    (dispatchesFrom n buf).map Prod.snd = (scan buf).1 := by
  induction hn : buf.length using Nat.strong_induction_on generalizing buf with
  | _ k ih =>
    have hle := length_cutToSync_le buf
    rw [scan_eq]
    cases hp : parseSynced (cutToSync buf) with
    | wait kept => rw [dispatchesFrom_of_wait hp]; rfl
    | drop rest =>
      have hlen := parseSynced_drop_length hp
      rw [dispatchesFrom_of_drop hp, ih rest.length (by omega) rest rfl]
      rfl
    | frame cmd payload rest =>
      have hlen := parseSynced_frame_length hp
      rw [dispatchesFrom_of_frame hp, List.map_cons, ih rest.length (by omega) rest rfl]
      rfl

theorem le_of_mem_dispatchesFrom {d : ℕ × UInt8 × Bytes} (hd : d ∈ dispatchesFrom n buf) :
    n - buf.length ≤ d.1 := by
  induction hk : buf.length using Nat.strong_induction_on generalizing buf with
  | _ k ih =>
    have hle := length_cutToSync_le buf
    cases hp : parseSynced (cutToSync buf) with
    | wait kept =>
      rw [dispatchesFrom_of_wait hp] at hd
      cases hd
    | drop rest =>
      have hlen := parseSynced_drop_length hp
      rw [dispatchesFrom_of_drop hp] at hd
      have := ih rest.length (by omega) hd rfl
      omega
    | frame cmd payload rest =>
      have hlen := parseSynced_frame_length hp
      rw [dispatchesFrom_of_frame hp] at hd
      rcases List.mem_cons.mp hd with rfl | hd
      · show n - k ≤ n - (cutToSync buf).length
        omega
      · have := ih rest.length (by omega) hd rfl
        omega

theorem dispatchesFrom_sound {stream : Bytes} {i : ℕ} (hbuf : buf <:+ stream)
    (hd : (i, cmd, payload) ∈ dispatchesFrom stream.length buf) :
    ∃ w, buildFrame cmd payload = .ok w ∧ w <+: stream.drop i := by
  induction hk : buf.length using Nat.strong_induction_on generalizing buf with
  | _ k ih =>
    have hle := length_cutToSync_le buf
    have hsynced : cutToSync buf <:+ stream := (List.dropWhile_suffix _).trans hbuf
    cases hp : parseSynced (cutToSync buf) with
    | wait kept =>
      rw [dispatchesFrom_of_wait hp] at hd
      cases hd
    | drop rest =>
      have hlen := parseSynced_drop_length hp
      obtain ⟨b, pre, hpre⟩ := parseSynced_drop_inv hp
      have hrest : rest <:+ cutToSync buf := ⟨b :: pre, hpre.symm⟩
      rw [dispatchesFrom_of_drop hp] at hd
      exact ih rest.length (by omega) (hrest.trans hsynced) hd rfl
    | frame cmd' payload' rest =>
      have hlen := parseSynced_frame_length hp
      obtain ⟨w, hw, hwire⟩ := parseSynced_frame_wire hp
      rw [dispatchesFrom_of_frame hp] at hd
      rcases List.mem_cons.mp hd with hd | hd
      · simp only [Prod.mk.injEq] at hd
        obtain ⟨rfl, rfl, rfl⟩ := hd
        rw [← List.suffix_iff_eq_drop.mp hsynced, hwire]
        exact ⟨w, hw, List.prefix_append _ _⟩
      · have hrest : rest <:+ cutToSync buf := ⟨w, hwire.symm⟩
        exact ih rest.length (by omega) (hrest.trans hsynced) hd rfl

theorem dispatches_sound {stream : Bytes} {i : ℕ} (hd : (i, cmd, payload) ∈ dispatches stream) :
    ∃ w, buildFrame cmd payload = .ok w ∧ w <+: stream.drop i :=
  dispatchesFrom_sound List.suffix_rfl hd

theorem dispatchesFrom_buildFrame (hle : payload.length ≤ maxLoraPayload + 32)
    (hw : buildFrame cmd payload = .ok w) :
    dispatchesFrom n (w ++ rest) =
      (n - (w ++ rest).length, cmd, payload) :: dispatchesFrom n rest := by
  have hsync : cutToSync (w ++ rest) = w ++ rest := by
    obtain ⟨-, rfl⟩ := buildFrame_eq_ok_iff.mp hw
    rw [List.cons_append, cutToSync_cons, if_pos rfl]
  have hp := parseSynced_buildFrame rest hle hw
  rw [← hsync] at hp
  rw [dispatchesFrom_of_frame hp, hsync]

theorem mem_dispatchesFrom_flatten {frames : List (UInt8 × Bytes)} {ws : List Bytes}
    (hmax : ∀ f ∈ frames, f.2.length ≤ maxLoraPayload + 32)
    (hbuild : List.Forall₂ (fun f w => buildFrame f.1 f.2 = .ok w) frames ws)
    {i : ℕ} {f : UInt8 × Bytes} (hi : frames[i]? = some f) :
    (n - (ws.drop i).flatten.length, f) ∈ dispatchesFrom n ws.flatten := by
  induction hbuild generalizing i with
  | nil => simp at hi
  | cons hw _ ih =>
    rw [List.flatten_cons, dispatchesFrom_buildFrame (hmax _ (by simp)) hw]
    cases i with
    | zero =>
      obtain rfl : _ = f := Option.some.inj hi
      exact List.mem_cons_self
    | succ i => exact List.mem_cons_of_mem _ (ih (fun g hg => hmax g (by simp [hg])) hi)

/-- The bytes that follow the `i`-th frame. -/
def following (ws : List Bytes) (i : ℕ) : ℕ := (ws.drop (i + 1)).flatten.length

/-- Every frame that is followed by enough bytes is dispatched from its place, after `b`. -/
def Recovered (b : UInt8) (frames : List (UInt8 × Bytes)) (ws : List Bytes) : Prop :=
  ∀ i f, frames[i]? = some f → maxLoraPayload + 38 ≤ following ws i →
    (1 + (ws.take i).flatten.length, f) ∈ dispatches (b :: ws.flatten)

theorem length_take_flatten (ws : List Bytes) (i : ℕ) :
    1 + (ws.take i).flatten.length = (ws.flatten.length + 1) - (ws.drop i).flatten.length := by
  have h := congrArg (fun l => (List.flatten l).length) (List.take_append_drop i ws)
  simp only [List.flatten_append, List.length_append] at h
  omega

theorem recovered_of_aligned {b : UInt8} {frames : List (UInt8 × Bytes)} {ws : List Bytes}
    (hmax : ∀ f ∈ frames, f.2.length ≤ maxLoraPayload + 32)
    (hbuild : List.Forall₂ (fun f w => buildFrame f.1 f.2 = .ok w) frames ws)
    (halign : dispatches (b :: ws.flatten) = dispatchesFrom (ws.flatten.length + 1) ws.flatten) :
    Recovered b frames ws := by
  intro i f hi _
  rw [halign, length_take_flatten]
  exact mem_dispatchesFrom_flatten hmax hbuild hi

theorem dispatchesFrom_cutToSync (h : cutToSync buf = cutToSync rest) :
    dispatchesFrom n buf = dispatchesFrom n rest := by
  cases hp : parseSynced (cutToSync rest) with
  | wait kept => rw [dispatchesFrom_of_wait hp, dispatchesFrom_of_wait (h ▸ hp)]
  | drop left => rw [dispatchesFrom_of_drop hp, dispatchesFrom_of_drop (h ▸ hp)]
  | frame cmd payload left =>
    rw [dispatchesFrom_of_frame hp, dispatchesFrom_of_frame (h ▸ hp), h]

theorem dispatches_noise {b : UInt8} (hb : b ≠ protoSync) (stream : Bytes) :
    dispatches (b :: stream) = dispatchesFrom (stream.length + 1) stream :=
  dispatchesFrom_cutToSync (by rw [cutToSync_cons, if_neg hb])

/-- The header the parser reads when a frame follows a stray SYNC byte. -/
def phantomLength (f : UInt8 × Bytes) : ℕ := word f.1 (UInt8.ofNat f.2.length)

theorem buildFrame_layout {f : UInt8 × Bytes} (hw : buildFrame f.1 f.2 = .ok w) :
    ∃ tail, w = protoSync :: f.1 :: UInt8.ofNat f.2.length :: tail ∧ 3 ≤ tail.length := by
  obtain ⟨-, rfl⟩ := buildFrame_eq_ok_iff.mp hw
  exact ⟨_, rfl, by simp [Bytes.length_le]; omega⟩

theorem dispatches_phantom_oversized {f : UInt8 × Bytes} (hw : buildFrame f.1 f.2 = .ok w)
    (hbig : maxLoraPayload + 32 < phantomLength f) :
    dispatches (protoSync :: (w ++ rest)) =
      dispatchesFrom ((w ++ rest).length + 1) (w ++ rest) := by
  obtain ⟨tail, rfl, -⟩ := buildFrame_layout hw
  refine dispatchesFrom_of_drop ?_
  rw [cutToSync_cons, if_pos rfl]
  exact parseSynced_oversized hbig

theorem parseSynced_consumes {b cmd l₀ l₁ : UInt8} {body : Bytes}
    (hsmall : word l₀ l₁ ≤ maxLoraPayload + 32) (hbody : word l₀ l₁ + 2 ≤ body.length) :
    ∃ left : Bytes, left.length + (word l₀ l₁ + 2) = body.length ∧
      (parseSynced (b :: cmd :: l₀ :: l₁ :: body) = .drop left ∨
        ∃ payload, parseSynced (b :: cmd :: l₀ :: l₁ :: body) = .frame cmd payload left) := by
  refine ⟨body.drop (word l₀ l₁ + 2), by rw [List.length_drop]; omega, ?_⟩
  simp only [parseSynced, gt_iff_lt, not_lt.mpr hsmall, not_lt.mpr hbody, if_false]
  split
  · exact Or.inl rfl
  · exact Or.inr ⟨_, rfl⟩

theorem not_mem_dispatches_phantom {f : UInt8 × Bytes} (hw : buildFrame f.1 f.2 = .ok w)
    (hsmall : phantomLength f ≤ maxLoraPayload + 32) (hrest : maxLoraPayload + 38 ≤ rest.length) :
    (1, f) ∉ dispatches (protoSync :: (w ++ rest)) := by
  obtain ⟨tail, rfl, htail⟩ := buildFrame_layout hw
  set stream := protoSync :: (protoSync :: f.1 :: UInt8.ofNat f.2.length :: tail ++ rest)
    with hstream
  have hsync : cutToSync stream = stream := by rw [hstream, cutToSync_cons, if_pos rfl]
  have hlen : stream.length = (tail ++ rest).length + 4 := rfl
  have hroom : phantomLength f + 2 ≤ (tail ++ rest).length := by
    rw [List.length_append]
    omega
  obtain ⟨left, hleft, hstep⟩ :=
    @parseSynced_consumes protoSync protoSync f.1 (UInt8.ofNat f.2.length) (tail ++ rest) hsmall
      hroom
  have hlater : (1, f) ∉ dispatchesFrom stream.length left := by
    intro hmem
    have := le_of_mem_dispatchesFrom hmem
    simp only at this
    omega
  rcases hstep with hdrop | ⟨payload, hframe⟩
  · have hdrop : parseSynced (cutToSync stream) = .drop left := hsync.symm ▸ hdrop
    rw [dispatches, dispatchesFrom_of_drop hdrop]
    exact hlater
  · have hframe : parseSynced (cutToSync stream) = .frame protoSync payload left :=
      hsync.symm ▸ hframe
    rw [dispatches, dispatchesFrom_of_frame hframe, hsync, Nat.sub_self]
    rintro (_ | ⟨_, hmem⟩)
    exact hlater hmem

theorem following_le (ws : List Bytes) (i : ℕ) : following ws i ≤ following ws 0 := by
  have hsuffix : ws.drop (i + 1) <:+ ws.drop 1 := by
    rw [Nat.add_comm, ← List.drop_drop]
    exact List.drop_suffix _ _
  exact hsuffix.sublist.flatten.length_le

theorem feed_rxWorker (stream : Bytes) {chunks : List Bytes} (hne : ∀ c ∈ chunks, c ≠ [])
    (hchunks : chunks.flatten = stream) :
    (Stream.feed USBLoRaRadio.rxWorker [] chunks).1 = (dispatches stream).map Prod.snd ∧
      (Stream.feed TCPLoRaRadio.rxWorker [] chunks).1 = (dispatches stream).map Prod.snd := by
  rw [dispatches, map_snd_dispatchesFrom, ← hchunks]
  exact ⟨feed_outputs_scan (fun _ _ _ => rfl) hne, feed_outputs_scan (fun _ _ h => if_neg h) hne⟩

/-- A stray byte before intact frames costs one of those that are followed by enough bytes exactly
if it is a SYNC byte, the first frame is such a frame, and the phantom length is plausible. -/
theorem recovered_iff (b : UInt8) (frames : List (UInt8 × Bytes)) (ws : List Bytes)
    (hmax : ∀ f ∈ frames, f.2.length ≤ maxLoraPayload + 32)
    (hbuild : List.Forall₂ (fun f w => buildFrame f.1 f.2 = .ok w) frames ws) :
    (∀ chunks : List Bytes, (∀ c ∈ chunks, c ≠ []) → chunks.flatten = b :: ws.flatten →
      (Stream.feed USBLoRaRadio.rxWorker [] chunks).1 =
        (dispatches (b :: ws.flatten)).map Prod.snd ∧
      (Stream.feed TCPLoRaRadio.rxWorker [] chunks).1 =
        (dispatches (b :: ws.flatten)).map Prod.snd) ∧
    (Recovered b frames ws ↔
      (b = protoSync → ∀ f, frames[0]? = some f → maxLoraPayload + 38 ≤ following ws 0 →
        maxLoraPayload + 32 < phantomLength f)) := by
  refine ⟨fun chunks hne hchunks => feed_rxWorker _ hne hchunks, ?_⟩
  by_cases hb : b = protoSync
  · subst hb
    cases hbuild with
    | nil => exact iff_of_true (fun i f hi => by simp at hi) (fun _ f hf => by simp at hf)
    | @cons f w frames ws hw hrest =>
      by_cases hbig : maxLoraPayload + 32 < phantomLength f
      · refine iff_of_true (recovered_of_aligned hmax (.cons hw hrest) ?_) ?_
        · rw [List.flatten_cons]
          exact dispatches_phantom_oversized hw hbig
        · rintro - g hg -
          exact Option.some.inj hg ▸ hbig
      · by_cases hdue : maxLoraPayload + 38 ≤ following (w :: ws) 0
        · refine iff_of_false (fun h => ?_) (fun h => hbig (h rfl f rfl hdue))
          exact not_mem_dispatches_phantom hw (not_lt.mp hbig) hdue (h 0 f rfl hdue)
        · refine iff_of_true (fun i g _ hi => ?_) (fun _ g _ h => absurd h hdue)
          exact absurd (hi.trans (following_le _ i)) hdue
  · refine iff_of_true (recovered_of_aligned hmax hbuild ?_) (fun h => absurd h hb)
    exact dispatches_noise hb _

theorem exists_buildFrame (f : UInt8 × Bytes) (h : f.2.length ≤ 0xFFFF) :
    ∃ w, buildFrame f.1 f.2 = .ok w ∧ w.length = f.2.length + 6 := by
  refine ⟨_, buildFrame_eq_ok_iff.mpr ⟨h, rfl⟩, ?_⟩
  simp only [List.length_cons, List.length_append, Bytes.length_le]
  omega

theorem exists_two_frames :
    ∃ (big : Bytes) (ws : List Bytes), big.length = maxLoraPayload + 32 ∧
      List.Forall₂ (fun f w => buildFrame f.1 f.2 = .ok w) [(0x05, []), (0x00, big)] ws ∧
      maxLoraPayload + 38 ≤ following ws 0 := by
  obtain ⟨big, hbig⟩ : ∃ big : Bytes, big.length = maxLoraPayload + 32 :=
    ⟨List.replicate _ 0, List.length_replicate⟩
  obtain ⟨w₁, hw₁, -⟩ := exists_buildFrame (0x05, []) (Nat.zero_le _)
  obtain ⟨w₂, hw₂, hlen⟩ := exists_buildFrame (0x00, big) (hbig ▸ by decide)
  refine ⟨big, [w₁, w₂], hbig, .cons hw₁ (.cons hw₂ .nil), ?_⟩
  rw [following, List.drop_succ_cons, List.drop_zero, List.flatten_singleton, hlen, hbig]

/-- After a zero byte both are dispatched. -/
theorem recovered_after_zero :
    ∃ (big : Bytes) (ws : List Bytes), big.length = maxLoraPayload + 32 ∧
      maxLoraPayload + 38 ≤ following ws 0 ∧
      Recovered 0x00 [(0x05, []), (0x00, big)] ws := by
  obtain ⟨big, ws, hbig, hbuild, hdue⟩ := exists_two_frames
  refine ⟨big, ws, hbig, hdue, ?_⟩
  exact (recovered_iff 0x00 _ _ (by simp [hbig]) hbuild).2.mpr fun h => absurd h (by decide)

/-- After a stray SYNC byte the phantom length is 5, and the first one is not dispatched. -/
theorem stray_sync_costs_frame :
    ∃ (big : Bytes) (ws : List Bytes), big.length = maxLoraPayload + 32 ∧
      List.Forall₂ (fun f w => buildFrame f.1 f.2 = .ok w) [(0x05, []), (0x00, big)] ws ∧
      maxLoraPayload + 38 ≤ following ws 0 ∧
      (1, 0x05, []) ∉ dispatches (0xAA :: ws.flatten) := by
  obtain ⟨big, ws, hbig, hbuild, hdue⟩ := exists_two_frames
  refine ⟨big, ws, hbig, hbuild, hdue, ?_⟩
  obtain ⟨w, ws, hw, -, rfl⟩ := List.forall₂_cons_left_iff.mp hbuild
  exact not_mem_dispatches_phantom (f := (0x05, [])) hw (by decide) hdue

end OpenHop.Modem
