import Mathlib.Data.Nat.Bitwise
import OpenHop.Data.ShiftRegister
import OpenHop.Hardware.FrameRecovery

/-! # Error bursts

The loop of `crc16_ccitt` is a shift register of 16 bits with feedback `0x1021`, started at
`0xFFFF` and fed with the bits of the message.
-/

namespace OpenHop.Modem

open ShiftRegister

def crcPoly : BitVec 16 := 0x1021#16

def byteBits (b : UInt8) : List Bool := (List.range 8).map fun i => b.toNat.testBit (7 - i)

def messageBits (data : Bytes) : List Bool := data.flatMap byteBits

theorem ofNat_crc16Bit (crc : ℕ) :
    BitVec.ofNat 16 (crc16Bit crc) = shift crcPoly (BitVec.ofNat 16 crc) := by
  have hmask : BitVec.ofNat 16 0xFFFF = BitVec.allOnes 16 := by decide
  have hshift : BitVec.ofNat 16 (crc <<< 1) = BitVec.ofNat 16 crc <<< 1 := by
    apply BitVec.eq_of_toNat_eq
    simp [Nat.shiftLeft_eq]
  have htop : crc &&& 0x8000 ≠ 0 ↔ (BitVec.ofNat 16 crc).msb = true := by
    rw [show (0x8000 : ℕ) = 2 ^ 15 from rfl, Nat.and_two_pow, BitVec.msb_eq_getLsbD_last,
      BitVec.getLsbD_ofNat]
    cases crc.testBit 15 <;> simp
  rw [crc16Bit, BitVec.ofNat_and, hmask, BitVec.and_allOnes, shift]
  by_cases h : crc &&& 0x8000 ≠ 0
  · rw [if_pos h, if_pos (htop.mp h), BitVec.ofNat_xor, hshift]
    rfl
  · rw [if_neg h, if_neg (fun h' => h (htop.mpr h')), hshift]

@[simp] theorem length_byteBits (b : UInt8) : (byteBits b).length = 8 := by simp [byteBits]

theorem getElem?_byteBits (b : UInt8) {i : ℕ} (hi : i < 8) :
    (byteBits b)[i]? = some (b.toNat.testBit (7 - i)) := by
  simp [byteBits, hi]

theorem ofBits_byteBits (b : UInt8) :
    ofBits 16 (byteBits b) = BitVec.ofNat 16 (b.toNat <<< 8) := by
  apply BitVec.eq_of_getMsbD_eq
  intro i hi
  have hlsb : 15 - i < 16 := by omega
  rw [getMsbD_ofBits _ hi, BitVec.getMsbD_eq_getLsbD, BitVec.getLsbD_ofNat, Nat.testBit_shiftLeft]
  by_cases hlow : i < 8
  · have hge : 15 - i ≥ 8 := by omega
    have hidx : 15 - i - 8 = 7 - i := by omega
    simp [getElem?_byteBits b hlow, hi, hlsb, hge, hidx]
  · have hge : ¬15 - i ≥ 8 := by omega
    have hnone : (byteBits b)[i]? = none := List.getElem?_eq_none (by simpa using hlow)
    simp [hnone, hge]

theorem ofNat_crc16Byte (crc : ℕ) (b : UInt8) :
    BitVec.ofNat 16 (crc16Byte crc b) = feed crcPoly (BitVec.ofNat 16 crc) (byteBits b) := by
  have hiter : ∀ (k c : ℕ), BitVec.ofNat 16 (crc16Bit^[k] c) =
      (shift crcPoly)^[k] (BitVec.ofNat 16 c) := by
    intro k
    induction k with
    | zero => intro c; rfl
    | succ k ih => intro c; rw [Function.iterate_succ_apply, ih, ofNat_crc16Bit]; rfl
  rw [crc16Byte, hiter, BitVec.ofNat_xor, feed_eq_shifts crcPoly _ (by simp), ofBits_byteBits,
    length_byteBits]

theorem ofNat_crc16Ccitt (data : Bytes) :
    BitVec.ofNat 16 (crc16Ccitt data) = feed crcPoly 0xFFFF#16 (messageBits data) := by
  have key : ∀ (data : Bytes) (crc : ℕ), BitVec.ofNat 16 (data.foldl crc16Byte crc) =
      feed crcPoly (BitVec.ofNat 16 crc) (messageBits data) := by
    intro data
    induction data with
    | nil => intro crc; rfl
    | cons b data ih =>
      intro crc
      rw [List.foldl_cons, ih, ofNat_crc16Byte, ← feed_append]
      rfl
  exact key data 0xFFFF

/-- Different messages of one length whose differing bits lie within 16 consecutive places. -/
structure Burst (x y : Bytes) : Prop where
  length : x.length = y.length
  differ : x ≠ y
  window : ∃ p, ∀ i, (messageBits x)[i]? ≠ (messageBits y)[i]? → p ≤ i ∧ i < p + 16

theorem length_messageBits (data : Bytes) : (messageBits data).length = 8 * data.length := by
  induction data with
  | nil => rfl
  | cons b data ih =>
    have hcons : messageBits (b :: data) = byteBits b ++ messageBits data := rfl
    rw [hcons, List.length_append, ih, length_byteBits, List.length_cons]
    omega

theorem byteBits_injective : Function.Injective byteBits := by
  intro a b h
  apply UInt8.toNat_inj.mp
  apply Nat.eq_of_testBit_eq
  intro i
  by_cases hi : i < 8
  · have hbit := congrArg (fun bits => bits[7 - i]?) h
    have hidx : 7 - (7 - i) = i := by omega
    simpa [getElem?_byteBits _ (show 7 - i < 8 by omega), hidx] using hbit
  · have hhigh : ∀ c : UInt8, c.toNat.testBit i = false := fun c =>
      Nat.testBit_lt_two_pow (c.toNat_lt.trans_le (Nat.pow_le_pow_right (by decide) (by omega)))
    rw [hhigh, hhigh]

theorem messageBits_injective {x y : Bytes} (h : messageBits x = messageBits y) : x = y := by
  have hlen : x.length = y.length := by
    have := congrArg List.length h
    rw [length_messageBits, length_messageBits] at this
    omega
  induction x generalizing y with
  | nil => exact (List.length_eq_zero_iff.mp hlen.symm).symm
  | cons a x ih =>
    obtain _ | ⟨b, y⟩ := y
    · simp at hlen
    · obtain ⟨hhead, htail⟩ := List.append_inj (show byteBits a ++ messageBits x =
        byteBits b ++ messageBits y from h) (by simp)
      rw [byteBits_injective hhead, ih htail (Nat.succ.inj hlen)]

theorem crc16Ccitt_ne_of_burst {x y : Bytes} (h : Burst x y) : crc16Ccitt x ≠ crc16Ccitt y := by
  obtain ⟨p, hp⟩ := h.window
  intro heq
  have hlen : (messageBits x).length = (messageBits y).length := by
    rw [length_messageBits, length_messageBits, h.length]
  have hbits : messageBits x ≠ messageBits y := fun hb => h.differ (messageBits_injective hb)
  refine feed_ne_of_burst (g := crcPoly) (by decide) 0xFFFF#16 hlen hbits hp ?_
  rw [← ofNat_crc16Ccitt, ← ofNat_crc16Ccitt, heq]

/-- The wire image of a frame whose command and payload were altered on the way. -/
def damagedFrame (cmd : UInt8) (payload : Bytes) (cmd' : UInt8) (payload' : Bytes) : Bytes :=
  protoSync :: (cmd' :: Bytes.le 2 payload.length ++ payload' ++
    Bytes.le 2 (crc16Ccitt (cmd :: Bytes.le 2 payload.length ++ payload)))

variable {cmd cmd' : UInt8} {payload payload' rest : Bytes}

theorem le_two_injective {a b : ℕ} (ha : a < 65536) (hb : b < 65536)
    (h : Bytes.le 2 a = Bytes.le 2 b) : a = b := by
  rw [← Bytes.toNatLE_le 2 a ha, h, Bytes.toNatLE_le 2 b hb]

theorem not_buildFrame_prefix_damaged (hlen : payload.length ≤ 0xFFFF)
    (hsame : payload'.length = payload.length)
    (hburst : Burst (cmd' :: Bytes.le 2 payload.length ++ payload')
      (cmd :: Bytes.le 2 payload.length ++ payload))
    {c : UInt8} {p w : Bytes} (hw : buildFrame c p = .ok w) :
    ¬w <+: damagedFrame cmd payload cmd' payload' ++ rest := by
  obtain ⟨hp, rfl⟩ := buildFrame_eq_ok_iff.mp hw
  rintro ⟨t, ht⟩
  simp only [damagedFrame, List.cons_append, List.append_assoc, List.cons.injEq, true_and] at ht
  obtain ⟨rfl, htail⟩ := ht
  obtain ⟨hl, hbody⟩ := List.append_inj htail (by simp)
  have hpl : p.length = payload.length :=
    le_two_injective (Nat.lt_succ_of_le hp) (Nat.lt_succ_of_le hlen) hl
  obtain ⟨rfl, hend⟩ := List.append_inj hbody (by rw [hpl, hsame])
  obtain ⟨hcrc, -⟩ := List.append_inj hend (by simp)
  refine crc16Ccitt_ne_of_burst hburst (le_two_injective (crc16Ccitt_lt _) (crc16Ccitt_lt _) ?_)
  simpa only [List.cons_append, hpl] using hcrc

theorem scan_damagedFrame (hle : payload.length ≤ maxLoraPayload + 32)
    (hsame : payload'.length = payload.length)
    (hburst : Burst (cmd' :: Bytes.le 2 payload.length ++ payload')
      (cmd :: Bytes.le 2 payload.length ++ payload)) (rest : Bytes) :
    scan (damagedFrame cmd payload cmd' payload' ++ rest) = scan rest := by
  obtain ⟨l₀, l₁, hl, hword⟩ := exists_le_two (n := payload.length) (by simp at hle; omega)
  obtain ⟨c₀, c₁, hc, hcrc⟩ := exists_le_two (crc16Ccitt_lt (cmd :: l₀ :: l₁ :: payload))
  have hstream : damagedFrame cmd payload cmd' payload' ++ rest =
      protoSync :: cmd' :: l₀ :: l₁ :: (payload' ++ c₀ :: c₁ :: rest) := by
    simp [damagedFrame, hl, hc]
  have hne := crc16Ccitt_ne_of_burst hburst
  have hp := @parseSynced_complete protoSync cmd' l₀ l₁ c₀ c₁ payload' rest
    (hword.trans hsame.symm) (hsame ▸ hle)
  rw [if_pos (by rw [hcrc]; simpa [hl] using hne.symm)] at hp
  rw [hstream, scan_eq, cutToSync_cons, if_pos rfl, hp]
  rfl

/-- Bursts are detected: a frame whose command or payload suffered one is not dispatched by either
worker, wherever it stands in a stream and however the stream is cut. -/
theorem burst_not_dispatched :
    (∀ x y, Burst x y → crc16Ccitt x ≠ crc16Ccitt y) ∧
    ∀ (cmd cmd' : UInt8) (payload payload' w : Bytes), buildFrame cmd payload = .ok w →
      payload'.length = payload.length →
      Burst (cmd' :: Bytes.le 2 payload.length ++ payload')
        (cmd :: Bytes.le 2 payload.length ++ payload) →
      (∀ (before after : Bytes) (chunks : List Bytes), (∀ c ∈ chunks, c ≠ []) →
        chunks.flatten = before ++ (damagedFrame cmd payload cmd' payload' ++ after) →
        (Stream.feed USBLoRaRadio.rxWorker [] chunks).1 =
          (dispatches chunks.flatten).map Prod.snd ∧
        (Stream.feed TCPLoRaRadio.rxWorker [] chunks).1 =
          (dispatches chunks.flatten).map Prod.snd ∧
        ∀ d ∈ dispatches chunks.flatten, d.1 ≠ before.length) ∧
      (payload.length ≤ maxLoraPayload + 32 →
        ∀ (fs gs : List (UInt8 × Bytes)) (vs ws chunks : List Bytes),
        (∀ f ∈ fs ++ gs, f.2.length ≤ maxLoraPayload + 32) →
        List.Forall₂ (fun f w => buildFrame f.1 f.2 = .ok w) fs vs →
        List.Forall₂ (fun f w => buildFrame f.1 f.2 = .ok w) gs ws →
        (∀ c ∈ chunks, c ≠ []) →
        chunks.flatten =
          vs.flatten ++ (damagedFrame cmd payload cmd' payload' ++ ws.flatten) →
        (Stream.feed USBLoRaRadio.rxWorker [] chunks).1 = fs ++ gs ∧
        (Stream.feed TCPLoRaRadio.rxWorker [] chunks).1 = fs ++ gs) := by
  refine ⟨fun x y h => crc16Ccitt_ne_of_burst h, ?_⟩
  intro cmd cmd' payload payload' w hw hsame hburst
  have hlen := (buildFrame_eq_ok_iff.mp hw).1
  constructor
  · intro before after chunks hne hchunks
    obtain ⟨husb, htcp⟩ := feed_rxWorker chunks.flatten hne rfl
    refine ⟨husb, htcp, ?_⟩
    rintro ⟨i, c, p⟩ hd rfl
    obtain ⟨w', hw', hprefix⟩ := dispatches_sound hd
    rw [hchunks, List.drop_left] at hprefix
    exact not_buildFrame_prefix_damaged hlen hsame hburst hw' hprefix
  · intro hle fs gs vs ws chunks hmax hfs hgs hne hchunks
    have hscan : (scan chunks.flatten).1 = fs ++ gs := by
      rw [hchunks, scan_frames_append (fun f hf => hmax f (by simp [hf])) hfs,
        scan_damagedFrame hle hsame hburst,
        scan_flatten_buildFrame (fun f hf => hmax f (by simp [hf])) hgs]
    rw [← hscan, ← map_snd_dispatchesFrom chunks.flatten.length]
    exact feed_rxWorker chunks.flatten hne rfl

/-- A payload of one byte whose top bit was flipped, between two intact frames. -/
theorem burst_not_dispatched_bit :
    crc16Ccitt [1, 1, 0, 0x81] ≠ crc16Ccitt [1, 1, 0, 1] ∧
    ∃ v w, buildFrame 0x20 [] = .ok v ∧ buildFrame 0x22 [7] = .ok w ∧
      (Stream.feed USBLoRaRadio.rxWorker [] [v, damagedFrame 1 [1] 1 [0x81] ++ w]).1 =
        [(0x20, []), (0x22, [7])] := by
  have hburst : Burst [1, 1, 0, 0x81] [1, 1, 0, 1] := by
    refine ⟨rfl, by decide, 24, fun i hdiff => ⟨?_, ?_⟩⟩
    · by_contra hlt
      have hsame : ∀ i < 24,
          (messageBits [1, 1, 0, 0x81])[i]? = (messageBits [1, 1, 0, 1])[i]? := by decide
      exact hdiff (hsame i (by omega))
    · by_contra hge
      have hnone : ∀ b : UInt8, (messageBits [1, 1, 0, b])[i]? = none := by
        intro b
        apply List.getElem?_eq_none
        simp only [length_messageBits, List.length_cons, List.length_nil]
        omega
      exact hdiff (by rw [hnone, hnone])
  refine ⟨burst_not_dispatched.1 _ _ hburst, _, _, rfl, rfl, ?_⟩
  refine ((burst_not_dispatched.2 1 1 [1] [0x81] _ rfl rfl hburst).2 (by decide) [(0x20, [])]
    [(0x22, [7])] [_] [_] _ (by decide) (.cons rfl .nil) (.cons rfl .nil) ?_ ?_).1
  · simp [protoSync]
  · simp

end OpenHop.Modem
