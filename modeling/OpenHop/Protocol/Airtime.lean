import Mathlib.Data.Rat.Floor
import Mathlib.Tactic.Positivity

/-! # LoRa time on air

The airtime estimate of a frame from its length and the radio's modulation
settings, in exact arithmetic. The estimate is positive and never shrinks when a
frame gets longer.
-/

namespace OpenHop

/-- The modulation settings the dispatcher reads from the radio, with its defaults. -/
structure RadioSettings where
  spreadingFactor : ℤ := 10
  bandwidth : ℚ≥0 := 250000
  codingRate : ℤ := 5
  preambleLength : ℕ := 8

/-- The denominator 5..8 of the coding rate, given as such or as the legacy index 1..4. -/
def codingRateDenominator (cr : ℤ) : ℤ :=
  if 1 ≤ cr ∧ cr ≤ 4 then cr + 4 else max 5 (min 8 cr)

theorem five_le_codingRateDenominator (cr : ℤ) : 5 ≤ codingRateDenominator cr := by
  unfold codingRateDenominator
  split <;> omega

def clampSpreadingFactor (sf : ℤ) : ℤ := max 5 (min 12 sf)

theorem five_le_clampSpreadingFactor (sf : ℤ) : 5 ≤ clampSpreadingFactor sf := le_max_left _ _

def symbolTimeS (sf : ℤ) (bwHz : ℚ≥0) : ℚ :=
  2 ^ (clampSpreadingFactor sf).toNat / (if bwHz = 0 then 250000 else (bwHz : ℚ))

theorem symbolTimeS_pos (sf : ℤ) (bwHz : ℚ≥0) : 0 < symbolTimeS sf bwHz := by
  unfold symbolTimeS
  split
  · positivity
  · rename_i hbw
    have hpos : (0 : ℚ) < bwHz := NNRat.cast_pos.mpr (pos_iff_ne_zero.mpr hbw)
    positivity

/-- The payload symbols for a bit count, in groups of `denom` bits at rate `4 / cr`. -/
def payloadSymbols (bitCount denom cr : ℤ) : ℤ :=
  8 + ⌈((max bitCount 0 : ℤ) : ℚ) / denom⌉ * cr

theorem payloadSymbols_mono {b b' denom cr : ℤ} (hdenom : 0 < denom) (hcr : 0 ≤ cr) (h : b ≤ b') :
    payloadSymbols b denom cr ≤ payloadSymbols b' denom cr := by
  have hdenom' : (0 : ℚ) ≤ denom := by exact_mod_cast hdenom.le
  have hmax : ((max b 0 : ℤ) : ℚ) ≤ (max b' 0 : ℤ) := by exact_mod_cast max_le_max_right 0 h
  have hceil : ⌈((max b 0 : ℤ) : ℚ) / denom⌉ ≤ ⌈((max b' 0 : ℤ) : ℚ) / denom⌉ :=
    Int.ceil_le_ceil (div_le_div_of_nonneg_right hmax hdenom')
  exact add_le_add_right (mul_le_mul_of_nonneg_right hceil hcr) 8

theorem payloadSymbols_pos {b denom cr : ℤ} (hdenom : 0 < denom) (hcr : 0 ≤ cr) :
    0 < payloadSymbols b denom cr := by
  have hdenom' : (0 : ℚ) ≤ denom := by exact_mod_cast hdenom.le
  have hmax : (0 : ℚ) ≤ (max b 0 : ℤ) := by exact_mod_cast le_max_right b 0
  have hceil : 0 ≤ ⌈((max b 0 : ℤ) : ℚ) / denom⌉ := Int.ceil_nonneg (div_nonneg hmax hdenom')
  have := mul_nonneg hceil hcr
  unfold payloadSymbols
  omega

def calculateLoraAirtimeMs (payloadLen : ℕ) (sf : ℤ) (bwHz : ℚ≥0) (cr : ℤ)
    (preambleSymbols : ℕ := 8) (crcEnabled explicitHeader : Bool := true)
    (lowDrOpt : Option Bool := none) : ℚ :=
  let symbolTime := symbolTimeS sf bwHz
  let sf := clampSpreadingFactor sf
  -- RadioLib's automatic rule: low data rate optimisation from 16 ms symbols on
  let lowDr := lowDrOpt.getD (decide (16 ≤ symbolTime * 1000))
  let syncSymbols : ℚ := if sf ≤ 6 then 25 / 4 else 17 / 4
  let sfCoeff2 : ℤ := if sf ≤ 6 then 0 else 8
  let bitCount : ℤ := 8 * payloadLen + (if crcEnabled then 16 else 0) - 4 * sf + sfCoeff2
    + (if explicitHeader then 20 else 0)
  let denom : ℤ := if lowDr then 4 * (sf - 2) else 4 * sf
  (preambleSymbols + syncSymbols + payloadSymbols bitCount denom (codingRateDenominator cr))
    * symbolTime * 1000

section

variable {n m : ℕ} {sf : ℤ} {bwHz : ℚ≥0} {cr : ℤ} {preamble : ℕ} {crc header : Bool}
  {lowDr : Option Bool}

theorem calculateLoraAirtimeMs_mono (h : n ≤ m) :
    calculateLoraAirtimeMs n sf bwHz cr preamble crc header lowDr ≤
      calculateLoraAirtimeMs m sf bwHz cr preamble crc header lowDr := by
  have hsymbol := symbolTimeS_pos sf bwHz
  have hcr := five_le_codingRateDenominator cr
  have hsf := five_le_clampSpreadingFactor sf
  unfold calculateLoraAirtimeMs
  dsimp only
  gcongr
  refine payloadSymbols_mono ?_ (by omega) (by omega)
  split <;> omega

theorem calculateLoraAirtimeMs_pos :
    0 < calculateLoraAirtimeMs n sf bwHz cr preamble crc header lowDr := by
  have hsymbol := symbolTimeS_pos sf bwHz
  have hcr := five_le_codingRateDenominator cr
  have hsf := five_le_clampSpreadingFactor sf
  unfold calculateLoraAirtimeMs
  dsimp only
  refine mul_pos (mul_pos (add_pos_of_pos_of_nonneg ?_ ?_) hsymbol) (by norm_num)
  · split <;> positivity
  · refine Int.cast_nonneg (payloadSymbols_pos ?_ (by omega)).le
    split <;> omega

end

end OpenHop
