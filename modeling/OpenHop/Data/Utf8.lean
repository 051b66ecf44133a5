import Mathlib.Data.Char
import OpenHop.Data.Bytes
import OpenHop.Machine.Stream

/-! # UTF-8

Text is a list of characters. The encoder is the one of the core library; the decoder reads
byte by byte and reports each ill-formed part once, as the longest start of a sequence that
could still have become a character.
-/

namespace OpenHop.Utf8

def encode (cs : List Char) : Bytes := cs.flatMap String.utf8EncodeChar

/-- An unfinished sequence: the bytes still due, the range of the next one and the bits so far. -/
structure Sequence where
  due : ℕ
  lo : ℕ
  hi : ℕ
  bits : ℕ

/-- A byte between characters. The second byte of a sequence is restricted where the lead byte
would otherwise allow overlong forms, surrogates or values past U+10FFFF. -/
def lead (b : ℕ) : List (Option Char) × Option Sequence :=
  if b ≤ 0x7F then ([some (Char.ofNat b)], none)
  else if b < 0xC2 then ([none], none)
  else if b ≤ 0xDF then ([], some ⟨1, 0x80, 0xBF, b - 0xC0⟩)
  else if b ≤ 0xEF then
    ([], some ⟨2, if b = 0xE0 then 0xA0 else 0x80, if b = 0xED then 0x9F else 0xBF, b - 0xE0⟩)
  else if b ≤ 0xF4 then
    ([], some ⟨3, if b = 0xF0 then 0x90 else 0x80, if b = 0xF4 then 0x8F else 0xBF, b - 0xF0⟩)
  else ([none], none)

def step (st : Option Sequence) (b : UInt8) : List (Option Char) × Option Sequence :=
  match st with
  | none => lead b.toNat
  | some s =>
    if s.lo ≤ b.toNat ∧ b.toNat ≤ s.hi then
      let bits := s.bits * 64 + b.toNat % 64
      if s.due = 1 then ([some (Char.ofNat bits)], none)
      else ([], some ⟨s.due - 1, 0x80, 0xBF, bits⟩)
    else
      -- the sequence is given up and the byte read again as a lead byte
      let (out, st) := lead b.toNat
      (none :: out, st)

/-- The characters of a byte string, `none` for each ill-formed part. -/
def units (bs : Bytes) : List (Option Char) :=
  let (out, st) := Stream.mealy step none bs
  if st.isSome then out ++ [none] else out

def decode? (bs : Bytes) : Option (List Char) := (units bs).mapM id

def decodeReplace (bs : Bytes) : List Char := (units bs).map (·.getD '\uFFFD')

def decodeIgnore (bs : Bytes) : List Char := (units bs).filterMap id

section

variable {n lo hi bits : ℕ}

theorem step_none (hn : n < 256) : step none (UInt8.ofNat n) = lead n := by
  rw [step, Bytes.toNat_ofNat_of_lt hn]

theorem step_last (hn : n < 256) (hlo : lo ≤ n) (hhi : n ≤ hi) :
    step (some ⟨1, lo, hi, bits⟩) (UInt8.ofNat n) =
      ([some (Char.ofNat (bits * 64 + n % 64))], none) := by
  simp [step, Bytes.toNat_ofNat_of_lt hn, hlo, hhi]

theorem step_more {due : ℕ} (hn : n < 256) (hlo : lo ≤ n) (hhi : n ≤ hi) :
    step (some ⟨due + 2, lo, hi, bits⟩) (UInt8.ofNat n) =
      ([], some ⟨due + 1, 0x80, 0xBF, bits * 64 + n % 64⟩) := by
  simp [step, Bytes.toNat_ofNat_of_lt hn, hlo, hhi]

theorem lead_two (h : 0xC2 ≤ n) (h' : n ≤ 0xDF) :
    lead n = ([], some ⟨1, 0x80, 0xBF, n - 0xC0⟩) := by
  rw [lead, if_neg (by omega), if_neg (by omega), if_pos h']

theorem lead_three (h : 0xE0 ≤ n) (h' : n ≤ 0xEF) :
    lead n = ([], some ⟨2, if n = 0xE0 then 0xA0 else 0x80, if n = 0xED then 0x9F else 0xBF,
      n - 0xE0⟩) := by
  rw [lead, if_neg (by omega), if_neg (by omega), if_neg (by omega), if_pos h']

theorem lead_four (h : 0xF0 ≤ n) (h' : n ≤ 0xF4) :
    lead n = ([], some ⟨3, if n = 0xF0 then 0x90 else 0x80, if n = 0xF4 then 0x8F else 0xBF,
      n - 0xF0⟩) := by
  rw [lead, if_neg (by omega), if_neg (by omega), if_neg (by omega), if_neg (by omega), if_pos h']

end

theorem mealy_encodeChar (c : Char) :
    Stream.mealy step none (String.utf8EncodeChar c) = ([some c], none) := by
  have hv : c.val.toNat < 0xD800 ∨ 0xDFFF < c.val.toNat ∧ c.val.toNat < 0x110000 := c.valid
  have hc : ∀ n, n = c.val.toNat → Char.ofNat n = c := by
    rintro n rfl
    exact Char.ofNat_toNat c
  unfold String.utf8EncodeChar
  generalize c.val.toNat = v at hv hc
  dsimp only
  split
  · simp only [Stream.mealy]
    rw [step_none (by omega), lead, if_pos (by assumption), hc v rfl]
    rfl
  split
  · simp only [Stream.mealy]
    rw [step_none (by omega), lead_two (by omega) (by omega)]
    dsimp only
    rw [step_last (by omega) (by omega) (by omega), hc _ (by omega)]
    rfl
  split
  · simp only [Stream.mealy]
    rw [step_none (by omega), lead_three (by omega) (by omega)]
    dsimp only
    rw [step_more (by omega) (by split <;> omega) (by split <;> omega)]
    dsimp only
    rw [step_last (by omega) (by omega) (by omega), hc _ (by omega)]
    rfl
  · simp only [Stream.mealy]
    rw [step_none (by omega), lead_four (by omega) (by omega)]
    dsimp only
    rw [step_more (by omega) (by split <;> omega) (by split <;> omega)]
    dsimp only
    rw [step_more (by omega) (by omega) (by omega)]
    dsimp only
    rw [step_last (by omega) (by omega) (by omega), hc _ (by omega)]
    rfl

theorem mealy_encode (cs : List Char) :
    Stream.mealy step none (encode cs) = (cs.map some, none) := by
  induction cs with
  | nil => rfl
  | cons c cs ih =>
    rw [encode, List.flatMap_cons, Stream.mealy_append, mealy_encodeChar, ← encode, ih]
    rfl

theorem units_encode (cs : List Char) : units (encode cs) = cs.map some := by
  rw [units, mealy_encode]
  rfl

@[simp]
theorem decodeReplace_encode (cs : List Char) : decodeReplace (encode cs) = cs := by
  rw [decodeReplace, units_encode, List.map_map]
  exact List.map_id cs

@[simp]
theorem encode_append (cs ds : List Char) : encode (cs ++ ds) = encode cs ++ encode ds :=
  List.flatMap_append

/-- The longest start of a text whose bytes fit a budget. -/
structure LongestPrefix (budget : ℕ) (text cut : List Char) : Prop where
  isPrefix : cut <+: text
  fits : (encode cut).length ≤ budget
  longest : ∀ ds, ds <+: text → (encode ds).length ≤ budget → ds <+: cut

def fit : ℕ → List Char → List Char
  | _, [] => []
  | n, c :: cs =>
    if (String.utf8EncodeChar c).length ≤ n then c :: fit (n - (String.utf8EncodeChar c).length) cs
    else []

theorem encode_cons (c : Char) (cs : List Char) :
    encode (c :: cs) = String.utf8EncodeChar c ++ encode cs :=
  List.flatMap_cons

theorem fit_longest (n : ℕ) (cs : List Char) : LongestPrefix n cs (fit n cs) := by
  induction cs generalizing n with
  | nil => exact ⟨List.nil_prefix, Nat.zero_le n, fun ds hds _ => hds⟩
  | cons c cs ih =>
    unfold fit
    split
    · rename_i hc
      obtain ⟨hpre, hfits, hlong⟩ := ih (n - (String.utf8EncodeChar c).length)
      refine ⟨List.cons_prefix_cons.mpr ⟨rfl, hpre⟩, ?_, ?_⟩
      · rw [encode_cons, List.length_append]
        omega
      · rintro (_ | ⟨d, ds⟩) hds hle
        · exact List.nil_prefix
        · obtain ⟨rfl, htail⟩ := List.cons_prefix_cons.mp hds
          rw [encode_cons, List.length_append] at hle
          exact List.cons_prefix_cons.mpr ⟨rfl, hlong ds htail (by omega)⟩
    · rename_i hc
      refine ⟨List.nil_prefix, Nat.zero_le n, ?_⟩
      rintro (_ | ⟨d, ds⟩) hds hle
      · exact List.nil_prefix
      · obtain ⟨rfl, -⟩ := List.cons_prefix_cons.mp hds
        rw [encode_cons, List.length_append] at hle
        exact absurd (le_trans (Nat.le_add_right _ _) hle) hc

theorem fit_of_le {n : ℕ} {cs : List Char} (h : (encode cs).length ≤ n) : fit n cs = cs :=
  (fit_longest n cs).isPrefix.eq_of_length_le
    ((fit_longest n cs).longest cs (List.prefix_refl cs) h).length_le

theorem lead_pending (b : ℕ) : lead b ≠ ([], none) := by
  unfold lead
  intro h
  split at h
  · cases h
  split at h
  · cases h
  split at h
  · cases h
  split at h
  · cases h
  split at h
  · cases h
  · cases h

theorem step_pending (st : Option Sequence) (b : UInt8) : step st b ≠ ([], none) := by
  unfold step
  intro h
  split at h
  · exact lead_pending _ h
  · split at h
    · dsimp only at h
      split at h <;> cases h
    · cases h

theorem mealy_pending {st : Option Sequence} {bs : Bytes}
    (h : Stream.mealy step st bs = ([], none)) : bs = [] := by
  induction bs generalizing st with
  | nil => rfl
  | cons b bs ih =>
    simp only [Stream.mealy, Prod.mk.injEq, List.append_eq_nil_iff] at h
    obtain ⟨⟨hout, hrest⟩, hst⟩ := h
    obtain rfl : bs = [] := ih (Prod.ext hrest hst)
    exact absurd (Prod.ext hout hst) (step_pending st b)

theorem mealy_take_encodeChar {c : Char} {n : ℕ} (h : n < (String.utf8EncodeChar c).length) :
    (Stream.mealy step none ((String.utf8EncodeChar c).take n)).1 = [] := by
  have hall := mealy_encodeChar c
  rw [← List.take_append_drop n (String.utf8EncodeChar c), Stream.mealy_append] at hall
  obtain ⟨hout, hst⟩ := Prod.mk.inj hall
  rcases List.append_eq_cons_iff.mp hout with ⟨hnil, -⟩ | ⟨out, hcons, hsome⟩
  · exact hnil
  · have hrest := (List.append_eq_nil_iff.mp hsome.symm).2
    have hdrop := mealy_pending (Prod.ext hrest hst)
    rw [List.drop_eq_nil_iff] at hdrop
    omega

/-- Bytes cut at a budget give the characters that fit it, and leave a sequence open just if the cut
is inside a character. -/
theorem mealy_take_encode (n : ℕ) (cs : List Char) :
    ∃ st, Stream.mealy step none ((encode cs).take n) = ((fit n cs).map some, st) ∧
      (st = none ↔ (encode cs).take n = encode (fit n cs)) := by
  induction cs generalizing n with
  | nil => exact ⟨none, by cases n <;> rfl, by simp [encode, fit]⟩
  | cons c cs ih =>
    rw [encode_cons, List.take_append, fit]
    split
    · rename_i hc
      obtain ⟨st, hst, hopen⟩ := ih (n - (String.utf8EncodeChar c).length)
      refine ⟨st, ?_, ?_⟩
      · rw [List.take_of_length_le hc, Stream.mealy_append, mealy_encodeChar, hst]
        rfl
      · rw [hopen, List.take_of_length_le hc, encode_cons, List.append_cancel_left_eq]
    · rename_i hc
      rw [Nat.sub_eq_zero_of_le (by omega), List.take_zero, List.append_nil]
      have hout := mealy_take_encodeChar (not_le.mp hc)
      refine ⟨_, Prod.ext hout rfl, ?_⟩
      constructor
      · intro hst
        exact mealy_pending (Prod.ext hout hst)
      · intro hnil
        rw [hnil]
        rfl

theorem units_take_encode (n : ℕ) (cs : List Char) :
    units ((encode cs).take n) = (fit n cs).map some ++
      if (encode cs).take n = encode (fit n cs) then [] else [none] := by
  obtain ⟨st, hst, hopen⟩ := mealy_take_encode n cs
  rw [units, hst]
  cases st with
  | none => rw [if_pos (hopen.mp rfl), List.append_nil]; rfl
  | some s => rw [if_neg fun hcut => Option.some_ne_none s (hopen.mpr hcut)]; rfl

theorem decodeIgnore_take_encode (n : ℕ) (cs : List Char) :
    decodeIgnore ((encode cs).take n) = fit n cs := by
  rw [decodeIgnore, units_take_encode, List.filterMap_append, List.filterMap_map]
  split <;> simp

theorem decodeReplace_take_encode (n : ℕ) (cs : List Char) :
    decodeReplace ((encode cs).take n) = fit n cs ++
      if (encode cs).take n = encode (fit n cs) then [] else ['\uFFFD'] := by
  rw [decodeReplace, units_take_encode, List.map_append, List.map_map]
  split <;> simp

theorem mapM_id_map_some (cs : List Char) : (cs.map some).mapM id = some cs := by
  have hpure : cs.mapM (fun c => (pure c : Option Char)) = pure (cs.map fun c => c) :=
    List.mapM_pure
  rw [List.map_id'] at hpure
  rw [List.mapM_map]
  exact hpure

@[simp]
theorem decode?_encode (cs : List Char) : decode? (encode cs) = some cs := by
  rw [decode?, units_encode, mapM_id_map_some]

theorem decode?_take_encode_of_ne {n : ℕ} {cs : List Char}
    (h : (encode cs).take n ≠ encode (fit n cs)) : decode? ((encode cs).take n) = none := by
  rw [decode?, units_take_encode, if_neg h, List.mapM_append, mapM_id_map_some]
  rfl

theorem zero_notMem_encodeChar {c : Char} (hc : c ≠ '\x00') : 0 ∉ String.utf8EncodeChar c := by
  have hv : c.val.toNat ≠ 0 := fun h => hc (Char.ext (UInt32.toNat_inj.mp h))
  have hne : ∀ n, 0 < n → n < 256 → (0 : UInt8) ≠ UInt8.ofNat n := by
    intro n hpos hlt h
    have := congrArg UInt8.toNat h
    rw [Bytes.toNat_ofNat_of_lt hlt] at this
    exact hpos.ne this
  unfold String.utf8EncodeChar
  dsimp only
  split
  · rw [List.mem_singleton]
    exact hne _ (by omega) (by omega)
  split
  · simp only [List.mem_cons, List.not_mem_nil, or_false, not_or]
    exact ⟨hne _ (by omega) (by omega), hne _ (by omega) (by omega)⟩
  split
  · simp only [List.mem_cons, List.not_mem_nil, or_false, not_or]
    exact ⟨hne _ (by omega) (by omega), hne _ (by omega) (by omega), hne _ (by omega) (by omega)⟩
  · simp only [List.mem_cons, List.not_mem_nil, or_false, not_or]
    exact ⟨hne _ (by omega) (by omega), hne _ (by omega) (by omega), hne _ (by omega) (by omega),
      hne _ (by omega) (by omega)⟩

theorem zero_notMem_encode {cs : List Char} (h : '\x00' ∉ cs) : 0 ∉ encode cs := by
  intro hmem
  obtain ⟨c, hc, h0⟩ := List.mem_flatMap.mp hmem
  exact zero_notMem_encodeChar (fun h' => h (h' ▸ hc)) h0

theorem takeWhile_encode (cs : List Char) :
    (encode cs).takeWhile (· ≠ 0) = encode (cs.takeWhile (· ≠ '\x00')) := by
  induction cs with
  | nil => rfl
  | cons c cs ih =>
    by_cases hc : c = '\x00'
    · subst hc
      rfl
    · have hall : ∀ b ∈ String.utf8EncodeChar c, decide (b ≠ 0) = true := by
        intro b hb
        exact decide_eq_true fun h => zero_notMem_encodeChar hc (h ▸ hb)
      rw [encode, List.flatMap_cons, List.takeWhile_append_of_pos hall, ← encode, ih,
        List.takeWhile_cons_of_pos (by simpa using hc), encode, encode, List.flatMap_cons]

theorem zero_notMem_encode_takeWhile (cs : List Char) :
    0 ∉ encode (cs.takeWhile (· ≠ '\x00')) := by
  rw [← takeWhile_encode]
  intro hmem
  simpa using List.all_eq_true.mp List.all_takeWhile 0 hmem

end OpenHop.Utf8
