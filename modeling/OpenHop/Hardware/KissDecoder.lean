import OpenHop.Data.Bytes
import OpenHop.Machine.Stream

/-! # KISS decoding

Each serial wrapper has two KISS decoders: `_decode_kiss_byte`, an automaton over single
bytes, and `_decode_kiss`, which copies whole runs between delimiters. The bulk decoder is
first shown to be the run of an automaton of its own.
-/

namespace OpenHop.Kiss

def fend : UInt8 := 0xC0
def fesc : UInt8 := 0xDB
def tfend : UInt8 := 0xDC
def tfesc : UInt8 := 0xDD
def maxFrameSize : ℕ := 512

structure DecoderState where
  inFrame : Bool := false
  escaped : Bool := false
  rxFrameBuffer : Bytes := []
  deriving DecidableEq, Repr

/-- A call of `_process_received_frame`, or an increment of `frame_errors`. -/
inductive DecoderEvent where
  | frame (buffer : Bytes)
  | frameError
  deriving DecidableEq, Repr

abbrev Reaction := List DecoderEvent × DecoderState

namespace DecoderState

def resync : DecoderState := ⟨false, false, []⟩

def opened : DecoderState := ⟨true, false, []⟩

end DecoderState

/-- The parts in which the decoders of the two wrappers differ. -/
structure Wrapper where
  /-- Frames of at most this length are not processed. -/
  ignoredLength : ℕ
  /-- The byte an escape sequence stands for is not appended to a full buffer. -/
  capsDecoded : Bool
  appendDecoded : DecoderState → UInt8 → Reaction
  append_spec : ∀ s b, appendDecoded s b =
    if capsDecoded = true ∧ maxFrameSize ≤ s.rxFrameBuffer.length then ([.frameError], .resync)
    else ([], { s with escaped := false, rxFrameBuffer := s.rxFrameBuffer ++ [b] })

variable (w : Wrapper)

def unescape (s : DecoderState) (byte : UInt8) : Reaction :=
  if byte = tfend then w.appendDecoded s fend
  else if byte = tfesc then w.appendDecoded s fesc
  else ([.frameError], .resync)

def frameEnd (s : DecoderState) : Reaction :=
  (if s.inFrame && decide (w.ignoredLength < s.rxFrameBuffer.length) then
    [.frame s.rxFrameBuffer] else [], .opened)

def frameEscape (s : DecoderState) : DecoderState :=
  if s.inFrame then { s with escaped := true } else s

def plainByte (s : DecoderState) (byte : UInt8) : Reaction :=
  if s.inFrame then
    if s.rxFrameBuffer.length ≥ maxFrameSize then
      ([.frameError], { s with rxFrameBuffer := [], inFrame := false })
    else ([], { s with rxFrameBuffer := s.rxFrameBuffer ++ [byte] })
  else ([], s)

def decodeKissByte (s : DecoderState) (byte : UInt8) : Reaction :=
  if byte = fend then frameEnd w s
  else if byte = fesc then ([], frameEscape s)
  else if s.escaped then unescape w s byte
  else plainByte s byte

/-- The smaller of the two `find` results. -/
def nextDelimiter (data : Bytes) : Option ℕ :=
  match data.findIdx? (· == fend), data.findIdx? (· == fesc) with
  | none, nxt => nxt
  | nxt, none => nxt
  | some i, some j => some (if i < j then i else j)

/-- Copy a run of plain bytes, up to the size limit. -/
def copyRun (s : DecoderState) (run : Bytes) : Reaction :=
  let space := maxFrameSize - s.rxFrameBuffer.length
  if run.length ≤ space then ([], { s with rxFrameBuffer := s.rxFrameBuffer ++ run })
  else ([.frameError], { s with rxFrameBuffer := [], inFrame := false })

/-- The bulk decoder; `data` is what is left of the chunk. -/
def decodeKiss (s : DecoderState) (data : Bytes) : Reaction :=
  match data with
  | [] => ([], s)
  | b :: rest =>
    if s.escaped then
      let r := unescape w s b
      let r' := decodeKiss r.2 rest
      (r.1 ++ r'.1, r'.2)
    else
      let nxt := nextDelimiter (b :: rest)
      let runEnd := nxt.getD (b :: rest).length
      let r := if runEnd > 0 && s.inFrame then copyRun s ((b :: rest).take runEnd) else ([], s)
      match nxt with
      | none => r
      | some _ =>
        match _h : (b :: rest).drop runEnd with
        | [] => r
        | d :: rest' =>
          let r₁ := if d = fend then frameEnd w r.2 else ([], frameEscape r.2)
          let r₂ := decodeKiss r₁.2 rest'
          (r.1 ++ r₁.1 ++ r₂.1, r₂.2)
termination_by data.length
decreasing_by
  · simp
  · have hlen := congrArg List.length _h
    simp only [List.length_drop, List.length_cons] at hlen ⊢
    omega

namespace KissModemWrapper

def appendDecoded (s : DecoderState) (decoded : UInt8) : Reaction :=
  ([], { s with escaped := false, rxFrameBuffer := s.rxFrameBuffer ++ [decoded] })

def wrapper : Wrapper where
  ignoredLength := 0
  capsDecoded := false
  appendDecoded := appendDecoded
  append_spec _ _ := by simp [appendDecoded]

def decodeKissByte : DecoderState → UInt8 → Reaction := Kiss.decodeKissByte wrapper

def decodeKiss : DecoderState → Bytes → Reaction := Kiss.decodeKiss wrapper

end KissModemWrapper

namespace KissSerialWrapper

def appendDecoded (s : DecoderState) (decoded : UInt8) : Reaction :=
  if s.rxFrameBuffer.length ≥ maxFrameSize then
    ([.frameError], { s with escaped := false, rxFrameBuffer := [], inFrame := false })
  else ([], { s with escaped := false, rxFrameBuffer := s.rxFrameBuffer ++ [decoded] })

def wrapper : Wrapper where
  ignoredLength := 1
  capsDecoded := true
  appendDecoded := appendDecoded
  append_spec _ _ := by simp [appendDecoded, DecoderState.resync]

def decodeKissByte : DecoderState → UInt8 → Reaction := Kiss.decodeKissByte wrapper

def decodeKiss : DecoderState → Bytes → Reaction := Kiss.decodeKiss wrapper

end KissSerialWrapper

/-- Below the size limit an escape sequence appends the byte it stands for. -/
def Wrapper.Fills (w : Wrapper) : Prop :=
  ∀ s b, s.rxFrameBuffer.length < maxFrameSize → w.appendDecoded s b =
    ([], { s with escaped := false, rxFrameBuffer := s.rxFrameBuffer ++ [b] })

theorem modem_fills : KissModemWrapper.wrapper.Fills := fun _ _ _ => rfl

theorem serial_fills : KissSerialWrapper.wrapper.Fills := fun _ _ h => if_neg (not_le.mpr h)

/-- The automaton of the bulk decoder: a pending escape takes any byte, delimiters included. -/
def bulkByte (s : DecoderState) (byte : UInt8) : Reaction :=
  if s.escaped then unescape w s byte
  else if byte = fend then frameEnd w s
  else if byte = fesc then ([], frameEscape s)
  else plainByte s byte

def IsDelimiter (b : UInt8) : Prop := b = fend ∨ b = fesc

instance (b : UInt8) : Decidable (IsDelimiter b) := inferInstanceAs (Decidable (_ ∨ _))

variable {w} {s : DecoderState}

theorem nextDelimiter_cons (b : UInt8) (data : Bytes) :
    nextDelimiter (b :: data) =
      if IsDelimiter b then some 0 else (nextDelimiter data).map (· + 1) := by
  by_cases h₁ : b = fend
  · simp only [nextDelimiter, List.findIdx?_cons, IsDelimiter, h₁, beq_self_eq_true, if_true,
      true_or]
    split <;> simp_all
    omega
  · by_cases h₂ : b = fesc
    · simp only [nextDelimiter, List.findIdx?_cons, IsDelimiter, h₂, beq_self_eq_true, if_true,
        or_true]
      split <;> simp_all
      omega
    · simp only [nextDelimiter, List.findIdx?_cons, IsDelimiter, h₁, h₂, beq_eq_false_iff_ne.mpr h₁,
        beq_eq_false_iff_ne.mpr h₂, or_self, if_false, Bool.false_eq_true]
      cases data.findIdx? (· == fend) <;> cases data.findIdx? (· == fesc) <;> simp
      split <;> rfl

/-- A chunk is a run of plain bytes, followed by a delimiter unless the run is the whole chunk. -/
theorem nextDelimiter_spec (data : Bytes) :
    (nextDelimiter data = none ∧ ∀ b ∈ data, ¬IsDelimiter b) ∨
    ∃ run d rest, data = run ++ d :: rest ∧ nextDelimiter data = some run.length ∧
      (∀ b ∈ run, ¬IsDelimiter b) ∧ IsDelimiter d := by
  induction data with
  | nil => exact .inl ⟨rfl, by simp⟩
  | cons b data ih =>
    rw [nextDelimiter_cons]
    by_cases hb : IsDelimiter b
    · exact .inr ⟨[], b, data, rfl, by simp [hb], by simp, hb⟩
    · rcases ih with ⟨hn, hall⟩ | ⟨run, d, rest, rfl, hn, hall, hd⟩
      · refine .inl ⟨by simp [hb, hn], ?_⟩
        simpa [hb] using hall
      · refine .inr ⟨b :: run, d, rest, rfl, by simp [hb, hn], ?_, hd⟩
        simpa [hb] using hall

theorem plainByte_out (hout : s.inFrame = false) (b : UInt8) : plainByte s b = ([], s) := by
  simp [plainByte, hout]

theorem bulkByte_plain {b : UInt8} (he : s.escaped = false) (hb : ¬IsDelimiter b) :
    bulkByte w s b = plainByte s b := by
  obtain ⟨h₁, h₂⟩ := not_or.mp hb
  simp [bulkByte, he, h₁, h₂]

theorem mealy_plain_out {run : Bytes} (he : s.escaped = false) (hout : s.inFrame = false)
    (hrun : ∀ b ∈ run, ¬IsDelimiter b) : Stream.mealy (bulkByte w) s run = ([], s) := by
  induction run with
  | nil => rfl
  | cons b run ih =>
    have hb := bulkByte_plain (w := w) he (hrun b (by simp))
    rw [plainByte_out hout] at hb
    simp only [Stream.mealy, hb, ih fun x hx => hrun x (by simp [hx]), List.nil_append]

theorem mealy_plain_run {run : Bytes} (he : s.escaped = false) (hin : s.inFrame = true)
    (hne : run ≠ []) (hrun : ∀ b ∈ run, ¬IsDelimiter b) :
    Stream.mealy (bulkByte w) s run = copyRun s run := by
  induction run generalizing s with
  | nil => exact absurd rfl hne
  | cons b run ih =>
    have hb := bulkByte_plain (w := w) he (hrun b (by simp))
    have hrest : ∀ x ∈ run, ¬IsDelimiter x := fun x hx => hrun x (by simp [hx])
    by_cases hfull : s.rxFrameBuffer.length ≥ maxFrameSize
    · have hp : plainByte s b =
          ([.frameError], { s with rxFrameBuffer := [], inFrame := false }) := by
        simp only [plainByte, hin, hfull, if_true]
      have hspace : maxFrameSize - s.rxFrameBuffer.length = 0 := by omega
      rw [Stream.mealy, hb, hp, mealy_plain_out (by simpa using he) rfl hrest]
      simp only [copyRun, hspace, List.length_cons, Nat.le_zero, Nat.add_one_ne_zero, if_false,
        List.append_nil]
    · have hp : plainByte s b = ([], { s with rxFrameBuffer := s.rxFrameBuffer ++ [b] }) := by
        simp only [plainByte, hin, hfull, if_true, if_false]
      rw [Stream.mealy, hb, hp]
      cases run with
      | nil =>
        have hspace : ([b] : Bytes).length ≤ maxFrameSize - s.rxFrameBuffer.length := by
          simp only [List.length_singleton]
          omega
        simp only [Stream.mealy, copyRun, hspace, if_true, List.append_nil]
      | cons b' run =>
        rw [ih (s := { s with rxFrameBuffer := s.rxFrameBuffer ++ [b] }) he hin (by simp) hrest]
        have hiff : (b' :: run).length ≤ maxFrameSize - (s.rxFrameBuffer ++ [b]).length ↔
            (b :: b' :: run).length ≤ maxFrameSize - s.rxFrameBuffer.length := by
          simp only [List.length_append, List.length_cons, List.length_nil]
          omega
        simp only [copyRun, hiff]
        split <;> simp

theorem bulkByte_delimiter {d : UInt8} (he : s.escaped = false) (hd : IsDelimiter d) :
    bulkByte w s d = if d = fend then frameEnd w s else ([], frameEscape s) := by
  rcases hd with rfl | rfl <;> simp [bulkByte, he]

theorem copyRun_escaped (run : Bytes) : (copyRun s run).2.escaped = s.escaped := by
  simp only [copyRun]
  split <;> rfl

theorem decodeKiss_eq_mealy (s : DecoderState) (data : Bytes) :
    decodeKiss w s data = Stream.mealy (bulkByte w) s data := by
  induction hn : data.length using Nat.strong_induction_on generalizing s data with
  | _ n ih =>
    rcases data with _ | ⟨b, rest⟩
    · simp only [decodeKiss, Stream.mealy]
    · by_cases he : s.escaped = true
      · have hb : bulkByte w s b = unescape w s b := by simp [bulkByte, he]
        rw [decodeKiss, if_pos he]
        simp only [Stream.mealy, hb, ih rest.length (by simp [← hn]) _ rest rfl]
      · have he' : s.escaped = false := by simpa using he
        -- the run before the next delimiter
        have hcopy : ∀ run : Bytes, (∀ x ∈ run, ¬IsDelimiter x) →
            (if (decide (run.length > 0) && s.inFrame) = true then copyRun s run else ([], s)) =
              Stream.mealy (bulkByte w) s run := by
          intro run hrun
          cases hin : s.inFrame with
          | false => simp [mealy_plain_out he' hin hrun]
          | true =>
            by_cases hne : run = []
            · simp [hne, Stream.mealy]
            · have hpos : run.length > 0 := List.length_pos_of_ne_nil hne
              simp [hpos, mealy_plain_run he' hin hne hrun]
        rw [decodeKiss, if_neg he]
        rcases nextDelimiter_spec (b :: rest) with
          ⟨hnone, hall⟩ | ⟨run, d, tail, hdata, hnxt, hrun, hd⟩
        · simp only [hnone, Option.getD_none, List.take_length]
          exact hcopy (b :: rest) hall
        · have hlen : tail.length < n := by
            rw [← hn, hdata]
            simp only [List.length_append, List.length_cons]
            omega
          have hr := hcopy run hrun
          have hesc : (Stream.mealy (bulkByte w) s run).2.escaped = false := by
            rw [← hr]
            split
            · rw [copyRun_escaped, he']
            · exact he'
          have htake : (b :: rest).take ((nextDelimiter (b :: rest)).getD (b :: rest).length) =
              run := by
            rw [hnxt, Option.getD_some, hdata, List.take_left]
          have hdrop : (b :: rest).drop ((nextDelimiter (b :: rest)).getD (b :: rest).length) =
              d :: tail := by
            rw [hnxt, Option.getD_some, hdata, List.drop_left]
          dsimp only
          split
          · rename_i hnone
            rw [hnxt] at hnone
            cases hnone
          · split
            · rename_i hnil
              rw [hdrop] at hnil
              cases hnil
            · rename_i hcons
              rw [hdrop] at hcons
              cases hcons
              rw [htake, hnxt, Option.getD_some, hr, hdata, Stream.mealy_append]
              simp only [Stream.mealy, bulkByte_delimiter hesc hd, ih tail.length hlen _ tail rfl,
                List.append_assoc]

def framesOf (events : List DecoderEvent) : List Bytes :=
  events.filterMap fun
    | .frame buffer => some buffer
    | .frameError => none

def errorsOf (events : List DecoderEvent) : ℕ := events.count .frameError

@[simp] theorem framesOf_append (es es' : List DecoderEvent) :
    framesOf (es ++ es') = framesOf es ++ framesOf es' :=
  List.filterMap_append

@[simp] theorem errorsOf_append (es es' : List DecoderEvent) :
    errorsOf (es ++ es') = errorsOf es + errorsOf es' :=
  List.count_append

@[simp] theorem framesOf_nil : framesOf [] = [] := rfl

@[simp] theorem errorsOf_nil : errorsOf [] = 0 := rfl

@[simp] theorem framesOf_frameError_cons (es : List DecoderEvent) :
    framesOf (.frameError :: es) = framesOf es := rfl

@[simp] theorem errorsOf_frameError_cons (es : List DecoderEvent) :
    errorsOf (.frameError :: es) = errorsOf es + 1 :=
  List.count_cons_self

/-- The same frames, the same number of errors and the same state. -/
def SameBehaviour (r r' : Reaction) : Prop :=
  framesOf r.1 = framesOf r'.1 ∧ errorsOf r.1 = errorsOf r'.1 ∧ r.2 = r'.2

def throughFend : Bytes → Bytes
  | [] => []
  | b :: bs => if b = fend then [b] else b :: throughFend bs

def afterFend : Bytes → Bytes
  | [] => []
  | b :: bs => if b = fend then bs else afterFend bs

theorem afterFend_length_le (bs : Bytes) : (afterFend bs).length ≤ bs.length := by
  induction bs with
  | nil => rfl
  | cons b bs ih =>
    rw [afterFend]
    split
    · simp
    · exact ih.trans (by simp)

theorem throughFend_append_afterFend (bs : Bytes) : throughFend bs ++ afterFend bs = bs := by
  induction bs with
  | nil => rfl
  | cons b bs ih =>
    rw [throughFend, afterFend]
    split
    · rfl
    · rw [List.cons_append, ih]

theorem throughFend_spec (bs : Bytes) :
    (throughFend bs = bs ∧ afterFend bs = [] ∧ ∀ b ∈ bs, b ≠ fend) ∨
    ∃ pre, throughFend bs = pre ++ [fend] ∧ ∀ b ∈ pre, b ≠ fend := by
  induction bs with
  | nil => exact .inl ⟨rfl, rfl, by simp⟩
  | cons b bs ih =>
    by_cases hb : b = fend
    · exact .inr ⟨[], by simp [throughFend, hb], by simp⟩
    · rcases ih with ⟨h₁, h₂, h₃⟩ | ⟨pre, h₁, h₃⟩
      · refine .inl ⟨by simp [throughFend, hb, h₁], by simp [afterFend, hb, h₂], ?_⟩
        simpa [hb] using h₃
      · refine .inr ⟨b :: pre, by simp [throughFend, hb, h₁], ?_⟩
        simpa [hb] using h₃

/-- Before the next FEND comes an escape sequence that stands for nothing, or a byte for which a
buffer of `n` bytes has no room left. -/
def Spoiled (w : Wrapper) (inFrame : Bool) : (escaped : Bool) → (n : ℕ) → Bytes → Prop
  | _, _, [] => False
  | escaped, n, b :: bs =>
    if b = fend then False
    else if b = fesc then Spoiled w inFrame (escaped || inFrame) n bs
    else if escaped then
      b ≠ tfend ∧ b ≠ tfesc ∨ w.capsDecoded = true ∧ maxFrameSize ≤ n ∨
        Spoiled w inFrame false (n + 1) bs
    else inFrame = true ∧ (maxFrameSize ≤ n ∨ Spoiled w inFrame false (n + 1) bs)

/-- A delimiter that meets a pending escape completes no frame, and the frame that is open after it
is spoiled. -/
def ClashSpoils (w : Wrapper) (s : DecoderState) (b : UInt8) (bs : Bytes) : Prop :=
  if b = fend then
    ¬(s.inFrame = true ∧ w.ignoredLength < s.rxFrameBuffer.length) ∧ Spoiled w true false 0 bs
  else Spoiled w s.inFrame true s.rxFrameBuffer.length bs

/-- Every delimiter that arrives while an escape is pending spoils what comes before the next
FEND. -/
def Recovers (w : Wrapper) (s : DecoderState) : Bytes → Prop
  | [] => True
  | b :: bs =>
    if s.escaped = true ∧ IsDelimiter b then
      ClashSpoils w s b bs ∧ Recovers w .opened (afterFend bs)
    else Recovers w (decodeKissByte w s b).2 bs
termination_by bs => bs.length
decreasing_by
  · have := afterFend_length_le bs
    simp only [List.length_cons]
    omega
  · simp

theorem bulkByte_eq {b : UInt8} (h : ¬(s.escaped = true ∧ IsDelimiter b)) :
    bulkByte w s b = decodeKissByte w s b := by
  unfold bulkByte decodeKissByte
  by_cases he : s.escaped = true
  · obtain ⟨h₁, h₂⟩ := not_or.mp fun hd => h ⟨he, hd⟩
    simp [he, h₁, h₂]
  · simp [he]

theorem decodeKissByte_resync {b : UInt8} (hb : b ≠ fend) :
    decodeKissByte w .resync b = ([], .resync) := by
  simp [decodeKissByte, hb, DecoderState.resync, frameEscape, plainByte]

theorem mealy_resync {bs : Bytes} (hbs : ∀ b ∈ bs, b ≠ fend) :
    Stream.mealy (decodeKissByte w) .resync bs = ([], .resync) := by
  induction bs with
  | nil => rfl
  | cons b bs ih =>
    simp only [Stream.mealy, decodeKissByte_resync (hbs b (by simp)),
      ih fun x hx => hbs x (by simp [hx]), List.nil_append]

theorem decodeKissByte_unescape {b : UInt8} (h₁ : b ≠ fend) (h₂ : b ≠ fesc)
    (he : s.escaped = true) : decodeKissByte w s b =
      if (b ≠ tfend ∧ b ≠ tfesc) ∨ w.capsDecoded = true ∧ maxFrameSize ≤ s.rxFrameBuffer.length then
        ([.frameError], .resync)
      else ([], { s with
        escaped := false
        rxFrameBuffer := s.rxFrameBuffer ++ [if b = tfend then fend else fesc] }) := by
  simp only [decodeKissByte, h₁, h₂, he, if_false, if_true, unescape, w.append_spec]
  by_cases h₃ : b = tfend
  · simp [h₃]
  · by_cases h₄ : b = tfesc
    · simp [h₄, show tfesc ≠ tfend by decide]
    · simp [h₃, h₄]

theorem decodeKissByte_plain {b : UInt8} (h₁ : b ≠ fend) (h₂ : b ≠ fesc)
    (he : s.escaped = false) : decodeKissByte w s b = plainByte s b := by
  simp [decodeKissByte, h₁, h₂, he]

theorem decodeKissByte_inner {b : UInt8} (hb : b ≠ fend) :
    (decodeKissByte w s b).1 = [] ∨ decodeKissByte w s b = ([.frameError], .resync) := by
  by_cases h₂ : b = fesc
  · simp [decodeKissByte, h₂, show fesc ≠ fend by decide]
  · cases he : s.escaped with
    | true =>
      rw [decodeKissByte_unescape hb h₂ he]
      split
      · exact .inr rfl
      · exact .inl rfl
    | false =>
      rw [decodeKissByte_plain hb h₂ he]
      unfold plainByte
      split
      · split
        · exact .inr (by simp [DecoderState.resync, he])
        · exact .inl rfl
      · exact .inl rfl

theorem mealy_inner {bs : Bytes} (hbs : ∀ b ∈ bs, b ≠ fend) :
    (Stream.mealy (decodeKissByte w) s bs).1 = [] ∨
      Stream.mealy (decodeKissByte w) s bs = ([.frameError], .resync) := by
  induction bs generalizing s with
  | nil => exact .inl rfl
  | cons b bs ih =>
    have hrest : ∀ x ∈ bs, x ≠ fend := fun x hx => hbs x (by simp [hx])
    rcases decodeKissByte_inner (w := w) (s := s) (hbs b (by simp)) with h | h
    · simp only [Stream.mealy, h, List.nil_append]
      exact ih hrest
    · right
      simp only [Stream.mealy, h, mealy_resync hrest, List.append_nil]

theorem mealy_bulk_resync {bs : Bytes} (hbs : ∀ b ∈ bs, b ≠ fend) :
    Stream.mealy (bulkByte w) .resync bs = ([], .resync) := by
  induction bs with
  | nil => rfl
  | cons b bs ih =>
    have hb := bulkByte_eq (w := w) (s := .resync) (b := b) (by simp [DecoderState.resync])
    simp only [Stream.mealy, hb, decodeKissByte_resync (hbs b (by simp)),
      ih fun x hx => hbs x (by simp [hx]), List.nil_append]

theorem decodeKissByte_fend (s : DecoderState) : decodeKissByte w s fend = frameEnd w s :=
  if_pos rfl

@[simp] theorem errorsOf_frameEnd (s : DecoderState) : errorsOf (frameEnd w s).1 = 0 := by
  unfold frameEnd
  dsimp only
  split <;> rfl

/-- Out of a frame nothing is completed and nothing is lost through the next FEND. -/
theorem mealy_resync_throughFend (bs : Bytes) :
    (Stream.mealy (decodeKissByte w) .resync (throughFend bs)).1 = [] := by
  rcases throughFend_spec bs with ⟨hseg, -, hbs⟩ | ⟨pre, hseg, hpre⟩
  · rw [hseg, mealy_resync hbs]
  · rw [hseg, Stream.mealy_append, mealy_resync hpre]
    simp [Stream.mealy, decodeKissByte_fend, frameEnd, DecoderState.resync]

/-- The byte-wise decoder completes no frame and counts one error through the next FEND. -/
def LosesOne (r : Reaction) : Prop := framesOf r.1 = [] ∧ errorsOf r.1 = 1

theorem losesOne_cons_nil {b : UInt8} {t : DecoderState} (bs : Bytes)
    (h : decodeKissByte w s b = ([], t)) :
    LosesOne (Stream.mealy (decodeKissByte w) s (b :: bs)) ↔
      LosesOne (Stream.mealy (decodeKissByte w) t bs) := by
  simp only [Stream.mealy, h, LosesOne, List.nil_append]

theorem losesOne_cons_error {b : UInt8} (bs : Bytes)
    (h : decodeKissByte w s b = ([.frameError], .resync)) :
    LosesOne (Stream.mealy (decodeKissByte w) s (b :: throughFend bs)) := by
  simp [Stream.mealy, h, LosesOne, mealy_resync_throughFend]

theorem not_spoiled_out (n : ℕ) (bs : Bytes) : ¬Spoiled w false false n bs := by
  induction bs with
  | nil => simp [Spoiled]
  | cons b bs ih => simp [Spoiled, ih]

/-- The byte-wise decoder loses a frame and nothing else through the next FEND exactly if the frame
is spoiled. -/
theorem losesOne_throughFend_iff (s : DecoderState) (bs : Bytes) :
    LosesOne (Stream.mealy (decodeKissByte w) s (throughFend bs)) ↔
      Spoiled w s.inFrame s.escaped s.rxFrameBuffer.length bs := by
  induction bs generalizing s with
  | nil => simp [throughFend, Stream.mealy, LosesOne, Spoiled]
  | cons b bs ih =>
    rw [throughFend, Spoiled]
    by_cases h₁ : b = fend
    · simp [h₁, Stream.mealy, LosesOne, decodeKissByte_fend]
    · rw [if_neg h₁, if_neg h₁]
      by_cases h₂ : b = fesc
      · have hesc : decodeKissByte w s b = ([], frameEscape s) := by
          simp [decodeKissByte, h₂, show fesc ≠ fend by decide]
        rw [if_pos h₂, losesOne_cons_nil _ hesc, ih]
        cases hin : s.inFrame <;> simp [frameEscape, hin]
      · rw [if_neg h₂]
        cases he : s.escaped with
        | true =>
          have hbyte := decodeKissByte_unescape (w := w) h₁ h₂ he
          rw [if_pos rfl, ← or_assoc]
          split at hbyte
          · rename_i hbad
            exact iff_of_true (losesOne_cons_error bs hbyte) (.inl hbad)
          · rename_i hgood
            rw [losesOne_cons_nil _ hbyte, ih]
            simp [hgood]
        | false =>
          have hbyte := decodeKissByte_plain (w := w) h₁ h₂ he
          rw [if_neg (by simp)]
          unfold plainByte at hbyte
          split at hbyte
          · rename_i hin
            split at hbyte
            · rename_i hfull
              have hresync : { s with rxFrameBuffer := [], inFrame := false } =
                  DecoderState.resync := by
                rw [DecoderState.resync, ← he]
              rw [hresync] at hbyte
              exact iff_of_true (losesOne_cons_error bs hbyte) ⟨hin, .inl hfull⟩
            · rename_i hroom
              rw [losesOne_cons_nil _ hbyte, ih]
              simp only [List.length_append, List.length_singleton, hin, he, true_and]
              exact (or_iff_right hroom).symm
          · rename_i hout
            rw [Bool.not_eq_true] at hout
            rw [losesOne_cons_nil _ hbyte, ih, he, hout]
            simp [not_spoiled_out]

theorem losesOne_clash_iff {b : UInt8} (bs : Bytes) (he : s.escaped = true)
    (hd : IsDelimiter b) :
    LosesOne (Stream.mealy (decodeKissByte w) s (b :: throughFend bs)) ↔
      ClashSpoils w s b bs := by
  rcases hd with rfl | rfl
  · by_cases hframe : s.inFrame = true ∧ w.ignoredLength < s.rxFrameBuffer.length
    · simp [ClashSpoils, hframe, LosesOne, Stream.mealy, decodeKissByte_fend, frameEnd, framesOf]
    · have hopen : decodeKissByte w s fend = ([], .opened) := by
        rw [decodeKissByte_fend, frameEnd, if_neg (by simpa using hframe)]
      rw [losesOne_cons_nil _ hopen, losesOne_throughFend_iff, ClashSpoils, if_pos rfl]
      exact (and_iff_right hframe).symm
  · have hesc : decodeKissByte w s fesc = ([], s) := by
      simp only [decodeKissByte, show fesc ≠ fend by decide, if_false, if_true, frameEscape, ← he]
      exact congrArg _ (ite_self s)
    rw [losesOne_cons_nil _ hesc, losesOne_throughFend_iff, he, ClashSpoils,
      if_neg (by decide)]

theorem errorsOf_delimiter {b : UInt8} (hd : IsDelimiter b) :
    errorsOf (decodeKissByte w s b).1 = 0 := by
  rcases hd with rfl | rfl
  · rw [decodeKissByte_fend, errorsOf_frameEnd]
  · simp [decodeKissByte, show fesc ≠ fend by decide, errorsOf]

/-- From a delimiter that meets a pending escape through the next FEND: the bulk decoder counts one
error, the byte-wise decoder at most one. -/
theorem clash_segment {b : UInt8} (bs : Bytes) (he : s.escaped = true) (hd : IsDelimiter b) :
    ∃ σ, Stream.mealy (bulkByte w) s (b :: throughFend bs) = ([.frameError], σ) ∧
      errorsOf (Stream.mealy (decodeKissByte w) s (b :: throughFend bs)).1 ≤ 1 ∧
      (σ = .opened ∧ (Stream.mealy (decodeKissByte w) s (b :: throughFend bs)).2 = .opened ∨
        afterFend bs = []) ∧
      (errorsOf (Stream.mealy (decodeKissByte w) s (b :: throughFend bs)).1 = 1 →
        (Stream.mealy (decodeKissByte w) s (b :: throughFend bs)).2 = σ) := by
  have hclash : bulkByte w s b = ([.frameError], .resync) := by
    rcases hd with rfl | rfl <;> simp [bulkByte, he, unescape, fend, fesc, tfend, tfesc]
  have herr := errorsOf_delimiter (w := w) (s := s) hd
  rcases throughFend_spec bs with ⟨hseg, hnone, hbs⟩ | ⟨pre, hseg, hpre⟩
  · rw [hseg]
    refine ⟨.resync,
      by simp only [Stream.mealy, hclash, mealy_bulk_resync hbs, List.append_nil], ?_,
      .inr hnone, ?_⟩
    · rcases mealy_inner (w := w) (s := (decodeKissByte w s b).2) hbs with h | h <;>
        simp [Stream.mealy, h, herr]
    · rcases mealy_inner (w := w) (s := (decodeKissByte w s b).2) hbs with h | h
      · intro hone
        simp [Stream.mealy, h, herr] at hone
      · intro _
        simp only [Stream.mealy, h]
  · rw [hseg]
    have hopen : (Stream.mealy (decodeKissByte w) s (b :: (pre ++ [fend]))).2 = .opened := by
      simp only [Stream.mealy, Stream.mealy_append, decodeKissByte_fend, frameEnd]
    refine ⟨.opened, ?_, ?_, .inl ⟨rfl, hopen⟩, fun _ => hopen⟩
    · have hfend : bulkByte w .resync fend = ([], .opened) := by
        simp [bulkByte, DecoderState.resync, frameEnd]
      simp only [Stream.mealy, hclash, Stream.mealy_append, mealy_bulk_resync hpre, hfend,
        List.append_nil]
    · rcases mealy_inner (w := w) (s := (decodeKissByte w s b).2) hpre with h | h <;>
        simp [Stream.mealy, Stream.mealy_append, h, herr, decodeKissByte_fend]

/-- The bulk decoder counts no fewer errors, completes no more frames, and behaves as the byte-wise
one exactly if every delimiter that meets a pending escape spoils what follows it. -/
theorem bulk_compare (w : Wrapper) (s : DecoderState) (bs : Bytes) :
    errorsOf (Stream.mealy (decodeKissByte w) s bs).1 ≤
      errorsOf (Stream.mealy (bulkByte w) s bs).1 ∧
    (framesOf (Stream.mealy (bulkByte w) s bs).1).length ≤
      (framesOf (Stream.mealy (decodeKissByte w) s bs).1).length ∧
    (SameBehaviour (Stream.mealy (bulkByte w) s bs) (Stream.mealy (decodeKissByte w) s bs) ↔
      Recovers w s bs) := by
  induction hn : bs.length using Nat.strong_induction_on generalizing s bs with
  | _ n ih =>
    rcases bs with _ | ⟨b, bs⟩
    · simp [Stream.mealy, SameBehaviour, Recovers]
    · rw [Recovers]
      by_cases hclash : s.escaped = true ∧ IsDelimiter b
      · rw [if_pos hclash]
        obtain ⟨σ, hbulk, hle, hstate, hone⟩ := clash_segment (w := w) bs hclash.1 hclash.2
        have hsplit : b :: bs = (b :: throughFend bs) ++ afterFend bs := by
          rw [List.cons_append, throughFend_append_afterFend]
        have hlen : (afterFend bs).length < n := by
          have := afterFend_length_le bs
          simp only [List.length_cons] at hn
          omega
        rw [hsplit, Stream.mealy_append, Stream.mealy_append, hbulk,
          ← losesOne_clash_iff bs hclash.1 hclash.2, LosesOne]
        dsimp only
        generalize Stream.mealy (decodeKissByte w) s (b :: throughFend bs) = r at *
        rcases hstate with ⟨rfl, hopen⟩ | hnil
        · obtain ⟨ierr, ifrm, isame⟩ := ih _ hlen .opened (afterFend bs) rfl
          rw [hopen, ← isame]
          simp only [List.singleton_append, errorsOf_frameError_cons, framesOf_frameError_cons,
            errorsOf_append, framesOf_append, List.length_append, SameBehaviour, and_assoc]
          refine ⟨by omega, by omega, ?_, ?_⟩
          · rintro ⟨hfrm, herr, hstate⟩
            have hlen := congrArg List.length hfrm
            rw [List.length_append] at hlen
            have hnone : framesOf r.1 = [] := List.length_eq_zero_iff.mp (by omega)
            rw [hnone, List.nil_append] at hfrm
            exact ⟨hnone, by omega, hfrm, by omega, hstate⟩
          · rintro ⟨hnone, hone, hfrm, herr, hstate⟩
            exact ⟨by rw [hnone, List.nil_append, hfrm], by omega, hstate⟩
        · rw [hnil]
          simp only [Stream.mealy, List.append_nil, SameBehaviour, errorsOf_frameError_cons,
            framesOf_frameError_cons, errorsOf_nil, framesOf_nil, List.length_nil, Recovers]
          refine ⟨by omega, by omega, ?_, ?_⟩
          · rintro ⟨hfrm, herr, -⟩
            exact ⟨⟨hfrm.symm, by omega⟩, trivial⟩
          · rintro ⟨⟨hfrm, herr⟩, -⟩
            exact ⟨hfrm.symm, by omega, (hone herr).symm⟩
      · rw [if_neg hclash]
        obtain ⟨ierr, ifrm, isame⟩ := ih bs.length (by simp [← hn]) (decodeKissByte w s b).2 bs rfl
        simp only [Stream.mealy, bulkByte_eq hclash, errorsOf_append, framesOf_append,
          List.length_append, SameBehaviour, List.append_cancel_left_eq, Nat.add_left_cancel_iff]
        exact ⟨by omega, by omega, isame⟩

theorem feed_decodeKiss (w : Wrapper) (s : DecoderState) (chunks : List Bytes) :
    Stream.feed (decodeKiss w) s chunks = Stream.mealy (bulkByte w) s chunks.flatten := by
  rw [← Stream.feed_mealy]
  exact Stream.feed_congr (fun c _ s => decodeKiss_eq_mealy s c) s

/-- However a byte string is cut, the bulk decoder behaves as the byte-wise one exactly when every
delimiter that meets a pending escape completes no frame and before the next FEND comes an invalid
escape or a byte too many. -/
theorem decodeKiss_sameBehaviour_iff (s : DecoderState) (chunks : List Bytes) :
    (SameBehaviour (Stream.feed KissModemWrapper.decodeKiss s chunks)
        (Stream.mealy KissModemWrapper.decodeKissByte s chunks.flatten) ↔
      Recovers KissModemWrapper.wrapper s chunks.flatten) ∧
    (SameBehaviour (Stream.feed KissSerialWrapper.decodeKiss s chunks)
        (Stream.mealy KissSerialWrapper.decodeKissByte s chunks.flatten) ↔
      Recovers KissSerialWrapper.wrapper s chunks.flatten) := by
  have key : ∀ w : Wrapper, SameBehaviour (Stream.feed (decodeKiss w) s chunks)
      (Stream.mealy (decodeKissByte w) s chunks.flatten) ↔ Recovers w s chunks.flatten := by
    intro w
    rw [feed_decodeKiss]
    exact (bulk_compare w s chunks.flatten).2.2
  exact ⟨key _, key _⟩

/-- A truncated frame that ends in an escape: the bulk decoder swallows the FEND and with it the
frame that follows. -/
theorem decodeKiss_loses_frame :
    let data : Bytes := [0xC0, 0x00, 0x41, 0xDB, 0xC0, 0x00, 0x42, 0xC0]
    (framesOf (Stream.feed KissModemWrapper.decodeKiss {} [data]).1 = [] ∧
      framesOf (Stream.mealy KissModemWrapper.decodeKissByte {} data).1 =
        [[0x00, 0x41], [0x00, 0x42]]) ∧
    (framesOf (Stream.feed KissSerialWrapper.decodeKiss {} [data]).1 = [] ∧
      framesOf (Stream.mealy KissSerialWrapper.decodeKissByte {} data).1 =
        [[0x00, 0x41], [0x00, 0x42]]) := by
  intro data
  simp only [KissModemWrapper.decodeKiss, KissSerialWrapper.decodeKiss, feed_decodeKiss]
  decide

theorem plainByte_buffer_le (hs : s.rxFrameBuffer.length ≤ maxFrameSize) (b : UInt8) :
    (plainByte s b).2.rxFrameBuffer.length ≤ maxFrameSize := by
  unfold plainByte
  split
  · split
    · exact Nat.zero_le _
    · simp only [List.length_append, List.length_singleton]
      omega
  · exact hs

theorem serial_appendDecoded_buffer_le (s : DecoderState) (b : UInt8) :
    (KissSerialWrapper.appendDecoded s b).2.rxFrameBuffer.length ≤ maxFrameSize := by
  unfold KissSerialWrapper.appendDecoded
  split
  · exact Nat.zero_le _
  · simp only [List.length_append, List.length_singleton]
    omega

theorem bulkByte_buffer_le (hs : s.rxFrameBuffer.length ≤ maxFrameSize)
    (he : s.escaped = false) (b : UInt8) :
    (bulkByte w s b).2.rxFrameBuffer.length ≤ maxFrameSize := by
  unfold bulkByte
  rw [if_neg (by simp [he])]
  split
  · exact Nat.zero_le _
  · split
    · unfold frameEscape
      split <;> exact hs
    · exact plainByte_buffer_le hs b

theorem serial_bulkByte_buffer_le (hs : s.rxFrameBuffer.length ≤ maxFrameSize) (b : UInt8) :
    (bulkByte KissSerialWrapper.wrapper s b).2.rxFrameBuffer.length ≤ maxFrameSize := by
  cases he : s.escaped with
  | false => exact bulkByte_buffer_le hs he b
  | true =>
    rw [bulkByte, if_pos he, unescape]
    split
    · exact serial_appendDecoded_buffer_le s _
    split
    · exact serial_appendDecoded_buffer_le s _
    · exact Nat.zero_le _

theorem serial_feed_buffer_le (chunks : List Bytes) (hs : s.rxFrameBuffer.length ≤ maxFrameSize) :
    (Stream.feed KissSerialWrapper.decodeKiss s chunks).2.rxFrameBuffer.length ≤
      maxFrameSize := by
  rw [KissSerialWrapper.decodeKiss, feed_decodeKiss]
  induction chunks.flatten generalizing s with
  | nil => exact hs
  | cons b bs ih => exact ih (serial_bulkByte_buffer_le hs b)

/-- One byte short of the limit with an escape pending: the escape fills the buffer, and the next
one does not fit. -/
theorem serial_feed_buffer_le_full :
    let s : DecoderState := ⟨true, true, List.replicate 511 1⟩
    (Stream.feed KissSerialWrapper.decodeKiss s [[tfend]]).2.rxFrameBuffer.length = maxFrameSize ∧
      (Stream.feed KissSerialWrapper.decodeKiss s [[tfend], [fesc], [tfend]]).2.rxFrameBuffer.length
        ≤ maxFrameSize := by
  intro s
  have hs : s.rxFrameBuffer.length = 511 := List.length_replicate
  have hbyte : bulkByte KissSerialWrapper.wrapper s tfend =
      ([], ⟨true, false, s.rxFrameBuffer ++ [fend]⟩) :=
    serial_fills s fend (by rw [hs]; decide)
  refine ⟨?_, serial_feed_buffer_le _ (by rw [hs]; decide)⟩
  rw [KissSerialWrapper.decodeKiss, feed_decodeKiss, List.flatten_singleton]
  simp only [Stream.mealy, hbyte, List.length_append, hs, List.length_singleton, maxFrameSize]

/-- An escape pair is completed while the buffer is full. -/
def CompletesEscapeFull (s : DecoderState) (byte : UInt8) : Prop :=
  s.escaped = true ∧ (byte = tfend ∨ byte = tfesc) ∧ maxFrameSize ≤ s.rxFrameBuffer.length

theorem modem_unescape_buffer_le_iff (hs : s.rxFrameBuffer.length ≤ maxFrameSize)
    (he : s.escaped = true) (b : UInt8) :
    (unescape KissModemWrapper.wrapper s b).2.rxFrameBuffer.length ≤ maxFrameSize ↔
      ¬CompletesEscapeFull s b := by
  have happend : ∀ c, (KissModemWrapper.wrapper.appendDecoded s c).2.rxFrameBuffer.length =
      s.rxFrameBuffer.length + 1 := fun c => List.length_append
  unfold unescape CompletesEscapeFull
  split
  · rename_i hb
    rw [happend]
    simp only [he, hb, true_or, true_and]
    omega
  · rename_i h₁
    split
    · rename_i hb
      rw [happend]
      simp only [he, hb, or_true, true_and]
      omega
    · rename_i h₂
      simp [h₁, h₂, DecoderState.resync]

theorem modem_bulkByte_buffer_le_iff (s : DecoderState) (b : UInt8)
    (hs : s.rxFrameBuffer.length ≤ maxFrameSize) :
    (bulkByte KissModemWrapper.wrapper s b).2.rxFrameBuffer.length ≤ maxFrameSize ↔
      ¬CompletesEscapeFull s b := by
  cases he : s.escaped with
  | false => simp [CompletesEscapeFull, he, bulkByte_buffer_le hs he b]
  | true =>
    rw [bulkByte, if_pos he]
    exact modem_unescape_buffer_le_iff hs he b

theorem modem_decodeKissByte_buffer_le_iff (s : DecoderState) (b : UInt8)
    (hs : s.rxFrameBuffer.length ≤ maxFrameSize) :
    (KissModemWrapper.decodeKissByte s b).2.rxFrameBuffer.length ≤ maxFrameSize ↔
      ¬CompletesEscapeFull s b := by
  by_cases hclash : s.escaped = true ∧ IsDelimiter b
  · have hb : ¬CompletesEscapeFull s b := by
      rintro ⟨-, hb | hb, -⟩ <;> rcases hclash.2 with h | h <;> rw [h] at hb <;>
        exact absurd hb (by decide)
    rw [iff_true_right hb]
    rcases hclash.2 with rfl | rfl
    · exact Nat.zero_le _
    · simp only [KissModemWrapper.decodeKissByte, decodeKissByte, show fesc ≠ fend by decide,
        if_false, if_true, frameEscape]
      split <;> exact hs
  · rw [KissModemWrapper.decodeKissByte, ← bulkByte_eq hclash]
    exact modem_bulkByte_buffer_le_iff s b hs

/-- With either decoder and however the stream is cut, the modem wrapper's buffer stays within
`maxFrameSize` exactly if no escape pair is completed while the buffer is full. -/
theorem modem_buffer_le_iff (stream : Bytes) :
    ((∀ pre, pre <+: stream →
        (Stream.mealy KissModemWrapper.decodeKissByte {} pre).2.rxFrameBuffer.length ≤
          maxFrameSize) ↔
      ∀ pre b, pre ++ [b] <+: stream →
        ¬CompletesEscapeFull (Stream.mealy KissModemWrapper.decodeKissByte {} pre).2 b) ∧
    ((∀ chunks : List Bytes, chunks.flatten <+: stream →
        (Stream.feed KissModemWrapper.decodeKiss {} chunks).2.rxFrameBuffer.length ≤
          maxFrameSize) ↔
      ∀ (chunks : List Bytes) b, chunks.flatten ++ [b] <+: stream →
        ¬CompletesEscapeFull (Stream.feed KissModemWrapper.decodeKiss {} chunks).2 b) := by
  have hzero : ({} : DecoderState).rxFrameBuffer.length ≤ maxFrameSize := Nat.zero_le _
  refine ⟨Stream.mealy_always_iff modem_decodeKissByte_buffer_le_iff hzero stream, ?_⟩
  have hbulk := Stream.mealy_always_iff modem_bulkByte_buffer_le_iff hzero stream
  have hone : ∀ pre : Bytes, [pre].flatten = pre := fun pre => by simp
  simp only [KissModemWrapper.decodeKiss, feed_decodeKiss]
  constructor
  · intro h chunks b hpre
    exact hbulk.mp (fun pre hp => hone pre ▸ h [pre] (by rwa [hone])) _ b hpre
  · intro h chunks hpre
    exact hbulk.mpr (fun pre b hp => hone pre ▸ h [pre] b (by rwa [hone])) _ hpre

theorem mealy_escapes {f : DecoderState → UInt8 → Reaction}
    (hpair : ∀ buf, Stream.mealy f ⟨true, false, buf⟩ [fesc, tfend] =
      ([], ⟨true, false, buf ++ [fend]⟩)) (n : ℕ) (buf : Bytes) :
    Stream.mealy f ⟨true, false, buf⟩ (List.replicate n [fesc, tfend]).flatten =
      ([], ⟨true, false, buf ++ List.replicate n fend⟩) := by
  induction n generalizing buf with
  | zero => simp [Stream.mealy]
  | succ n ih =>
    rw [List.replicate_succ, List.flatten_cons, Stream.mealy_append, hpair, ih]
    simp [List.replicate_succ]

/-- A frame of 513 escape pairs: both decoders hold 513 bytes. -/
theorem modem_buffer_overfull :
    let stream : Bytes := fend :: (List.replicate 513 [fesc, tfend]).flatten
    (Stream.mealy KissModemWrapper.decodeKissByte {} stream).2.rxFrameBuffer.length = 513 ∧
    (Stream.feed KissModemWrapper.decodeKiss {} [stream]).2.rxFrameBuffer.length = 513 ∧
    maxFrameSize < 513 := by
  intro stream
  refine ⟨?_, ?_, by decide⟩
  · have h := mealy_escapes (f := KissModemWrapper.decodeKissByte) (fun _ => rfl) 513 []
    have hstart : KissModemWrapper.decodeKissByte {} fend = ([], ⟨true, false, []⟩) := rfl
    simp only [stream, Stream.mealy, hstart, h, List.nil_append, List.length_replicate]
  · have h := mealy_escapes (f := bulkByte KissModemWrapper.wrapper) (fun _ => rfl) 513 []
    have hstart : bulkByte KissModemWrapper.wrapper {} fend = ([], ⟨true, false, []⟩) := rfl
    rw [KissModemWrapper.decodeKiss, feed_decodeKiss, List.flatten_singleton]
    simp only [stream, Stream.mealy, hstart, h, List.nil_append, List.length_replicate]

end OpenHop.Kiss
