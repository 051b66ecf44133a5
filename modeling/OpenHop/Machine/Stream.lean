import Mathlib.Data.List.Basic
import Mathlib.Data.List.Induction

/-! # Components fed in chunks

A component consumes an input list and returns outputs and a new state. Fed with
chunks it should behave as if fed with their concatenation. Two ways to see that
are provided: the component is the run of a machine that reads one symbol at a
time, or it keeps a buffer of unread input and parses it with a scanner that can
be resumed at any point.
-/

namespace OpenHop.Stream

variable {σ α β : Type*}

/-- The outputs and the state after a list of chunks. -/
def feed (f : σ → List α → List β × σ) : σ → List (List α) → List β × σ
  | s, [] => ([], s)
  | s, c :: cs =>
    let r := f s c
    let r' := feed f r.2 cs
    (r.1 ++ r'.1, r'.2)

theorem feed_congr {f g : σ → List α → List β × σ} {chunks : List (List α)}
    (h : ∀ c ∈ chunks, ∀ s, f s c = g s c) (s : σ) : feed f s chunks = feed g s chunks := by
  induction chunks generalizing s with
  | nil => rfl
  | cons c cs ih =>
    rw [feed, feed, h c (by simp), ih fun c' hc' => h c' (by simp [hc'])]

/-- The outputs and the state of a machine after an input word. -/
def mealy (step : σ → α → List β × σ) : σ → List α → List β × σ
  | s, [] => ([], s)
  | s, a :: as =>
    let r := step s a
    let r' := mealy step r.2 as
    (r.1 ++ r'.1, r'.2)

variable {step : σ → α → List β × σ}

theorem mealy_append (s : σ) (as bs : List α) :
    mealy step s (as ++ bs) =
      ((mealy step s as).1 ++ (mealy step (mealy step s as).2 bs).1,
        (mealy step (mealy step s as).2 bs).2) := by
  induction as generalizing s with
  | nil => rfl
  | cons a as ih => simp only [List.cons_append, mealy, ih, List.append_assoc]

theorem feed_mealy (s : σ) (chunks : List (List α)) :
    feed (mealy step) s chunks = mealy step s chunks.flatten := by
  induction chunks generalizing s with
  | nil => rfl
  | cons c cs ih => rw [feed, ih, List.flatten_cons, mealy_append]

/-- A property that every state keeps up to certain inputs holds all along a word exactly if the
word never presents such an input. -/
theorem mealy_always_iff {P : σ → Prop} {breaks : σ → α → Prop}
    (hstep : ∀ s a, P s → (P (step s a).2 ↔ ¬breaks s a)) {s : σ} (hs : P s) (as : List α) :
    (∀ pre, pre <+: as → P (mealy step s pre).2) ↔
      ∀ pre a, pre ++ [a] <+: as → ¬breaks (mealy step s pre).2 a := by
  constructor
  · intro h pre a hpre hbreak
    have hbefore : P (mealy step s pre).2 := h pre ((List.prefix_append _ _).trans hpre)
    have hafter := h _ hpre
    rw [mealy_append] at hafter
    exact (hstep _ a hbefore).mp hafter hbreak
  · intro h pre
    induction pre using List.reverseRecOn with
    | nil => intro _; exact hs
    | append_singleton pre a ih =>
      intro hpre
      have hbefore := ih ((List.prefix_append _ _).trans hpre)
      rw [mealy_append]
      exact (hstep _ a hbefore).mpr (h pre a hpre)

/-- A scanner that, stopped anywhere, continues from what it left unread. -/
structure Resumable (scan : List α → List β × List α) : Prop where
  append : ∀ a m, scan (a ++ m) =
    ((scan a).1 ++ (scan ((scan a).2 ++ m)).1, (scan ((scan a).2 ++ m)).2)

/-- A parser that finds the outputs of the scanner, but may leave more input unread. -/
structure Defers (scan parse : List α → List β × List α) : Prop where
  outputs : ∀ buf, (scan buf).1 = (parse buf).1
  settled : ∀ buf, (scan buf).2 = (scan (parse buf).2).2
  rest : ∀ buf, (scan (parse buf).2).1 = []

variable {scan parse : List α → List β × List α}

theorem feed_outputs_of_rest (hs : Resumable scan) (hp : Defers scan parse) {buf : List α}
    (hbuf : (scan buf).1 = []) (chunks : List (List α)) :
    (feed (fun buf c => parse (buf ++ c)) buf chunks).1 = (scan (buf ++ chunks.flatten)).1 := by
  induction chunks generalizing buf with
  | nil => simpa [feed] using hbuf.symm
  | cons c cs ih =>
    have hrest := hp.rest (buf ++ c)
    have hnext : (scan ((parse (buf ++ c)).2 ++ cs.flatten)).1 =
        (scan ((scan (buf ++ c)).2 ++ cs.flatten)).1 := by
      rw [hs.append, hrest, ← hp.settled (buf ++ c), List.nil_append]
    calc (feed (fun buf c => parse (buf ++ c)) buf (c :: cs)).1
        = (parse (buf ++ c)).1 ++ (scan ((scan (buf ++ c)).2 ++ cs.flatten)).1 := by
          rw [feed, ih hrest, hnext]
      _ = (scan (buf ++ c ++ cs.flatten)).1 := by rw [hs.append (buf ++ c), hp.outputs (buf ++ c)]
      _ = (scan (buf ++ (c :: cs).flatten)).1 := by rw [List.flatten_cons, List.append_assoc]

theorem feed_outputs (hs : Resumable scan) (hp : Defers scan parse) (hnil : (scan []).1 = [])
    (chunks : List (List α)) :
    (feed (fun buf c => parse (buf ++ c)) [] chunks).1 = (scan chunks.flatten).1 :=
  feed_outputs_of_rest hs hp hnil chunks

end OpenHop.Stream
