import Mathlib.Algebra.Ring.Int.Defs
import Mathlib.Data.Int.Order.Basic
import ReactorRuntime.Lists.Rows

/-!
# Cutting a byte stream into frames

`StreamFramer`.  A sample is an integer in the range of `int16`.  The resampler of the SDK is a
parameter, with its state: what it gives back for the samples that it is given, and for a flush.
-/

namespace ReactorRuntime.LiveKit

open ReactorRuntime.Lists (rows rest)

/-- A sample of `pcm_s16le`. -/
def sample (low high : UInt8) : ℤ := Int.bmod (low.toNat + 256 * high.toNat) 65536

/-- The samples of some bytes: `np.frombuffer`. -/
def samplesOf : List UInt8 → List ℤ
  | low :: high :: data => sample low high :: samplesOf data
  | [_] => []
  | [] => []

/-- The mean of `n` samples with that sum, rounded to the nearest integer, and a half to the even
one. -/
def roundedMean (sum : ℤ) (n : ℕ) : ℤ :=
  if 2 * (sum % n) < n then sum / n
  else if n < 2 * (sum % n) then sum / n + 1
  else if 2 ∣ sum / n then sum / n
  else sum / n + 1

/-- Samples of several channels, mixed down. -/
def mono (channels : ℕ) (samples : List ℤ) : List ℤ :=
  if 1 < channels then (rows channels samples).map fun group => roundedMean group.sum channels
  else samples

/-- `rtc.AudioResampler`. -/
structure Resampler (σ : Type) where
  new : (streamRate rate : ℕ) → σ
  push : σ → List ℤ → List ℤ × σ
  flush : σ → List ℤ × σ

structure StreamFramer (σ : Type) where
  channels : ℕ
  frame : ℕ
  bytes : List UInt8 := []
  pending : List ℤ := []
  resampler : Option σ

namespace StreamFramer

variable {σ : Type} (R : Resampler σ)

/-- A new framer; `FRAME_SECONDS` is a hundredth. -/
def new (rate streamRate channels : ℕ) : StreamFramer σ where
  channels := channels
  frame := max 1 (rate / 100)
  resampler := if streamRate ≠ rate then some (R.new streamRate rate) else none

def resample (f : StreamFramer σ) (samples : List ℤ) : List ℤ × StreamFramer σ :=
  match f.resampler with
  | none => (samples, f)
  | some resampler =>
    ((R.push resampler samples).1, { f with resampler := some (R.push resampler samples).2 })

def frames (f : StreamFramer σ) (samples : List ℤ) : List (List ℤ) × StreamFramer σ :=
  (rows f.frame (f.pending ++ samples),
    { f with pending := rest f.frame (f.pending ++ samples) })

def push (f : StreamFramer σ) (chunk : List UInt8) : List (List ℤ) × StreamFramer σ :=
  let data := f.bytes ++ chunk
  let whole := data.length - data.length % (2 * f.channels)
  let f := { f with bytes := data.drop whole }
  if whole = 0 then ([], f)
  else
    let (samples, f) := f.resample R (mono f.channels (samplesOf (data.take whole)))
    f.frames samples

def flush (f : StreamFramer σ) : List (List ℤ) × StreamFramer σ :=
  let f := match f.resampler with
    | none => f
    | some resampler =>
      { f with
        pending := f.pending ++ (R.flush resampler).1
        resampler := some (R.flush resampler).2 }
  let (frames, f) := f.frames []
  if f.pending = [] then (frames, f) else (frames ++ [f.pending], { f with pending := [] })

end StreamFramer

-- The equations of the recursive functions, for the proofs about them.
attribute [local simp] samplesOf

end ReactorRuntime.LiveKit
