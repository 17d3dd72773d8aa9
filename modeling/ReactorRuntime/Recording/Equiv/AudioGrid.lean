import ReactorRuntime.Recording.AudioGrid
import Mathlib.Data.List.Induction

/-!
# How far the sound of a recording is from its pictures

Each slot of the grid takes the same whole number of samples, so the two timelines drift apart by
the part of a sample that is rounded off, once for each slot (`locked_iff`).  They stay within one
slot of each other, however long the recording, just where a slot is a whole number of samples
(`always_locked_iff`).
-/

namespace ReactorRuntime.Recording

variable {S : Type*} {silence : S}

/-! ### What a slot holds -/

theorem length_takeSamples (target : ℕ) (buf : List (List S)) :
    (takeSamples silence target buf).1.length = target := by
  induction target, buf using takeSamples.induct with
  | case1 buf => simp [takeSamples]
  | case2 target hne => simp [takeSamples]
  | case3 target head buf hne hle ih =>
    rw [takeSamples, if_pos hle, List.length_append, ih]
    · omega
    · exact hne
  | case4 target head buf hne hlt =>
    rw [takeSamples, if_neg hlt, List.length_take]
    · omega
    · exact hne

/-- A slot is fed as one frame and the samples of a slot, whatever the buffer holds. -/
theorem feedSlot_encoder (r : SoundRecorder S) :
    (r.feedSlot silence).encoder = { r.encoder with
      videoPts := r.encoder.videoPts + 1
      audioPts := r.encoder.audioPts + audioTarget r.encoder.audioSampleRate } := by
  obtain ⟨buf, hasAudio, rate, videoPts, audioPts⟩ := r
  cases hasAudio with
  | false => rfl
  | true =>
    by_cases htarget : audioTarget rate = 0
    · simp [SoundRecorder.feedSlot, takeAudio, htarget, ChunkEncoder.feed, ChunkEncoder.feedVideo,
        ChunkEncoder.writeVideo]
    · simp [SoundRecorder.feedSlot, takeAudio, htarget, ChunkEncoder.feed, ChunkEncoder.feedVideo,
        ChunkEncoder.writeVideo, ChunkEncoder.feedAudio, ChunkEncoder.writeAudio,
        length_takeSamples]

theorem feedSlots_encoder (n : ℕ) (r : SoundRecorder S) :
    (SoundRecorder.feedSlots silence n r).encoder = { r.encoder with
      videoPts := r.encoder.videoPts + n
      audioPts := r.encoder.audioPts + n * audioTarget r.encoder.audioSampleRate } := by
  induction n generalizing r with
  | zero => simp [SoundRecorder.feedSlots]
  | succ n ih =>
    rw [SoundRecorder.feedSlots, ih, feedSlot_encoder]
    simp only [ChunkEncoder.mk.injEq, true_and]
    constructor
    · omega
    · ring

theorem recordChunks_encoder (sampleRate : ℕ) (chunks : List (RecordedChunk S)) :
    (SoundRecorder.recordChunks silence sampleRate chunks).encoder =
      { hasAudio := true
        audioSampleRate := sampleRate
        videoPts := (chunks.map (·.fed)).sum
        audioPts := (chunks.map (·.fed)).sum * audioTarget sampleRate } := by
  unfold SoundRecorder.recordChunks
  induction chunks using List.reverseRecOn with
  | nil => simp
  | append_singleton chunks chunk ih =>
    have hbuffer : ∀ r : SoundRecorder S, (r.onChunk silence chunk).encoder = { r.encoder with
        videoPts := r.encoder.videoPts + chunk.fed
        audioPts := r.encoder.audioPts + chunk.fed * audioTarget r.encoder.audioSampleRate } := by
      intro r
      unfold SoundRecorder.onChunk
      split_ifs
      · exact feedSlots_encoder chunk.fed _
      · exact feedSlots_encoder chunk.fed r
    rw [List.foldl_append, List.foldl_cons, List.foldl_nil, hbuffer, ih]
    simp [add_mul]

/-! ### How far apart they are -/

/-- How far a rate is from the nearest multiple of the frame rate. -/
def gridRemainder (sampleRate : ℕ) : ℕ :=
  min (sampleRate % RECORDING_FPS) (RECORDING_FPS - sampleRate % RECORDING_FPS)

theorem audioTarget_mul (sampleRate : ℕ) :
    audioTarget sampleRate * RECORDING_FPS + gridRemainder sampleRate = sampleRate ∨
      audioTarget sampleRate * RECORDING_FPS = sampleRate + gridRemainder sampleRate := by
  unfold audioTarget roundQuotient gridRemainder RECORDING_FPS
  split_ifs <;> omega

theorem gridRemainder_eq_zero_iff {sampleRate : ℕ} :
    gridRemainder sampleRate = 0 ↔ RECORDING_FPS ∣ sampleRate := by
  unfold gridRemainder RECORDING_FPS
  omega

theorem abs_positions (sampleRate n : ℕ) (hrate : 0 < sampleRate) :
    |((n * audioTarget sampleRate : ℕ) : ℚ) / sampleRate - (n : ℚ) / RECORDING_FPS| =
      (n * gridRemainder sampleRate : ℕ) / (sampleRate * RECORDING_FPS : ℚ) := by
  have hrate' : (sampleRate : ℚ) ≠ 0 := Nat.cast_ne_zero.mpr hrate.ne'
  have hfps : (RECORDING_FPS : ℚ) ≠ 0 := Nat.cast_ne_zero.mpr (by decide)
  have hpos : (0 : ℚ) < sampleRate * RECORDING_FPS := by
    have hrate'' : (0 : ℚ) < sampleRate := Nat.cast_pos.mpr hrate
    have hfps' : (0 : ℚ) < RECORDING_FPS := Nat.cast_pos.mpr (by decide)
    exact mul_pos hrate'' hfps'
  have hsub : ((n * audioTarget sampleRate : ℕ) : ℚ) / sampleRate - (n : ℚ) / RECORDING_FPS =
      n * (((audioTarget sampleRate * RECORDING_FPS : ℕ) : ℚ) - sampleRate) /
        (sampleRate * RECORDING_FPS) := by
    push_cast
    field_simp
  rw [hsub, abs_div, abs_of_pos hpos, abs_mul, Nat.abs_cast]
  congr 1
  push_cast
  congr 1
  rcases audioTarget_mul sampleRate with h | h
  · have hcast : ((audioTarget sampleRate * RECORDING_FPS : ℕ) : ℚ) + gridRemainder sampleRate =
        sampleRate := by exact_mod_cast h
    rw [← hcast]
    push_cast
    rw [sub_add_cancel_left, abs_neg, Nat.abs_cast]
  · have hcast : ((audioTarget sampleRate * RECORDING_FPS : ℕ) : ℚ) =
        sampleRate + gridRemainder sampleRate := by exact_mod_cast h
    push_cast at hcast
    rw [hcast, add_sub_cancel_left, Nat.abs_cast]

/-- The sound is less than one slot of the grid away from the pictures. -/
def ChunkEncoder.Locked (e : ChunkEncoder) : Prop :=
  |e.audioPosition - e.videoPosition| < 1 / RECORDING_FPS

/-- A recording at a rate stays locked for as many slots as the samples that are rounded off are
fewer than the frame rate divides, and for ever just where none are. -/
theorem sound_locked_iff (silence : S) (sampleRate : ℕ) (hrate : 0 < sampleRate) :
    (∀ chunks : List (RecordedChunk S),
      (SoundRecorder.recordChunks silence sampleRate chunks).encoder.Locked ↔
        (chunks.map (·.fed)).sum * gridRemainder sampleRate < sampleRate) ∧
    ((∀ chunks : List (RecordedChunk S),
      (SoundRecorder.recordChunks silence sampleRate chunks).encoder.Locked) ↔
        RECORDING_FPS ∣ sampleRate) := by
  have hlocked : ∀ chunks : List (RecordedChunk S),
      (SoundRecorder.recordChunks silence sampleRate chunks).encoder.Locked ↔
        (chunks.map (·.fed)).sum * gridRemainder sampleRate < sampleRate := by
    intro chunks
    have hrate' : (0 : ℚ) < sampleRate := Nat.cast_pos.mpr hrate
    have hfps : (0 : ℚ) < RECORDING_FPS := Nat.cast_pos.mpr (by decide)
    unfold ChunkEncoder.Locked ChunkEncoder.audioPosition ChunkEncoder.videoPosition
    rw [recordChunks_encoder]
    dsimp only
    rw [abs_positions sampleRate _ hrate, div_lt_div_iff₀ (mul_pos hrate' hfps) hfps, one_mul,
      mul_lt_mul_iff_left₀ hfps, Nat.cast_lt]
  refine ⟨hlocked, ?_⟩
  rw [← gridRemainder_eq_zero_iff]
  constructor
  · intro h
    by_contra hne
    -- One frame for each sample of a second is too many.
    have hlong := (hlocked [{ audio := [], fed := sampleRate }]).mp (h _)
    have hle : sampleRate * 1 ≤ sampleRate * gridRemainder sampleRate :=
      Nat.mul_le_mul_left _ (Nat.one_le_iff_ne_zero.mpr hne)
    simp only [List.map_cons, List.map_nil, List.sum_cons, List.sum_nil, Nat.add_zero] at hlong
    omega
  · intro hzero chunks
    rw [hlocked, hzero, Nat.mul_zero]
    exact hrate

/-- Speech at 16 kHz is a slot away after 1600 frames, less than a minute. -/
theorem sound_locked_iff_16000 : ¬((SoundRecorder.recordChunks (0 : ℤ) 16000
    [{ audio := [], fed := 1600 }]).encoder.Locked) := by
  rw [(sound_locked_iff (0 : ℤ) 16000 (by decide)).1]
  decide

/-- The sound of a recording drifts away from its pictures. -/
theorem not_sound_locked : ¬∀ (sampleRate : ℕ), 0 < sampleRate →
    ∀ chunks : List (RecordedChunk ℤ),
      (SoundRecorder.recordChunks 0 sampleRate chunks).encoder.Locked := by
  intro h
  have hlocked := h 16000 (by decide) [{ audio := [], fed := 1600 }]
  unfold ChunkEncoder.Locked ChunkEncoder.audioPosition ChunkEncoder.videoPosition at hlocked
  rw [recordChunks_encoder, abs_positions _ _ (by decide)] at hlocked
  have hremainder : gridRemainder 16000 = 10 := by decide
  norm_num [hremainder, RECORDING_FPS] at hlocked

end ReactorRuntime.Recording
