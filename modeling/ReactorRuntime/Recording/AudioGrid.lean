import Mathlib.Data.Rat.Floor

/-!
# The sound of a recording, on its grid of frames

The recorder keeps the model's sound in a jitter buffer and takes one slot of it with each frame of
the grid; the encoder stamps frames and samples by counting what it has written.  The type `S` is
that of a sample.

A chunk is given by its sound and by how many frames of the grid it puts on the feed queue, which
the feed worker empties in order.

Left out: the pictures, and an encoder that fails.
-/

namespace ReactorRuntime.Recording

def RECORDING_FPS : ℕ := 30

/-- `round` of a quotient: the nearest integer, and the even one of two that are as near. -/
def roundQuotient (n d : ℕ) : ℕ :=
  if 2 * (n % d) < d then n / d
  else if d < 2 * (n % d) then n / d + 1
  else if n / d % 2 = 0 then n / d else n / d + 1

/-- The samples of a slot of the grid. -/
def audioTarget (sampleRate : ℕ) : ℕ := roundQuotient sampleRate RECORDING_FPS

variable {S : Type*}

/-! ### The jitter buffer -/

/-- The loop of `_take_audio`: a number of samples, with silence for those that are missing, and
what is left of the buffer. -/
def takeSamples (silence : S) : ℕ → List (List S) → List S × List (List S)
  | 0, buf => ([], buf)
  | target, [] => (List.replicate target silence, [])
  | target, head :: buf =>
    if head.length ≤ target then
      (head ++ (takeSamples silence (target - head.length) buf).1,
        (takeSamples silence (target - head.length) buf).2)
    else (head.take target, head.drop target :: buf)

/-- `_take_audio`, which takes nothing for an empty slot. -/
def takeAudio (silence : S) (target : ℕ) (buf : List (List S)) :
    Option (List S) × List (List S) :=
  if target = 0 then (none, buf)
  else (some (takeSamples silence target buf).1, (takeSamples silence target buf).2)

/-- The loop of `_buffer_audio`: the oldest samples are trimmed. -/
def trimAudio : ℕ → List (List S) → List (List S)
  | 0, buf => buf
  | _, [] => []
  | drop, head :: buf =>
    if head.length ≤ drop then trimAudio (drop - head.length) buf else head.drop drop :: buf

def AUDIO_BACKLOG_FRAMES : ℕ := 2

/-- `_buffer_audio`, of the sound that a chunk carries for the track. -/
def bufferAudio (sampleRate : ℕ) (audio : List S) (buf : List (List S)) : List (List S) :=
  if audio = [] then buf
  else trimAudio ((buf ++ [audio]).flatten.length -
    (audio.length + AUDIO_BACKLOG_FRAMES * audioTarget sampleRate)) (buf ++ [audio])

/-! ### The encoder -/

/-- `ChunkEncoder`: the next position on the grid, and the next sample. -/
structure ChunkEncoder where
  hasAudio : Bool
  audioSampleRate : ℕ
  videoPts : ℕ := 0
  audioPts : ℕ := 0
  deriving DecidableEq

namespace ChunkEncoder

variable (e : ChunkEncoder)

def writeAudio (samples : ℕ) : ChunkEncoder := { e with audioPts := e.audioPts + samples }

def writeVideo : ChunkEncoder := { e with videoPts := e.videoPts + 1 }

def feedVideo : ChunkEncoder :=
  if e.hasAudio then e.writeVideo else e.writeVideo.writeAudio (audioTarget e.audioSampleRate)

def feedAudio (samples : List S) : ChunkEncoder :=
  if e.hasAudio then e.writeAudio samples.length else e

/-- One item of the feed queue, in `_feed_loop`. -/
def feed (audio : Option (List S)) : ChunkEncoder :=
  match audio with
  | some samples => if e.hasAudio then e.feedVideo.feedAudio samples else e.feedVideo
  | none => e.feedVideo

/-- When the next sample is played, in seconds, and the next frame. -/
def audioPosition : ℚ := e.audioPts / e.audioSampleRate

@[inherit_doc audioPosition]
def videoPosition : ℚ := e.videoPts / RECORDING_FPS

end ChunkEncoder

/-! ### The recorder -/

/-- A chunk: the sound it carries for the track, and how many frames of the grid it puts. -/
structure RecordedChunk (S : Type*) where
  audio : List S
  fed : ℕ

structure SoundRecorder (S : Type*) where
  jitterBuf : List (List S) := []
  encoder : ChunkEncoder

namespace SoundRecorder

variable (silence : S) (r : SoundRecorder S)

/-- One frame of the grid is fed with its slot of sound. -/
def feedSlot : SoundRecorder S :=
  if r.encoder.hasAudio then
    { jitterBuf := (takeAudio silence (audioTarget r.encoder.audioSampleRate) r.jitterBuf).2
      encoder := r.encoder.feed
        (takeAudio silence (audioTarget r.encoder.audioSampleRate) r.jitterBuf).1 }
  else { r with encoder := r.encoder.feed (none : Option (List S)) }

/-- A number of frames is fed. -/
def feedSlots : ℕ → SoundRecorder S → SoundRecorder S
  | 0, r => r
  | n + 1, r => feedSlots n (r.feedSlot silence)

/-- `on_chunk`, and what becomes of it in `_feed_loop`. -/
def onChunk (chunk : RecordedChunk S) : SoundRecorder S :=
  feedSlots silence chunk.fed
    (if r.encoder.hasAudio then
      { r with jitterBuf := bufferAudio r.encoder.audioSampleRate chunk.audio r.jitterBuf }
    else r)

def recordChunks (sampleRate : ℕ) (chunks : List (RecordedChunk S)) : SoundRecorder S :=
  chunks.foldl (onChunk silence) { encoder := { hasAudio := true, audioSampleRate := sampleRate } }

end SoundRecorder

end ReactorRuntime.Recording
