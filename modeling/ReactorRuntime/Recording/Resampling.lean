import ReactorRuntime.Recording.AudioGrid

/-!
# Chunks on the recording grid

`on_chunk` of `recorder.py`, with the debt that carries a part of a frame to the next chunk, and the
jitter buffer with its count of samples, which `_buffer_audio` and `_take_audio` keep in step.  An
operation is `none` where it raises an `IndexError`.  Numbers of seconds are exact.

The recorder has built its encoder, and the encoder keeps up, so that every slot is claimed.  `P` is
the type of a picture, and `S` that of a sample.

What an emission put on the feed queue is kept, with what was in the jitter buffer meanwhile.
-/

namespace ReactorRuntime.Recording

variable {P S : Type}

/-- What the encoder was built for. -/
structure GridSetup (S : Type) where
  hasAudio : Bool
  audioSampleRate : ℕ
  silence : S

/-- A chunk: the frames of the track that is recorded, its rate, and the data of the track of sound,
if the bundle has one. -/
structure EmittedChunk (P S : Type) where
  frames : List P
  fps : ℚ
  audio : Option (List S)

/-- An item of the feed queue. -/
structure GridSlot (P S : Type) where
  picture : P
  audio : Option (List S)
  /-- History: the samples of it that were in the buffer. -/
  taken : List S := []
  /-- History: what the buffer held afterwards, and the count of it. -/
  left : List S
  count : ℤ

/-- History: what an emission came to. -/
structure Emission (P S : Type) where
  slots : List (GridSlot P S) := []
  /-- What the buffer held once the emission was buffered, and the count of it. -/
  buffered : List S
  count : ℤ

/-- The state of the recorder that `on_chunk` changes. -/
structure GridRecorder (P S : Type) where
  gridDebt : ℚ := 0
  jitterBuf : List (List S) := []
  bufferedSamples : ℤ := 0
  /-- History. -/
  emissions : List (Emission P S) := []

/-! ### The jitter buffer -/

/-- The loop of `_buffer_audio`: the oldest samples go, until the count is down to the cap. -/
def trimLoop (cap : ℤ) : List (List S) → ℤ → Option (List (List S) × ℤ)
  | [], count => if count ≤ cap then some ([], count) else none
  | head :: buf, count =>
    if count ≤ cap then some (head :: buf, count)
    else
      let drop := (count - cap).toNat
      if head.length ≤ drop then trimLoop cap buf (count - head.length)
      else some (head.drop drop :: buf, count - drop)

/-- The loop of `_take_audio`: a number of samples, or as many as there are; what is left of the
buffer; and the count of that. -/
def takeLoop : ℕ → List (List S) → ℤ → List S × List (List S) × ℤ
  | 0, buf, count => ([], buf, count)
  | _, [], count => ([], [], count)
  | missing, head :: buf, count =>
    if head.length ≤ missing then
      let next := takeLoop (missing - head.length) buf (count - head.length)
      (head ++ next.1, next.2)
    else (head.take missing, head.drop missing :: buf, count - missing)

namespace GridRecorder

variable (setup : GridSetup S) (r : GridRecorder P S)

def bufferAudio (audio : Option (List S)) : Option (GridRecorder P S) :=
  match audio with
  | none => some r
  | some flat =>
    if flat = [] then some r
    else do
      let slack := AUDIO_BACKLOG_FRAMES * audioTarget setup.audioSampleRate
      let trimmed ← trimLoop (flat.length + slack) (r.jitterBuf ++ [flat])
        (r.bufferedSamples + flat.length)
      some { r with jitterBuf := trimmed.1, bufferedSamples := trimmed.2 }

def takeAudio (target : ℕ) (picture : P) : GridSlot P S × GridRecorder P S :=
  if target = 0 then
    ({ picture, audio := none, left := r.jitterBuf.flatten, count := r.bufferedSamples }, r)
  else
    let next := takeLoop target r.jitterBuf r.bufferedSamples
    ({ picture
       audio := some (next.1 ++ List.replicate (target - next.1.length) setup.silence)
       taken := next.1
       left := next.2.1.flatten
       count := next.2.2 },
      { r with jitterBuf := next.2.1, bufferedSamples := next.2.2 })

/-- The loop of `on_chunk` over the slots of an emission, from one on. -/
def feedSlots (frames : List P) (gridFrames target : ℕ) :
    List ℕ → GridRecorder P S → Option (List (GridSlot P S) × GridRecorder P S)
  | [], r => some ([], r)
  | i :: rest, r => do
    let picture ← frames[i * frames.length / gridFrames]?
    let slot := r.takeAudio setup target picture
    let next ← feedSlots frames gridFrames target rest slot.2
    some (slot.1 :: next.1, next.2)

/-- `on_chunk`; a chunk without a picture is passed over. -/
def onChunk (chunk : EmittedChunk P S) : Option (GridRecorder P S) :=
  if chunk.frames = [] then
    let emission : Emission P S := { buffered := r.jitterBuf.flatten, count := r.bufferedSamples }
    some { r with emissions := r.emissions ++ [emission] }
  else do
    let fps := if 0 < chunk.fps then chunk.fps else RECORDING_FPS
    let heard ← (if setup.hasAudio then r.bufferAudio setup chunk.audio else some r)
    let debt := heard.gridDebt + chunk.frames.length / fps * RECORDING_FPS
    let gridFrames := debt.floor.toNat
    let target := if setup.hasAudio then audioTarget setup.audioSampleRate else 0
    let fed ← feedSlots setup chunk.frames gridFrames target (List.range gridFrames) heard
    let emission : Emission P S :=
      { slots := fed.1, buffered := heard.jitterBuf.flatten, count := heard.bufferedSamples }
    some { fed.2 with gridDebt := debt - gridFrames, emissions := r.emissions ++ [emission] }

def record (chunks : List (EmittedChunk P S)) : Option (GridRecorder P S) :=
  chunks.foldlM (onChunk setup) {}

/-- What was put on the feed queue. -/
def slots : List (GridSlot P S) := r.emissions.flatMap Emission.slots

end GridRecorder

end ReactorRuntime.Recording
