import ReactorRuntime.Recording.Resampling
import Mathlib.Data.List.Induction

/-!
# What a recording makes of its chunks

The jitter buffer is a queue of samples: what the slots take and what is left is a part, in order,
of what was emitted, and all of it if nothing is trimmed (`Filled.flatMap_taken`).  The debt is the
part of a frame by which the grid is behind (`Recorded`), so that the frames on the grid are the
whole ones (`resampled`).
-/

namespace ReactorRuntime.Recording

variable {P S : Type} {setup : GridSetup S} {r r' : GridRecorder P S} {chunk : EmittedChunk P S}
  {chunks : List (EmittedChunk P S)}

/-! ### The loops over the jitter buffer -/

theorem takeLoop_spec (missing : ℕ) (buf : List (List S)) (count : ℤ) :
    (takeLoop missing buf count).1 = buf.flatten.take missing ∧
    (takeLoop missing buf count).2.1.flatten = buf.flatten.drop missing ∧
    (takeLoop missing buf count).2.2 = count - (buf.flatten.take missing).length := by
  induction missing, buf, count using takeLoop.induct with
  | case1 buf count => simp [takeLoop]
  | case2 missing count hne => simp [takeLoop]
  | case3 missing head buf count hne hle ih =>
    obtain ⟨htaken, hleft, hcount⟩ := ih
    rw [takeLoop, if_pos hle]
    · simp only []
      rw [List.flatten_cons, List.take_append, List.drop_append, htaken, hleft, hcount,
        List.take_of_length_le hle, List.drop_eq_nil_of_le hle]
      refine ⟨rfl, rfl, ?_⟩
      rw [List.length_append]
      push_cast
      omega
    · exact hne
  | case4 missing head buf count hne hlt =>
    have hle : missing ≤ head.length := by omega
    rw [takeLoop, if_neg hlt]
    · rw [List.flatten_cons, List.take_append_of_le_length hle,
        List.drop_append_of_le_length hle, List.length_take, Nat.min_eq_left hle]
      exact ⟨rfl, rfl, rfl⟩
    · exact hne

theorem trimLoop_spec {cap : ℤ} (hcap : 0 ≤ cap) (buf : List (List S)) :
    ∃ trimmed, trimLoop cap buf buf.flatten.length = some (trimmed, trimmed.flatten.length) ∧
      trimmed.flatten = buf.flatten.drop (buf.flatten.length - cap).toNat := by
  induction buf with
  | nil => exact ⟨[], if_pos hcap, by simp⟩
  | cons head buf ih =>
    rw [trimLoop]
    simp only []
    split_ifs with hfits hwhole
    · refine ⟨head :: buf, rfl, ?_⟩
      rw [show (((head :: buf).flatten.length : ℤ) - cap).toNat = 0 by omega, List.drop_zero]
    · obtain ⟨trimmed, htrimmed, hflat⟩ := ih
      have hrest : ((head :: buf).flatten.length : ℤ) - head.length = buf.flatten.length := by
        rw [List.flatten_cons, List.length_append]
        push_cast
        omega
      rw [hrest]
      refine ⟨trimmed, htrimmed, hflat.trans ?_⟩
      rw [List.flatten_cons] at hwhole ⊢
      rw [List.drop_append, List.drop_eq_nil_of_le hwhole, List.nil_append]
      congr 1
      rw [List.length_append]
      push_cast
      omega
    · have hle : (((head :: buf).flatten.length : ℤ) - cap).toNat ≤ head.length := by omega
      refine ⟨head.drop (((head :: buf).flatten.length : ℤ) - cap).toNat :: buf, ?_, ?_⟩
      · congr 2
        rw [List.flatten_cons, List.flatten_cons, List.length_append, List.length_append,
          List.length_drop]
        rw [List.flatten_cons, List.length_append] at hle
        push_cast at hle ⊢
        omega
      · show _ = List.drop _ (head ++ buf.flatten)
        rw [List.drop_append_of_le_length hle]
        rfl

/-! ### A slot -/

def GridSetup.target (setup : GridSetup S) : ℕ :=
  if setup.hasAudio then audioTarget setup.audioSampleRate else 0

/-- What a slot is that takes the oldest samples of a buffer; what is missing is silence. -/
structure GridSlot.Fills (setup : GridSetup S) (before : List S) (slot : GridSlot P S) : Prop where
  taken : slot.taken = before.take setup.target
  left : slot.left = before.drop setup.target
  count : slot.count = slot.left.length
  audio : slot.audio =
    if setup.target = 0 then none
    else some (slot.taken ++ List.replicate (setup.target - slot.taken.length) setup.silence)

/-- Slots that are filled one after the other, with what is left of the buffer. -/
def Filled (setup : GridSetup S) : List S → List (GridSlot P S) → List S → Prop
  | before, [], after => after = before
  | before, slot :: slots, after => slot.Fills setup before ∧ Filled setup slot.left slots after

theorem GridRecorder.takeAudio_spec (setup : GridSetup S) (r : GridRecorder P S) (picture : P)
    (hcount : r.bufferedSamples = r.jitterBuf.flatten.length) :
    (r.takeAudio setup setup.target picture).1.Fills setup r.jitterBuf.flatten ∧
    (r.takeAudio setup setup.target picture).1.picture = picture ∧
    (r.takeAudio setup setup.target picture).2.jitterBuf.flatten =
      (r.takeAudio setup setup.target picture).1.left ∧
    (r.takeAudio setup setup.target picture).2.bufferedSamples =
      (r.takeAudio setup setup.target picture).2.jitterBuf.flatten.length := by
  by_cases hzero : setup.target = 0
  · rw [takeAudio, if_pos hzero]
    refine ⟨⟨?_, ?_, hcount, (if_pos hzero).symm⟩, rfl, rfl, hcount⟩
    · rw [hzero, List.take_zero]
    · rw [hzero, List.drop_zero]
  · obtain ⟨htaken, hleft, hafter⟩ := takeLoop_spec setup.target r.jitterBuf r.bufferedSamples
    have hright : (takeLoop setup.target r.jitterBuf r.bufferedSamples).2.2 =
        (takeLoop setup.target r.jitterBuf r.bufferedSamples).2.1.flatten.length := by
      rw [hafter, hleft, hcount, List.length_take, List.length_drop]
      omega
    rw [takeAudio, if_neg hzero]
    exact ⟨⟨htaken, hleft, hright, (if_neg hzero).symm⟩, rfl, rfl, hright⟩

/-- Slots take what was in the buffer, in order, and leave the rest. -/
theorem Filled.flatMap_taken {before after : List S} {slots : List (GridSlot P S)}
    (hfilled : Filled setup before slots after) :
    slots.flatMap GridSlot.taken ++ after = before := by
  induction slots generalizing before with
  | nil => exact hfilled
  | cons slot slots ih =>
    obtain ⟨hfills, hrest⟩ := hfilled
    rw [List.flatMap_cons, List.append_assoc, ih hrest, hfills.taken, hfills.left,
      List.take_append_drop]

theorem Filled.exists_fills {before after : List S} {slots : List (GridSlot P S)}
    (hfilled : Filled setup before slots after) {slot : GridSlot P S} (hslot : slot ∈ slots) :
    ∃ then_, slot.Fills setup then_ := by
  induction slots generalizing before with
  | nil => cases hslot
  | cons first slots ih =>
    rcases List.mem_cons.mp hslot with rfl | hslot
    · exact ⟨before, hfilled.1⟩
    · exact ih hfilled.2 hslot

/-- With enough in the buffer none is padded. -/
theorem Filled.length_taken {before after : List S} {slots : List (GridSlot P S)}
    (hfilled : Filled setup before slots after)
    (henough : setup.target * slots.length ≤ before.length) {slot : GridSlot P S}
    (hslot : slot ∈ slots) : slot.taken.length = setup.target := by
  induction slots generalizing before with
  | nil => cases hslot
  | cons first slots ih =>
    rw [List.length_cons, Nat.mul_succ] at henough
    rcases List.mem_cons.mp hslot with rfl | hslot
    · rw [hfilled.1.taken, List.length_take]
      omega
    · refine ih hfilled.2 ?_ hslot
      rw [hfilled.1.left, List.length_drop]
      omega

theorem GridSlot.Fills.left_eq_nil {before : List S} {slot : GridSlot P S}
    (hfills : slot.Fills setup before) (hpadded : slot.taken.length < setup.target) :
    slot.left = [] := by
  rw [hfills.taken, List.length_take] at hpadded
  rw [hfills.left]
  exact List.drop_eq_nil_of_le (by omega)

/-! ### An emission -/

def EmittedChunk.samples (chunk : EmittedChunk P S) : List S := chunk.audio.getD []

/-- The seconds of media of a chunk. -/
def EmittedChunk.duration (chunk : EmittedChunk P S) : ℚ := chunk.frames.length / chunk.fps

/-- Buffering an emission keeps all of it, and trims no more than the slack demands. -/
theorem GridRecorder.bufferAudio_spec (r : GridRecorder P S) (audio : Option (List S))
    (hcount : r.bufferedSamples = r.jitterBuf.flatten.length) :
    ∃ heard, r.bufferAudio setup audio = some heard ∧ heard.gridDebt = r.gridDebt ∧
      heard.bufferedSamples = heard.jitterBuf.flatten.length ∧
      ∃ trimmed ≤ r.jitterBuf.flatten.length -
          AUDIO_BACKLOG_FRAMES * audioTarget setup.audioSampleRate,
        heard.jitterBuf.flatten = r.jitterBuf.flatten.drop trimmed ++ audio.getD [] := by
  have hsame : r.jitterBuf.flatten = r.jitterBuf.flatten.drop 0 ++ [] := by
    rw [List.drop_zero, List.append_nil]
  cases audio with
  | none => exact ⟨r, rfl, rfl, hcount, 0, Nat.zero_le _, hsame⟩
  | some flat =>
    by_cases hempty : flat = []
    · refine ⟨r, if_pos hempty, rfl, hcount, 0, Nat.zero_le _, ?_⟩
      rw [Option.getD_some, hempty]
      exact hsame
    · have hboth : (r.jitterBuf ++ [flat]).flatten = r.jitterBuf.flatten ++ flat := by
        rw [List.flatten_append, List.flatten_singleton]
      have htotal : r.bufferedSamples + flat.length =
          ((r.jitterBuf ++ [flat]).flatten.length : ℤ) := by
        rw [hboth, hcount, List.length_append]
        push_cast
        rfl
      have hcap : 0 ≤ (flat.length : ℤ) +
          (AUDIO_BACKLOG_FRAMES * audioTarget setup.audioSampleRate : ℕ) := by omega
      obtain ⟨kept, htrim, hkept⟩ := trimLoop_spec hcap (r.jitterBuf ++ [flat])
      refine ⟨{ r with jitterBuf := kept, bufferedSamples := kept.flatten.length }, ?_, rfl, rfl,
        r.jitterBuf.flatten.length - AUDIO_BACKLOG_FRAMES * audioTarget setup.audioSampleRate,
        Nat.le_refl _, ?_⟩
      · rw [bufferAudio, if_neg hempty, htotal]
        show (trimLoop _ _ _ >>= _) = _
        rw [htrim]
        rfl
      · show kept.flatten = _
        rw [hkept, hboth, Option.getD_some, List.drop_append_of_le_length]
        · congr 2
          rw [List.length_append]
          push_cast
          omega
        · rw [List.length_append]
          push_cast
          omega

theorem GridRecorder.feedSlots_spec (setup : GridSetup S) {frames : List P} {gridFrames : ℕ}
    (hframes : frames ≠ []) (indices : List ℕ) (hindices : ∀ i ∈ indices, i < gridFrames)
    (r : GridRecorder P S)
    (hcount : r.bufferedSamples = r.jitterBuf.flatten.length) :
    ∃ fed, feedSlots setup frames gridFrames setup.target indices r = some fed ∧
      Filled setup r.jitterBuf.flatten fed.1 fed.2.jitterBuf.flatten ∧
      fed.2.bufferedSamples = fed.2.jitterBuf.flatten.length ∧
      List.Forall₂ (fun i slot => frames[i * frames.length / gridFrames]? =
        some (GridSlot.picture slot)) indices fed.1 := by
  induction indices generalizing r with
  | nil => exact ⟨([], r), rfl, rfl, hcount, .nil⟩
  | cons i rest ih =>
    have hi : i < gridFrames := hindices i List.mem_cons_self
    -- A slot before the last one falls on a frame before the last one.
    have hpicked : i * frames.length / gridFrames < frames.length := by
      have hpos : 0 < frames.length := List.length_pos_iff.mpr hframes
      rw [Nat.div_lt_iff_lt_mul (by omega), Nat.mul_comm frames.length]
      exact Nat.mul_lt_mul_of_pos_right hi hpos
    obtain ⟨hfills, hpicture, hleft, hright⟩ :=
      takeAudio_spec setup r frames[i * frames.length / gridFrames] hcount
    obtain ⟨fed, hfed, hfilled, hrest, hpictures⟩ := ih
      (fun j hj => hindices j (List.mem_cons_of_mem i hj)) _ hright
    set slot := r.takeAudio setup setup.target frames[i * frames.length / gridFrames] with hslot
    refine ⟨(slot.1 :: fed.1, fed.2), ?_, ⟨hfills, hleft ▸ hfilled⟩, hrest, .cons ?_ hpictures⟩
    · rw [feedSlots, List.getElem?_eq_getElem hpicked]
      show (feedSlots setup frames gridFrames setup.target rest _ >>= _) = _
      rw [hfed]
      rfl
    · rw [hpicture, List.getElem?_eq_getElem hpicked]

/-- What an emission is to be: its own frames in order, all of its samples in the buffer, the count
of the buffer right, and silence only where the buffer is left empty. -/
structure Emission.Of (setup : GridSetup S) (chunk : EmittedChunk P S) (emission : Emission P S) :
    Prop where
  pictures : ∃ picked : List ℕ, picked.Pairwise (· ≤ ·) ∧
    List.Forall₂ (fun i slot => chunk.frames[i]? = some (GridSlot.picture slot)) picked
      emission.slots
  kept : setup.hasAudio = true → chunk.frames ≠ [] → chunk.samples <:+ emission.buffered
  count : emission.count = emission.buffered.length
  counts : ∀ slot ∈ emission.slots, slot.count = slot.left.length
  audio : ∀ slot ∈ emission.slots, slot.audio =
    if setup.target = 0 then none
    else some (slot.taken ++ List.replicate (setup.target - slot.taken.length) setup.silence)
  silence : ∀ slot ∈ emission.slots, slot.taken.length < setup.target → slot.left = []

/-- What a step on a chunk comes to. -/
structure Fed (setup : GridSetup S) (chunk : EmittedChunk P S) (r r' : GridRecorder P S)
    (emission : Emission P S) : Prop where
  emissions : r'.emissions = r.emissions ++ [emission]
  of : emission.Of setup chunk
  count : r'.bufferedSamples = r'.jitterBuf.flatten.length
  debt : r'.gridDebt + emission.slots.length = r.gridDebt + chunk.duration * RECORDING_FPS
  part : 0 ≤ r'.gridDebt ∧ r'.gridDebt < 1
  filled : Filled setup emission.buffered emission.slots r'.jitterBuf.flatten
  buffered : (chunk.frames = [] ∨ setup.hasAudio = false) ∧
      emission.buffered = r.jitterBuf.flatten ∨
    ∃ trimmed ≤ r.jitterBuf.flatten.length -
        AUDIO_BACKLOG_FRAMES * audioTarget setup.audioSampleRate,
      emission.buffered = r.jitterBuf.flatten.drop trimmed ++ chunk.samples

theorem GridRecorder.onChunk_spec (setup : GridSetup S) (r : GridRecorder P S)
    (hfps : 0 < chunk.fps)
    (hcount : r.bufferedSamples = r.jitterBuf.flatten.length)
    (hpart : 0 ≤ r.gridDebt ∧ r.gridDebt < 1) :
    ∃ r' emission, r.onChunk setup chunk = some r' ∧ Fed setup chunk r r' emission := by
  by_cases hframes : chunk.frames = []
  · refine ⟨_, _, if_pos hframes, rfl, ?_, hcount, ?_, hpart, rfl, .inl ⟨.inl hframes, rfl⟩⟩
    · exact
        { pictures := ⟨[], List.Pairwise.nil, .nil⟩
          kept := fun _ hne => absurd hframes hne
          count := hcount
          counts := fun slot hslot => by cases hslot
          audio := fun slot hslot => by cases hslot
          silence := fun slot hslot => by cases hslot }
    · rw [EmittedChunk.duration, hframes]
      simp
  · -- What is buffered before the slots are fed.
    have hheard : ∃ heard,
        (if setup.hasAudio then r.bufferAudio setup chunk.audio else some r) = some heard ∧
        heard.gridDebt = r.gridDebt ∧
        heard.bufferedSamples = heard.jitterBuf.flatten.length ∧
        (setup.hasAudio = false ∧ heard.jitterBuf.flatten = r.jitterBuf.flatten ∨
          ∃ trimmed ≤ r.jitterBuf.flatten.length -
              AUDIO_BACKLOG_FRAMES * audioTarget setup.audioSampleRate,
            heard.jitterBuf.flatten = r.jitterBuf.flatten.drop trimmed ++ chunk.samples) := by
      by_cases haudio : setup.hasAudio = true
      · obtain ⟨heard, hbuffer, hdebt, hright, hkept⟩ := r.bufferAudio_spec chunk.audio hcount
        exact ⟨heard, by rw [if_pos haudio, hbuffer], hdebt, hright, .inr hkept⟩
      · exact ⟨r, if_neg haudio, rfl, hcount, .inl ⟨by simpa using haudio, rfl⟩⟩
    obtain ⟨heard, hbuffer, hdebt, hright, hkept⟩ := hheard
    set debt := r.gridDebt + chunk.duration * RECORDING_FPS with hdebtEq
    have hnonneg : 0 ≤ debt := by
      have hduration : 0 ≤ chunk.duration := div_nonneg (Nat.cast_nonneg _) hfps.le
      exact add_nonneg hpart.1 (mul_nonneg hduration (Nat.cast_nonneg _))
    have hfloor : ((debt.floor.toNat : ℕ) : ℚ) = ⌊debt⌋ := by
      have hcast : ((debt.floor.toNat : ℕ) : ℤ) = ⌊debt⌋ :=
        Int.toNat_of_nonneg (Int.floor_nonneg.mpr hnonneg)
      exact_mod_cast hcast
    obtain ⟨fed, hfed, hfilled, hafter, hpictures⟩ := feedSlots_spec setup hframes
      (List.range debt.floor.toNat) (fun i hi => List.mem_range.mp hi) heard hright
    have hlength : fed.1.length = debt.floor.toNat := by
      rw [← hpictures.length_eq, List.length_range]
    refine ⟨{ fed.2 with
        gridDebt := debt - debt.floor.toNat
        emissions := r.emissions ++ [{ slots := fed.1
                                       buffered := heard.jitterBuf.flatten
                                       count := heard.bufferedSamples }] }, _, ?_, rfl, ?_, hafter,
      ?_, ?_, hfilled, ?_⟩
    · rw [onChunk, if_neg hframes]
      simp only []
      rw [hbuffer]
      show (feedSlots setup chunk.frames _ setup.target (List.range _) heard >>= _) = _
      rw [if_pos hfps, hdebt]
      show (feedSlots setup chunk.frames debt.floor.toNat setup.target (List.range debt.floor.toNat)
        heard >>= _) = _
      rw [hfed]
      rfl
    · have hpicked : List.Forall₂ (fun i slot => chunk.frames[i]? = some (GridSlot.picture slot))
          ((List.range debt.floor.toNat).map fun i => i * chunk.frames.length / debt.floor.toNat)
          fed.1 := List.forall₂_map_left_iff.mpr hpictures
      refine
        { pictures := ⟨_, ?_, hpicked⟩
          kept := ?_
          count := hright
          counts := ?_
          audio := ?_
          silence := ?_ }
      · refine List.pairwise_map.mpr (List.pairwise_lt_range.imp ?_)
        intro i j hij
        exact Nat.div_le_div_right (Nat.mul_le_mul_right _ hij.le)
      · intro haudio _
        rcases hkept with ⟨hmute, _⟩ | ⟨trimmed, _, hkept⟩
        · rw [haudio] at hmute
          cases hmute
        · exact ⟨_, hkept.symm⟩
      · intro slot hslot
        obtain ⟨_, hfills⟩ := hfilled.exists_fills hslot
        exact hfills.count
      · intro slot hslot
        obtain ⟨_, hfills⟩ := hfilled.exists_fills hslot
        exact hfills.audio
      · intro slot hslot
        obtain ⟨_, hfills⟩ := hfilled.exists_fills hslot
        exact hfills.left_eq_nil
    · show debt - (debt.floor.toNat : ℕ) + (fed.1.length : ℚ) = debt
      rw [hlength]
      ring
    · show 0 ≤ debt - (debt.floor.toNat : ℕ) ∧ debt - (debt.floor.toNat : ℕ) < 1
      rw [hfloor]
      have hle := Int.floor_le debt
      have hlt := Int.lt_floor_add_one debt
      constructor <;> linarith
    · exact hkept.imp (fun h => ⟨.inr h.1, h.2⟩) id

/-! ### A recording -/

def emittedSeconds (chunks : List (EmittedChunk P S)) : ℚ :=
  chunks.foldl (fun total chunk => total + chunk.duration) 0

theorem emittedSeconds_concat :
    emittedSeconds (chunks ++ [chunk]) = emittedSeconds chunks + chunk.duration := by
  rw [emittedSeconds, List.foldl_append]
  rfl

/-- A slot holds a whole number of samples, and the sound of each chunk lasts as long as its
frames. -/
structure Matched (setup : GridSetup S) (chunks : List (EmittedChunk P S)) : Prop where
  hasAudio : setup.hasAudio = true
  whole : RECORDING_FPS ∣ setup.audioSampleRate
  lasts : ∀ chunk ∈ chunks, (chunk.samples.length : ℚ) = setup.audioSampleRate * chunk.duration

structure Resampled (setup : GridSetup S) (chunks : List (EmittedChunk P S))
    (r : GridRecorder P S) : Prop where
  slots : (r.slots.length : ℤ) = ⌊RECORDING_FPS * emittedSeconds chunks⌋
  emissions : List.Forall₂ (fun chunk emission => Emission.Of setup chunk emission) chunks
    r.emissions
  count : r.bufferedSamples = r.jitterBuf.flatten.length
  order : (r.slots.flatMap GridSlot.taken ++ r.jitterBuf.flatten).Sublist
    (chunks.flatMap EmittedChunk.samples)
  complete : Matched setup chunks →
    r.slots.flatMap GridSlot.taken ++ r.jitterBuf.flatten = chunks.flatMap EmittedChunk.samples ∧
    ∀ slot ∈ r.slots, slot.taken.length = setup.target

/-- The debt is the part of a frame by which the grid is behind. -/
structure Recorded (setup : GridSetup S) (chunks : List (EmittedChunk P S))
    (r : GridRecorder P S) : Prop extends Resampled setup chunks r where
  debt : r.gridDebt + r.slots.length = RECORDING_FPS * emittedSeconds chunks
  part : 0 ≤ r.gridDebt ∧ r.gridDebt < 1

theorem Fed.slots_eq {emission : Emission P S} (hfed : Fed setup chunk r r' emission) :
    r'.slots = r.slots ++ emission.slots := by
  rw [GridRecorder.slots, hfed.emissions, List.flatMap_append, List.flatMap_singleton]
  rfl

namespace Matched

variable (hmatched : Matched setup chunks)
include hmatched

theorem audioSampleRate_eq : setup.audioSampleRate = setup.target * RECORDING_FPS := by
  obtain ⟨samples, hwhole⟩ := hmatched.whole
  rw [GridSetup.target, if_pos hmatched.hasAudio, audioTarget, roundQuotient, hwhole,
    Nat.mul_mod_right, if_pos (by decide), Nat.mul_div_cancel_left _ (by decide), Nat.mul_comm]

/-- There is as much sound as picture. -/
theorem length_samples : ((chunks.flatMap EmittedChunk.samples).length : ℚ) =
    setup.audioSampleRate * emittedSeconds chunks := by
  have hlasts := hmatched.lasts
  clear hmatched
  induction chunks using List.reverseRecOn with
  | nil => simp [emittedSeconds]
  | append_singleton chunks chunk ih =>
    have hchunk := hlasts chunk (List.mem_append_right chunks List.mem_cons_self)
    rw [List.flatMap_append, List.flatMap_singleton, List.length_append, Nat.cast_add, hchunk,
      ih (fun other hother => hlasts other (List.mem_append_left _ hother)),
      emittedSeconds_concat]
    ring

end Matched

/-- Slots that are full hold as many samples as they have room for. -/
theorem length_flatMap_taken {size : ℕ} (slots : List (GridSlot P S))
    (hfull : ∀ slot ∈ slots, slot.taken.length = size) :
    (slots.flatMap GridSlot.taken).length = size * slots.length := by
  induction slots with
  | nil => rfl
  | cons slot slots ih =>
    have hslot := hfull slot List.mem_cons_self
    rw [List.flatMap_cons, List.length_append, hslot,
      ih fun other hother => hfull other (List.mem_cons_of_mem slot hother), List.length_cons,
      Nat.mul_succ, Nat.add_comm]

namespace Recorded

variable (hrecorded : Recorded setup chunks r)
include hrecorded

/-- While nothing is missing, the buffer holds the part of a slot that the debt is of a frame. -/
theorem length_buffer (hmatched : Matched setup chunks) :
    (r.jitterBuf.flatten.length : ℚ) = setup.target * r.gridDebt := by
  obtain ⟨hall, hfull⟩ := hrecorded.complete hmatched
  have hlength := congrArg List.length hall
  rw [List.length_append, length_flatMap_taken r.slots hfull] at hlength
  have hcast := hmatched.length_samples
  rw [← hlength, hmatched.audioSampleRate_eq, Nat.cast_mul, mul_assoc, ← hrecorded.debt] at hcast
  push_cast at hcast
  linarith

theorem buffered_eq {emission : Emission P S} (hfed : Fed setup chunk r r' emission)
    (hmatched : Matched setup (chunks ++ [chunk])) (hbefore : Matched setup chunks) :
    emission.buffered = r.jitterBuf.flatten ++ chunk.samples := by
  rcases hfed.buffered with ⟨hnone | hmute, hsame⟩ | ⟨trimmed, htrimmed, hkept⟩
  · have hlasts := hmatched.lasts chunk (List.mem_append_right chunks List.mem_cons_self)
    rw [EmittedChunk.duration, hnone, List.length_nil, Nat.cast_zero, zero_div, mul_zero,
      Nat.cast_eq_zero] at hlasts
    rw [hsame, List.length_eq_zero_iff.mp hlasts, List.append_nil]
  · rw [hmatched.hasAudio] at hmute
    cases hmute
  · -- The buffer holds less than a slot, and the slack is two.
    have hbuffer := hrecorded.length_buffer hbefore
    have hslot : r.jitterBuf.flatten.length ≤ setup.target := by
      have htarget : (0 : ℚ) ≤ setup.target := Nat.cast_nonneg _
      have hle : (r.jitterBuf.flatten.length : ℚ) ≤ setup.target := by
        rw [hbuffer]
        nlinarith [hrecorded.part.2]
      exact_mod_cast hle
    have htarget : setup.target = audioTarget setup.audioSampleRate := if_pos hmatched.hasAudio
    have hzero : trimmed = 0 := by
      rw [← htarget] at htrimmed
      have hslack : AUDIO_BACKLOG_FRAMES * setup.target = 2 * setup.target := rfl
      omega
    rw [hkept, hzero, List.drop_zero]

/-- The buffer loses only from its front. -/
theorem sublist_buffered {emission : Emission P S} (hfed : Fed setup chunk r r' emission) :
    emission.buffered.Sublist (r.jitterBuf.flatten ++ chunk.samples) := by
  rcases hfed.buffered with ⟨_, hsame⟩ | ⟨trimmed, _, hkept⟩
  · rw [hsame]
    exact List.sublist_append_left _ _
  · rw [hkept]
    exact List.Sublist.append_right (List.drop_sublist _ _) _

theorem feed {emission : Emission P S} (hfed : Fed setup chunk r r' emission) :
    Recorded setup (chunks ++ [chunk]) r' := by
  have hdebt : r'.gridDebt + r'.slots.length =
      RECORDING_FPS * emittedSeconds (chunks ++ [chunk]) := by
    have hold := hrecorded.debt
    have hnew := hfed.debt
    rw [emittedSeconds_concat, mul_add, ← hold, hfed.slots_eq, List.length_append]
    push_cast
    linarith
  have htaken : r'.slots.flatMap GridSlot.taken ++ r'.jitterBuf.flatten =
      r.slots.flatMap GridSlot.taken ++ emission.buffered := by
    rw [hfed.slots_eq, List.flatMap_append, List.append_assoc, hfed.filled.flatMap_taken]
  have hsamples : (chunks ++ [chunk]).flatMap EmittedChunk.samples =
      chunks.flatMap EmittedChunk.samples ++ chunk.samples := by
    rw [List.flatMap_append, List.flatMap_singleton]
  refine
    { slots := ?_
      emissions := ?_
      count := hfed.count
      order := ?_
      complete := ?_
      debt := hdebt
      part := hfed.part }
  · symm
    rw [Int.floor_eq_iff, ← hdebt]
    obtain ⟨hnonneg, hlt⟩ := hfed.part
    push_cast
    constructor <;> linarith
  · rw [hfed.emissions]
    exact List.rel_append hrecorded.emissions (.cons hfed.of .nil)
  · rw [htaken, hsamples]
    have hbuffered := hrecorded.sublist_buffered hfed
    have hwhole := hrecorded.order.append_right chunk.samples
    rw [List.append_assoc] at hwhole
    exact (hbuffered.append_left _).trans hwhole
  · intro hmatched
    have hbefore : Matched setup chunks :=
      ⟨hmatched.hasAudio, hmatched.whole,
        fun other hother => hmatched.lasts other (List.mem_append_left _ hother)⟩
    obtain ⟨hall, hfull⟩ := hrecorded.complete hbefore
    have hbuffered := hrecorded.buffered_eq hfed hmatched hbefore
    refine ⟨?_, ?_⟩
    · rw [htaken, hsamples, hbuffered, ← List.append_assoc, hall]
    · intro slot hslot
      rw [hfed.slots_eq] at hslot
      rcases List.mem_append.mp hslot with hslot | hslot
      · exact hfull slot hslot
      -- The sound that is there fills the slots, since the debt does not get below zero.
      · refine hfed.filled.length_taken ?_ hslot
        have hlasts := hmatched.lasts chunk (List.mem_append_right chunks List.mem_cons_self)
        have hlength : (emission.buffered.length : ℚ) =
            setup.target * (r'.gridDebt + emission.slots.length) := by
          rw [hbuffered, List.length_append, Nat.cast_add, hlasts,
            hrecorded.length_buffer hbefore, hfed.debt, hmatched.audioSampleRate_eq]
          push_cast
          ring
        have henough : ((setup.target * emission.slots.length : ℕ) : ℚ) ≤
            emission.buffered.length := by
          have htarget : (0 : ℚ) ≤ setup.target := Nat.cast_nonneg _
          rw [hlength]
          push_cast
          nlinarith [hfed.part.1]
        exact_mod_cast henough

end Recorded

theorem recorded_nil : Recorded setup [] ({} : GridRecorder P S) where
  slots := by simp [GridRecorder.slots, emittedSeconds]
  emissions := .nil
  count := rfl
  order := List.nil_sublist _
  complete := fun _ => ⟨rfl, fun slot hslot => by cases hslot⟩
  debt := by simp [GridRecorder.slots, emittedSeconds]
  part := ⟨by norm_num, by norm_num⟩

theorem GridRecorder.exists_recorded (setup : GridSetup S) (chunks : List (EmittedChunk P S))
    (hfps : ∀ chunk ∈ chunks, 0 < chunk.fps) :
    ∃ r, record setup chunks = some r ∧ Recorded setup chunks r := by
  induction chunks using List.reverseRecOn with
  | nil => exact ⟨_, rfl, recorded_nil⟩
  | append_singleton chunks chunk ih =>
    obtain ⟨r, hrun, hrecorded⟩ :=
      ih fun other hother => hfps other (List.mem_append_left _ hother)
    obtain ⟨r', emission, hstep, hfed⟩ := onChunk_spec setup r
      (hfps chunk (List.mem_append_right chunks List.mem_cons_self)) hrecorded.count hrecorded.part
    refine ⟨r', ?_, hrecorded.feed hfed⟩
    rw [record, List.foldlM_append]
    show (record setup chunks >>= _) = _
    rw [hrun]
    show (r.onChunk setup chunk >>= _) = _
    rw [hstep]
    rfl

/-- Chunks at positive rates, whatever their frames, are resampled onto the grid. -/
theorem GridRecorder.resampled (setup : GridSetup S) (chunks : List (EmittedChunk P S))
    (hfps : ∀ chunk ∈ chunks, 0 < chunk.fps) :
    ∃ r, record setup chunks = some r ∧ Resampled setup chunks r := by
  obtain ⟨r, hrun, hrecorded⟩ := exists_recorded setup chunks hfps
  exact ⟨r, hrun, hrecorded.toResampled⟩

/-- Three frames at sixty a second with too much sound, one at eighty with none, and four at thirty
with too little. -/
def unevenChunks : List (EmittedChunk ℕ ℕ) :=
  [{ frames := [0, 1, 2], fps := 60, audio := some [10, 11, 12, 13, 14, 15, 16, 17] },
    { frames := [3], fps := 80, audio := none },
    { frames := [4, 5, 6, 7], fps := 30, audio := some [20] }]

theorem GridRecorder.resampled_unevenChunks :
    ∃ r, record { hasAudio := true, audioSampleRate := 60, silence := 0 } unevenChunks = some r ∧
      Resampled { hasAudio := true, audioSampleRate := 60, silence := 0 } unevenChunks r :=
  resampled _ unevenChunks (by
    intro chunk hchunk
    simp only [unevenChunks, List.mem_cons, List.not_mem_nil, or_false] at hchunk
    rcases hchunk with rfl | rfl | rfl <;> norm_num)

/-- Two samples are trimmed, and three are silence. -/
example : (GridRecorder.record { hasAudio := true, audioSampleRate := 60, silence := 0 }
    unevenChunks).map (fun r => r.slots.map fun slot => (slot.picture, slot.audio)) =
      some [(0, some [10, 11]), (4, some [14, 15]), (5, some [16, 17]), (6, some [20, 0]),
        (7, some [0, 0])] := by
  decide +kernel

end ReactorRuntime.Recording
