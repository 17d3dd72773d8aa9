import ReactorRuntime.LiveKit.StreamFramer

/-!
## The frames of a byte stream

What the frames of a stream are, however it comes apart into chunks: the mono mix of its whole
sample groups (`mixed`), resampled if its rate is not that of the track (`Joined`), cut into frames
of one length, and a shorter one at the end.

* `Framed.new`, `Framed.push`, `Framed.flush`: the framer cuts a stream so.
-/

namespace ReactorRuntime.LiveKit

open ReactorRuntime.Lists

/-! ### Samples -/

theorem length_samplesOf (data : List UInt8) : (samplesOf data).length = data.length / 2 := by
  induction data using samplesOf.induct with
  | case1 low high data ih =>
    rw [samplesOf, List.length_cons, ih, List.length_cons, List.length_cons]
    omega
  | case2 => simp [samplesOf]
  | case3 => rfl

theorem samplesOf_take (data : List UInt8) (n : ℕ) :
    samplesOf (data.take (2 * n)) = (samplesOf data).take n := by
  induction n generalizing data with
  | zero => simp [samplesOf]
  | succ n ih =>
    rcases data with _ | ⟨low, _ | ⟨high, data⟩⟩
    · rfl
    · rfl
    · show samplesOf ((low :: high :: data).take (2 * n + 2)) = _
      rw [List.take_succ_cons, List.take_succ_cons, samplesOf, samplesOf, List.take_succ_cons, ih]

theorem samplesOf_drop (data : List UInt8) (n : ℕ) :
    samplesOf (data.drop (2 * n)) = (samplesOf data).drop n := by
  induction n generalizing data with
  | zero => simp
  | succ n ih =>
    rcases data with _ | ⟨low, _ | ⟨high, data⟩⟩
    · rfl
    · rfl
    · show samplesOf ((low :: high :: data).drop (2 * n + 2)) = _
      rw [List.drop_succ_cons, List.drop_succ_cons, samplesOf, List.drop_succ_cons, ih]

/-- The sample groups of some bytes are the samples of their byte groups. -/
theorem rows_samplesOf (channels : ℕ) (data : List UInt8) :
    rows channels (samplesOf data) = (rows (2 * channels) data).map samplesOf := by
  unfold rows
  rw [length_samplesOf, Nat.div_div_eq_div_mul, List.map_map]
  refine List.map_congr_left fun i _ => ?_
  rw [Function.comp_apply, samplesOf_take, Nat.mul_left_comm, samplesOf_drop]

/-! ### The mono mix -/

def mixed (channels : ℕ) (data : List UInt8) : List ℤ :=
  (rows (2 * channels) data).map fun group => roundedMean (samplesOf group).sum channels

theorem roundedMean_one (n : ℤ) : roundedMean n 1 = n := by
  simp [roundedMean]

theorem mono_eq {channels : ℕ} (hchannels : 0 < channels) (samples : List ℤ) :
    mono channels samples =
      (rows channels samples).map fun group => roundedMean group.sum channels := by
  unfold mono
  split_ifs with h
  · rfl
  · obtain rfl : channels = 1 := by omega
    have hrow : ∀ r ∈ rows 1 samples, r = [roundedMean r.sum 1] := by
      intro r hr
      obtain ⟨a, rfl⟩ := List.length_eq_one_iff.mp (length_of_mem_rows hr)
      rw [List.sum_singleton, roundedMean_one]
    have hrest : rest 1 samples = [] := by
      rw [← List.length_eq_zero_iff, length_rest, Nat.mod_one]
    calc
      samples = (rows 1 samples).flatten := by
        conv_lhs => rw [← flatten_rows_append_rest 1 samples, hrest, List.append_nil]
      _ = ((rows 1 samples).map fun r => [roundedMean r.sum 1]).flatten := by
        rw [← List.map_congr_left hrow, List.map_id']
      _ = (rows 1 samples).map fun r => roundedMean r.sum 1 := by
        rw [← List.flatMap_def, ← List.map_eq_flatMap]

theorem mono_samplesOf {channels : ℕ} (hchannels : 0 < channels) (data : List UInt8) :
    mono channels (samplesOf data) = mixed channels data := by
  rw [mono_eq hchannels, rows_samplesOf, List.map_map]
  rfl

theorem mixed_nil {channels : ℕ} : mixed channels [] = [] := by
  simp [mixed, rows]

theorem mixed_carry {channels : ℕ} (hchannels : 0 < channels) (data chunk : List UInt8) :
    mixed channels (data ++ chunk) =
      mixed channels data ++ mixed channels (rest (2 * channels) data ++ chunk) := by
  unfold mixed
  rw [rows_carry (by omega), List.map_append]

theorem mixed_flatten_rows {channels : ℕ} (hchannels : 0 < channels) (data : List UInt8) :
    mixed channels (rows (2 * channels) data).flatten = mixed channels data := by
  unfold mixed
  rw [rows_flatten_rows (by omega)]

/-! ### What is pushed -/

section Pushed

variable {σ : Type} (R : Resampler σ)

/-- What a resampler gives back for samples that come in pieces. -/
def Resampler.pushes (resampler : σ) : List (List ℤ) → List ℤ × σ
  | [] => ([], resampler)
  | piece :: pieces =>
    ((R.push resampler piece).1 ++ (Resampler.pushes (R.push resampler piece).2 pieces).1,
      (Resampler.pushes (R.push resampler piece).2 pieces).2)

theorem Resampler.pushes_concat (resampler : σ) (pieces : List (List ℤ)) (piece : List ℤ) :
    R.pushes resampler (pieces ++ [piece]) =
      ((R.pushes resampler pieces).1 ++ (R.push (R.pushes resampler pieces).2 piece).1,
        (R.push (R.pushes resampler pieces).2 piece).2) := by
  induction pieces generalizing resampler with
  | nil => simp [Resampler.pushes]
  | cons p pieces ih =>
    rw [List.cons_append, Resampler.pushes, ih]
    simp [Resampler.pushes]

/-- What a new resampler gives back for samples in pieces, and for the flush at the end. -/
def Resampler.output (streamRate rate : ℕ) (pieces : List (List ℤ)) (ended : Bool) : List ℤ :=
  let (samples, resampler) := R.pushes (R.new streamRate rate) pieces
  if ended then samples ++ (R.flush resampler).1 else samples

/-- The samples that the frames of some bytes join up to: their mono mix, or what the resampler
makes of it. -/
def Joined (rate streamRate channels : ℕ) (data : List UInt8) (ended : Bool) (samples : List ℤ) :
    Prop :=
  if streamRate = rate then samples = mixed channels data
  else ∃ pieces, pieces.flatten = mixed channels data ∧
    samples = R.output streamRate rate pieces ended

/-- The samples and the resampler of a framer, for the mono mix of what was pushed. -/
def Sampled (rate streamRate : ℕ) (mix samples : List ℤ) (resampler : Option σ) : Prop :=
  if streamRate = rate then samples = mix ∧ resampler = none
  else ∃ pieces, pieces.flatten = mix ∧ samples = (R.pushes (R.new streamRate rate) pieces).1 ∧
    resampler = some (R.pushes (R.new streamRate rate) pieces).2

/-- What a framer has cut from some bytes, and what it keeps of them. -/
structure Framed (rate streamRate channels : ℕ) (data : List UInt8) (frames : List (List ℤ))
    (f : StreamFramer σ) : Prop where
  mixes : f.channels = channels
  cuts : f.frame = max 1 (rate / 100)
  carries : f.bytes = rest (2 * channels) data
  sampled : ∃ samples, Sampled R rate streamRate (mixed channels data) samples f.resampler ∧
    frames = rows f.frame samples ∧ f.pending = rest f.frame samples

variable {R} {rate streamRate channels : ℕ} {data : List UInt8} {frames : List (List ℤ)}
  {f : StreamFramer σ}

theorem Framed.new (rate streamRate channels : ℕ) :
    Framed R rate streamRate channels [] [] (StreamFramer.new R rate streamRate channels) where
  mixes := rfl
  cuts := rfl
  carries := by simp [StreamFramer.new, rest]
  sampled := by
    refine ⟨[], ?_, by simp [rows], by simp [StreamFramer.new, rest]⟩
    unfold Sampled StreamFramer.new
    by_cases hrate : streamRate = rate
    · rw [if_pos hrate]
      exact ⟨mixed_nil.symm, if_neg fun hne => hne hrate⟩
    · rw [if_neg hrate]
      exact ⟨[], mixed_nil.symm, rfl, if_pos hrate⟩

theorem Framed.frame_pos (h : Framed R rate streamRate channels data frames f) : 0 < f.frame := by
  rw [h.cuts]
  exact Nat.lt_of_lt_of_le Nat.one_pos (Nat.le_max_left _ _)

theorem Sampled.resample {mix samples added : List ℤ}
    (h : Sampled R rate streamRate mix samples f.resampler) :
    Sampled R rate streamRate (mix ++ added) (samples ++ (f.resample R added).1)
      (f.resample R added).2.resampler := by
  unfold Sampled at h ⊢
  split_ifs at h ⊢ with hrate
  · obtain ⟨rfl, hnone⟩ := h
    unfold StreamFramer.resample
    rw [hnone]
    exact ⟨rfl, hnone⟩
  · obtain ⟨pieces, rfl, rfl, hsome⟩ := h
    unfold StreamFramer.resample
    rw [hsome]
    refine ⟨pieces ++ [added], by simp, ?_, ?_⟩
    · rw [Resampler.pushes_concat]
    · rw [Resampler.pushes_concat]

theorem resample_eq (f : StreamFramer σ) (samples : List ℤ) :
    (f.resample R samples).2 = { f with resampler := (f.resample R samples).2.resampler } := by
  unfold StreamFramer.resample
  cases f.resampler with
  | none => rfl
  | some => rfl

theorem Framed.cut {samples added : List ℤ} (hmixes : f.channels = channels)
    (hcuts : f.frame = max 1 (rate / 100)) (hcarries : f.bytes = rest (2 * channels) data)
    (hframes : frames = rows f.frame samples) (hpending : f.pending = rest f.frame samples)
    (hsampled : Sampled R rate streamRate (mixed channels data) (samples ++ added) f.resampler) :
    Framed R rate streamRate channels data (frames ++ (f.frames added).1) (f.frames added).2 := by
  have hframe : 0 < f.frame := by
    rw [hcuts]
    exact Nat.lt_of_lt_of_le Nat.one_pos (Nat.le_max_left _ _)
  refine ⟨hmixes, hcuts, hcarries, samples ++ added, hsampled, ?_, ?_⟩
  · show frames ++ rows f.frame (f.pending ++ added) = rows f.frame (samples ++ added)
    rw [hframes, hpending, ← rows_carry hframe]
  · show rest f.frame (f.pending ++ added) = rest f.frame (samples ++ added)
    rw [hpending, ← rest_carry hframe]

theorem Framed.push (h : Framed R rate streamRate channels data frames f)
    (hchannels : 0 < channels) (chunk : List UInt8) :
    Framed R rate streamRate channels (data ++ chunk) (frames ++ (f.push R chunk).1)
      (f.push R chunk).2 := by
  obtain ⟨samples, hsampled, rfl, hpending⟩ := h.sampled
  have hmix := mixed_carry hchannels data chunk
  have hcarry : rest (2 * channels) (data ++ chunk) = rest (2 * channels) (f.bytes ++ chunk) := by
    rw [rest_carry (by omega), h.carries]
  rw [← h.carries] at hmix
  unfold StreamFramer.push
  simp only [h.mixes, take_whole, drop_whole]
  by_cases hwhole : (f.bytes ++ chunk).length - (f.bytes ++ chunk).length % (2 * channels) = 0
  · -- The chunk completes no group.
    have hnone : mixed channels (f.bytes ++ chunk) = [] := by
      rw [← mixed_flatten_rows hchannels, ← take_whole, hwhole, List.take_zero, mixed_nil]
    rw [if_pos hwhole]
    refine ⟨rfl, h.cuts, hcarry.symm, samples, ?_, List.append_nil _, hpending⟩
    rwa [hmix, hnone, List.append_nil]
  · rw [if_neg hwhole, mono_samplesOf hchannels, mixed_flatten_rows hchannels, resample_eq]
    refine Framed.cut rfl h.cuts hcarry.symm rfl hpending ?_
    rw [hmix]
    exact Sampled.resample hsampled

/-! ### What the frames are -/

theorem Framed.goes_on (h : Framed R rate streamRate channels data frames f) :
    (∃ left, left.length < max 1 (rate / 100) ∧
      Joined R rate streamRate channels data false (frames.flatten ++ left)) ∧
      ∀ frame ∈ frames, frame.length = max 1 (rate / 100) := by
  obtain ⟨samples, hsampled, rfl, _⟩ := h.sampled
  rw [← h.cuts]
  refine ⟨⟨rest f.frame samples, length_rest_lt h.frame_pos, ?_⟩, fun _ => length_of_mem_rows⟩
  rw [flatten_rows_append_rest]
  unfold Sampled at hsampled
  unfold Joined
  split_ifs at hsampled ⊢ with hrate
  · exact hsampled.1
  · obtain ⟨pieces, hpieces, hsamples, _⟩ := hsampled
    exact ⟨pieces, hpieces, hsamples⟩

/-- The tail that the resampler gives back for the flush, if there is one. -/
def StreamFramer.tail (R : Resampler σ) (f : StreamFramer σ) : List ℤ :=
  match f.resampler with
  | none => []
  | some resampler => (R.flush resampler).1

theorem flush_eq (f : StreamFramer σ) :
    (f.flush R).1 = rows f.frame (f.pending ++ f.tail R) ++
      if rest f.frame (f.pending ++ f.tail R) = [] then []
      else [rest f.frame (f.pending ++ f.tail R)] := by
  unfold StreamFramer.flush StreamFramer.tail
  cases f.resampler with
  | none =>
    simp only [StreamFramer.frames, List.append_nil]
    split_ifs
    · exact (List.append_nil _).symm
    · rfl
  | some resampler =>
    simp only [StreamFramer.frames, List.append_nil]
    split_ifs
    · exact (List.append_nil _).symm
    · rfl

theorem Sampled.joined {mix samples : List ℤ} (hmix : mix = mixed channels data)
    (h : Sampled R rate streamRate mix samples f.resampler) :
    Joined R rate streamRate channels data true (samples ++ f.tail R) := by
  subst hmix
  unfold Sampled at h
  unfold Joined StreamFramer.tail
  split_ifs at h ⊢ with hrate
  · rw [h.2, List.append_nil]
    exact h.1
  · obtain ⟨pieces, hpieces, hsamples, hsome⟩ := h
    rw [hsome]
    refine ⟨pieces, hpieces, ?_⟩
    rw [hsamples]
    rfl

theorem Framed.flush (h : Framed R rate streamRate channels data frames f) :
    Joined R rate streamRate channels data true (frames ++ (f.flush R).1).flatten ∧
      (∀ frame ∈ (frames ++ (f.flush R).1).dropLast, frame.length = max 1 (rate / 100)) ∧
      ∀ frame ∈ frames ++ (f.flush R).1, frame ≠ [] := by
  obtain ⟨samples, hsampled, rfl, hpending⟩ := h.sampled
  have hjoined := hsampled.joined rfl
  have hrows : rows f.frame samples ++ (f.flush R).1 = rows f.frame (samples ++ f.tail R) ++
      if rest f.frame (samples ++ f.tail R) = [] then []
      else [rest f.frame (samples ++ f.tail R)] := by
    rw [flush_eq, hpending, ← List.append_assoc, ← rows_carry h.frame_pos,
      ← rest_carry h.frame_pos]
  have hlength : ∀ frame ∈ rows f.frame (samples ++ f.tail R), frame.length = f.frame :=
    fun _ => length_of_mem_rows
  have hne : ∀ frame ∈ rows f.frame (samples ++ f.tail R), frame ≠ [] := by
    intro frame hframe
    refine List.ne_nil_of_length_pos ?_
    rw [hlength frame hframe]
    exact h.frame_pos
  rw [hrows, ← h.cuts]
  split_ifs with hrest
  · rw [List.append_nil]
    refine ⟨?_, fun frame hframe => hlength frame ((List.dropLast_sublist _).mem hframe), hne⟩
    have hflatten := flatten_rows_append_rest f.frame (samples ++ f.tail R)
    rw [hrest, List.append_nil] at hflatten
    rwa [hflatten]
  · refine ⟨?_, ?_, ?_⟩
    · rw [List.flatten_append, List.flatten_singleton, flatten_rows_append_rest]
      exact hjoined
    · rw [List.dropLast_concat]
      exact hlength
    · intro frame hframe
      rcases List.mem_append.mp hframe with hframe | hframe
      · exact hne frame hframe
      · rw [List.mem_singleton.mp hframe]
        exact hrest

end Pushed

end ReactorRuntime.LiveKit
