import ReactorRuntime.Interface.Equiv.InputBuffer
import ReactorRuntime.Lists.Pointwise
import ReactorRuntime.Protocol.Equiv.Frames
import ReactorRuntime.Runtime.StepInputs

/-!
# A step request's media is written whole

The check of a request is made on another thread than the writes, and long before them.  A request
that it accepts is written to its last frame: every frame is decoded, and no frame of the request
makes room for another (`inputs_written`).
-/

namespace ReactorRuntime.Runtime

open ReactorRuntime.Core ReactorRuntime.Interface ReactorRuntime.Protocol ReactorRuntime.Transport

variable {tracks : String → Option InputTrack} {pictures : Pictures}

/-! ### Buffers -/

theorem bound_of_run {bound : BufferBound} {ops : List BufferOp} {s : BufferRun}
    (hrun : (bufferRuns bound).run ops = some s) : s.buffer.toBufferBound = bound := by
  refine TransitionSystem.IsInvariant.of_run (I := fun s => s.buffer.toBufferBound = bound)
    ⟨rfl, fun s op s' h hnext => ?_⟩ hrun
  cases hnext
  have hreads : ∀ n mode result, s.buffer.Looks n mode result →
      (s.reads n mode result).buffer.toBufferBound = bound := by
    intro n mode result hlooks
    obtain heq | heq := s.reads_cases hlooks
    · rw [heq]
      exact h
    · rw [heq]
      refine Eq.trans ?_ h
      cases mode <;> rfl
  cases op with
  | push frame source session =>
    show (s.push frame source session).buffer.toBufferBound = bound
    unfold BufferRun.push
    split_ifs
    · exact h
    · exact (s.buffer.push_bound frame source session).1.trans h
  | read n mode => exact hreads n mode _ (s.buffer.looks_read n mode)
  | tryRead n mode => exact hreads n mode _ (s.buffer.looks_tryRead n mode)
  | _ => exact h

/-- The buffer of a track, after any operations, while it is open. -/
def IsBuffer (info : InputTrack) (b : InputBuffer) : Prop :=
  b.closed = false ∧ ∃ ops s, (bufferRuns info.bound).run ops = some s ∧ s.buffer = b

/-! ### Sources -/

/-- What the model is to read of a frame: its picture, if the transport decoded it. -/
def inputOf (pictures : Pictures) (kind : TrackKind) (index : ℕ) (frame : Frame × ℕ) :
    Except FrameEncodingError DecodedFrame :=
  match pictures.lookup (index, frame.2) with
  | some picture => (FrameSource.decoded frame.1 picture).call
  | none => decodeFrame frame.1 kind

/-- A source gives the frame, and counts for its samples. -/
structure Gives (kind : TrackKind) (source : FrameSource × ℕ) (frame : DecodedFrame) : Prop where
  call : source.1.call = .ok frame
  samples : kind = .audio → frame.sampleCount = source.2

theorem gives_checkSource {index : ℕ} {track : String} {kind : TrackKind} {frame : Frame × ℕ}
    {source : FrameSource × ℕ}
    (h : checkSource pictures index track kind frame = .ok source) :
    ∃ f, inputOf pictures kind index frame = .ok f ∧ Gives kind source f := by
  unfold checkSource at h
  unfold inputOf
  cases hpicture : pictures.lookup (index, frame.2) with
  | some picture =>
    rw [hpicture] at h
    dsimp only at h ⊢
    split_ifs at h with hkind
    rw [not_not] at hkind
    cases h
    exact ⟨_, rfl, rfl, fun haudio => by rw [hkind] at haudio; cases haudio⟩
  | none =>
    rw [hpicture] at h
    dsimp only at h ⊢
    cases hcheck : checkFrame frame.1 kind with
    | error e =>
      rw [hcheck] at h
      cases h
    | ok shape =>
      rw [hcheck] at h
      cases h
      obtain ⟨f, hf, hshape, -⟩ := exists_decodeFrame hcheck
      refine ⟨f, hf, hf, fun haudio => ?_⟩
      rw [InputFrame.sampleCount, hshape, if_pos haudio]

theorem exists_of_mapM {index : ℕ} {track : String} {kind : TrackKind} {frames : List (Frame × ℕ)}
    {sources : List (FrameSource × ℕ)}
    (h : frames.mapM (checkSource pictures index track kind) = .ok sources) :
    ∃ inputs : List DecodedFrame, frames.map (inputOf pictures kind index) = inputs.map .ok ∧
      List.Forall₂ (Gives kind) sources inputs := by
  have hall := forall₂_of_mapM h
  clear h
  induction hall with
  | nil => exact ⟨[], rfl, .nil⟩
  | cons hfirst _ ih =>
    obtain ⟨f, hf, hgives⟩ := gives_checkSource hfirst
    obtain ⟨inputs, hinputs, hall⟩ := ih
    exact ⟨f :: inputs, by rw [List.map_cons, List.map_cons, hf, hinputs], .cons hgives hall⟩

/-- The frames as they are buffered. -/
def buffered (conn : String) (session : ℕ) (inputs : List DecodedFrame) : List BufferEntry :=
  inputs.map fun frame => ⟨session, frame.toInputFrame, some conn⟩

theorem not_overBound {info : InputTrack} {sources : List (FrameSource × ℕ)}
    {inputs : List DecodedFrame} (hgives : List.Forall₂ (Gives info.kind) sources inputs)
    (hholds : InputBuffer.holds { info.bound with } sources.length (sources.map Prod.snd).sum = true)
    {b : InputBuffer} (hbound : b.toBufferBound = info.bound) (conn : String) (session : ℕ) :
    b.overBound (buffered conn session inputs)
      (InputBuffer.samplesOf (buffered conn session inputs)) = false := by
  have hlength : sources.length = (buffered conn session inputs).length := by
    rw [hgives.length_eq, buffered, List.length_map]
  rw [hlength] at hholds
  cases hkind : info.kind with
  | audio =>
    refine BufferRun.overBound_of_holds ?_
      (by unfold InputBuffer.holds at hholds ⊢; rw [hbound]; exact hholds)
    clear hholds hlength
    induction hgives with
    | nil => rfl
    | cons hfirst _ ih =>
      show _ + InputBuffer.samplesOf (buffered conn session _) = _
      rw [ih, hfirst.samples hkind, List.map_cons, List.sum_cons, Nat.cast_add]
  | video =>
    have hnone : b.maxSamples = none := by rw [hbound, info.video hkind]
    unfold InputBuffer.holds at hholds
    dsimp only at hholds
    rw [info.video hkind] at hholds
    unfold InputBuffer.overBound
    rw [hnone, hbound]
    have hle := of_decide_eq_true hholds
    exact decide_eq_false (by omega)

/-! ### The check -/

/-- What the check of an entry comes to. -/
def Checked (tracks : String → Option InputTrack) (pictures : Pictures)
    (entry : TrackFrames × ℕ) (c : String × List FrameSource) : Prop :=
  c.1 = entry.1.track ∧ ∃ info sources inputs, tracks entry.1.track = some info ∧
    c.2 = sources.map Prod.fst ∧
    entry.1.frames.zipIdx.map (inputOf pictures info.kind entry.2) = inputs.map .ok ∧
    List.Forall₂ (Gives info.kind) sources inputs ∧
    InputBuffer.holds { info.bound with } sources.length (sources.map Prod.snd).sum = true

theorem checkEntry_eq_ok {checked : List (String × List FrameSource)} {entry : TrackFrames × ℕ}
    {sources : List FrameSource} (h : checkEntry tracks pictures checked entry = .ok sources) :
    entry.1.track ∉ checked.map Prod.fst ∧
      Checked tracks pictures entry (entry.1.track, sources) := by
  unfold checkEntry at h
  dsimp only at h
  cases htrack : tracks entry.1.track with
  | none =>
    rw [htrack] at h
    cases h
  | some info =>
    rw [htrack] at h
    dsimp only at h
    split_ifs at h with htwice hother
    obtain ⟨frames, hframes, h⟩ := bind_eq_ok h
    split_ifs at h with hholds
    cases h
    obtain ⟨inputs, hinputs, hgives⟩ := exists_of_mapM hframes
    exact ⟨htwice, rfl, info, frames, inputs, htrack, rfl, hinputs, hgives, hholds⟩

theorem checked_of_foldlM {entries : List (TrackFrames × ℕ)}
    {before checked : List (String × List FrameSource)}
    (h : entries.foldlM (checkNext tracks pictures) before = .ok checked) :
    ∃ new, checked = before ++ new ∧ List.Forall₂ (Checked tracks pictures) entries new ∧
      (new.map Prod.fst).Nodup ∧ ∀ c ∈ new, c.1 ∉ before.map Prod.fst := by
  induction entries generalizing before with
  | nil =>
    cases h
    exact ⟨[], (List.append_nil _).symm, .nil, List.nodup_nil, nofun⟩
  | cons entry entries ih =>
    rw [List.foldlM_cons] at h
    obtain ⟨middle, hfirst, h⟩ := bind_eq_ok h
    unfold checkNext at hfirst
    cases hentry : checkEntry tracks pictures before entry with
    | error reason =>
      rw [hentry] at hfirst
      cases hfirst
    | ok sources =>
      rw [hentry] at hfirst
      cases hfirst
      obtain ⟨hfresh, hchecked⟩ := checkEntry_eq_ok hentry
      obtain ⟨new, rfl, hall, hnodup, hnew⟩ := ih h
      refine ⟨_ :: new, List.append_assoc _ _ _, .cons hchecked hall, ?_, ?_⟩
      · refine List.nodup_cons.mpr ⟨fun hmem => ?_, hnodup⟩
        obtain ⟨c, hc, hname⟩ := List.mem_map.mp hmem
        refine hnew c hc ?_
        rw [hname, List.map_append]
        exact List.mem_append_right _ List.mem_cons_self
      · rw [List.forall_mem_cons]
        refine ⟨hfresh, fun c hc hmem => hnew c hc ?_⟩
        rw [List.map_append]
        exact List.mem_append_left _ hmem

/-! ### The writes -/

theorem writeTrack_eq {kind : TrackKind} {sources : List (FrameSource × ℕ)}
    {inputs : List DecodedFrame} (h : List.Forall₂ (Gives kind) sources inputs) (conn : String)
    (session : ℕ) (b : InputBuffer) :
    writeTrack conn session b (sources.map Prod.fst) =
      .ok (BufferRun.pushAll b (buffered conn session inputs)) := by
  unfold writeTrack
  induction h generalizing b with
  | nil => rfl
  | cons hfirst _ ih =>
    rw [List.map_cons, List.foldlM_cons, hfirst.call]
    exact ih _

/-- What the writes leave in the buffer of an entry's track, of what was there. -/
def IsWritten (tracks : String → Option InputTrack) (pictures : Pictures) (conn : String)
    (session : ℕ) (entry : TrackFrames × ℕ) (before after : Option InputBuffer) : Prop :=
  ∃ info inputs, tracks entry.1.track = some info ∧
    entry.1.frames.zipIdx.map (inputOf pictures info.kind entry.2) = inputs.map .ok ∧
    (before = none → after = none) ∧
    ∀ b, before = some b → ∃ b', after = some b' ∧ buffered conn session inputs <:+ b'.buffer

theorem written_of_entry {entry : TrackFrames × ℕ} {c : String × List FrameSource}
    (h : Checked tracks pictures entry c) (conn : String) (session : ℕ)
    {buffers : String → Option InputBuffer}
    (hbuffer : ∀ info b, tracks c.1 = some info → buffers c.1 = some b → IsBuffer info b) :
    ∃ next, writeInputs conn session buffers [c] = .ok next ∧
      (∀ track, track ≠ c.1 → next track = buffers track) ∧
      IsWritten tracks pictures conn session entry (buffers entry.1.track)
        (next entry.1.track) := by
  obtain ⟨hname, info, sources, inputs, htrack, hsources, hinputs, hgives, hholds⟩ := h
  unfold writeInputs
  rw [List.foldlM_cons]
  cases hb : buffers c.1 with
  | none =>
    refine ⟨buffers, rfl, fun _ _ => rfl, info, inputs, htrack, hinputs, id, fun b hsome => ?_⟩
    rw [← hname, hb] at hsome
    cases hsome
  | some b =>
    rw [← hname] at htrack
    obtain ⟨hopen, ops, s, hrun, rfl⟩ := hbuffer info b htrack hb
    -- Frames that fit stay together behind whatever is there.
    have hsuffix := BufferRun.suffix_pushAll (buffered conn session inputs) hopen
      (BufferRun.Keeps.of_run hrun).counted List.nil_suffix
      (not_overBound hgives hholds (bound_of_run hrun) conn session)
    dsimp only
    rw [hsources, writeTrack_eq hgives]
    refine ⟨_, rfl, fun track hne => Function.update_of_ne hne _ _, info, inputs, hname ▸ htrack,
      hinputs, fun hnone => ?_, fun b hsome => ?_⟩
    · rw [← hname, hb] at hnone
      cases hnone
    · rw [← hname]
      exact ⟨_, Function.update_self _ _ _, hsuffix⟩

theorem written_of_checked {entries : List (TrackFrames × ℕ)}
    {checked : List (String × List FrameSource)}
    (hall : List.Forall₂ (Checked tracks pictures) entries checked)
    (hnodup : (checked.map Prod.fst).Nodup) (conn : String) (session : ℕ)
    {buffers : String → Option InputBuffer} (hbuffers : ∀ c ∈ checked, ∀ info b,
      tracks c.1 = some info → buffers c.1 = some b → IsBuffer info b) :
    ∃ after, writeInputs conn session buffers checked = .ok after ∧
      (∀ track, track ∉ checked.map Prod.fst → after track = buffers track) ∧
      ∀ entry ∈ entries, IsWritten tracks pictures conn session entry
        (buffers entry.1.track) (after entry.1.track) := by
  induction hall generalizing buffers with
  | nil => exact ⟨buffers, rfl, fun _ _ => rfl, fun _ h => absurd h List.not_mem_nil⟩
  | @cons entry c entries checked hfirst hrest ih =>
    obtain ⟨hfresh, hnodup⟩ := List.nodup_cons.mp hnodup
    obtain ⟨next, hnext, hothers, hwritten⟩ :=
      written_of_entry hfirst conn session (hbuffers c List.mem_cons_self)
    have hsame : ∀ c' ∈ checked, next c'.1 = buffers c'.1 := fun c' hc' =>
      hothers _ fun heq => hfresh (heq ▸ List.mem_map_of_mem hc')
    obtain ⟨after, hafter, hrestSame, hrestWritten⟩ := @ih hnodup next
      fun c' hc' info b htrack hb =>
        hbuffers c' (List.mem_cons_of_mem _ hc') info b htrack ((hsame c' hc').symm.trans hb)
    refine ⟨after, ?_, fun track htrack => ?_, fun entry' hentry' => ?_⟩
    · unfold writeInputs at hnext hafter ⊢
      rw [List.foldlM_cons] at hnext ⊢
      obtain ⟨next', hstep, hdone⟩ := bind_eq_ok hnext
      cases hdone
      rw [hstep]
      exact hafter
    · rw [List.map_cons, List.mem_cons, not_or] at htrack
      exact (hrestSame track htrack.2).trans (hothers track htrack.1)
    · obtain rfl | hentry' := List.mem_cons.mp hentry'
      · rw [← hfirst.1] at hwritten ⊢
        rwa [hrestSame _ hfresh]
      · obtain ⟨c', hc', hchecked⟩ := Lists.exists_of_mem_left hrest hentry'
        have hafter' := hrestWritten entry' hentry'
        rw [← hchecked.1] at hafter' ⊢
        rwa [hsame c' hc'] at hafter'

/-- **A step request is written whole.**  Where the check accepts a request, its later writes raise
nothing: each entry's frames are decoded, each as its picture or by itself, and come last in the
buffer of its track, in order and none missing, and a track that no entry names keeps its buffer. -/
theorem inputs_written {mediaInput : List TrackFrames} {checked : List (String × List FrameSource)}
    (h : checkMediaInput tracks pictures mediaInput = .ok checked)
    {buffers : String → Option InputBuffer} (hbuffers : ∀ track info b,
      tracks track = some info → buffers track = some b → IsBuffer info b)
    (conn : String) (session : ℕ) :
    ∃ after, writeInputs conn session buffers checked = .ok after ∧
      (∀ track, track ∉ mediaInput.map (·.track) → after track = buffers track) ∧
      ∀ entry ∈ mediaInput.zipIdx, IsWritten tracks pictures conn session entry
        (buffers entry.1.track) (after entry.1.track) := by
  obtain ⟨new, hnew, hall, hnodup, -⟩ := checked_of_foldlM h
  rw [List.nil_append] at hnew
  subst hnew
  obtain ⟨after, hafter, hothers, hwritten⟩ :=
    written_of_checked hall hnodup conn session fun c _ => hbuffers c.1
  refine ⟨after, hafter, fun track htrack => hothers track fun hmem => htrack ?_, hwritten⟩
  obtain ⟨c, hc, rfl⟩ := List.mem_map.mp hmem
  obtain ⟨entry, hentry, hchecked⟩ := Lists.exists_of_mem_right hall hc
  rw [hchecked.1]
  exact List.mem_map_of_mem (List.fst_mem_of_mem_zipIdx hentry)

theorem refused_at_first {mediaInput : List TrackFrames} {e : StepInputError}
    (h : checkMediaInput tracks pictures mediaInput = .error e) :
    ∃ entry checked, mediaInput[e.index]? = some entry ∧
      checkMediaInput tracks pictures (mediaInput.take e.index) = .ok checked ∧
      checkEntry tracks pictures checked (entry, e.index) = .error e.reason := by
  induction mediaInput using List.reverseRecOn with
  | nil => cases h
  | append_singleton entries entry ih =>
    have hsplit : checkMediaInput tracks pictures (entries ++ [entry]) =
        checkMediaInput tracks pictures entries >>= fun checked =>
          checkNext tracks pictures checked (entry, entries.length) := by
      unfold checkMediaInput
      rw [List.zipIdx_append, List.foldlM_append]
      simp
    rw [hsplit] at h
    cases hentries : checkMediaInput tracks pictures entries with
    | error e' =>
      rw [hentries] at h
      cases h
      obtain ⟨found, checked, hfound, htake, hentry⟩ := ih hentries
      have hlt := (List.getElem?_eq_some_iff.mp hfound).1
      refine ⟨found, checked, ?_, ?_, hentry⟩
      · rwa [List.getElem?_append_left hlt]
      · rwa [List.take_append_of_le_length hlt.le]
    | ok checked =>
      rw [hentries, bind_ok, checkNext] at h
      cases hentry : checkEntry tracks pictures checked (entry, entries.length) with
      | ok sources =>
        rw [hentry] at h
        cases h
      | error reason =>
        rw [hentry] at h
        cases h
        refine ⟨entry, checked, List.getElem?_concat_length, ?_, hentry⟩
        rwa [List.take_left]

/-- A microphone whose buffer holds four samples, and a camera. -/
def studioTracks : String → Option InputTrack
  | "mic" => some ⟨.audio, { maxSamples := some 4 }, nofun⟩
  | "camera" => some ⟨.video, {}, fun _ => rfl⟩
  | _ => none

/-- Two blocks of two channels, and an encoded frame that was decoded. -/
def studioInput : List TrackFrames :=
  [{ track := "mic", kind := 2, rate := .zero
     frames := List.replicate 2 ⟨1, "int16", [2, 2], List.replicate 8 1, none, some 5⟩ },
   { track := "camera", kind := 0, rate := .zero, frames := [⟨2, "", [], [0], some [9], none⟩] }]

def studioBuffers (track : String) : Option InputBuffer :=
  (studioTracks track).map fun info => { info.bound with }

theorem inputs_written_studio :
    ∃ checked after, checkMediaInput studioTracks [((1, 0), ⟨1, 1, [7, 7, 7]⟩)] studioInput =
      .ok checked ∧ writeInputs "a" 1 studioBuffers checked = .ok after ∧ after "line" = none := by
  have hbuffers : ∀ track info b, studioTracks track = some info →
      studioBuffers track = some b → IsBuffer info b := by
    intro track info b htrack hb
    rw [studioBuffers, htrack] at hb
    cases hb
    exact ⟨rfl, [], _, rfl, rfl⟩
  have h : checkMediaInput studioTracks [((1, 0), ⟨1, 1, [7, 7, 7]⟩)] studioInput = .ok _ := rfl
  obtain ⟨after, hafter, hothers, -⟩ := inputs_written h hbuffers "a" 1
  exact ⟨_, after, h, hafter, hothers "line" (by decide)⟩

theorem refused_at_first_studio : ∃ entry, studioInput[1]? = some entry ∧ entry.track = "camera" := by
  have h : checkMediaInput studioTracks [] studioInput =
      .error ⟨1, .frame 0 (.unsupported 2)⟩ := rfl
  obtain ⟨entry, _, hentry, -⟩ := refused_at_first h
  exact ⟨entry, hentry, by cases hentry; rfl⟩

end ReactorRuntime.Runtime
