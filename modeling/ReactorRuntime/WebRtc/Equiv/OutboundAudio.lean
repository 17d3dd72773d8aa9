import ReactorRuntime.WebRtc.OutboundAudio
import Mathlib.Algebra.GroupWithZero.Nat
import Mathlib.Data.List.Pairwise

/-!
# What becomes of the samples of a track

The buffer of a track holds what was enqueued and has not left it, so a frame of the model is 480
consecutive samples, past those of every frame before it (`TrackAudio.Kept`).  Across the tracks,
what was enqueued is a subsequence of what was sent, the samples that were trimmed are counted, and
each tick hands a track one frame (`Fed`).

A resume finds what the pause left in the buffer, which may be up to 9600 samples
(`not_audio_accounted`).
-/

namespace ReactorRuntime.WebRtc

variable {S : Type*}

/-! ### The frames of a track -/

namespace WireFrame

def start? : WireFrame S → Option ℕ
  | .model start _ _ => some start
  | .silence => none

def modelSamples : WireFrame S → List S
  | .model _ _ samples => samples
  | .silence => []

def pcm (zero : S) : WireFrame S → List S
  | .model _ _ samples => samples
  | .silence => List.replicate audioFrameSamples zero

/-- Whether a frame is 480 consecutive samples of those enqueued, or silence. -/
def Slices (enqueued : List S) : WireFrame S → Prop
  | .model start cut samples => samples = (enqueued.drop start).take audioFrameSamples ∧
      start + audioFrameSamples ≤ enqueued.length ∧ cut ≤ start
  | .silence => True

theorem Slices.append {enqueued : List S} {frame : WireFrame S} (h : frame.Slices enqueued)
    (samples : List S) : frame.Slices (enqueued ++ samples) := by
  cases frame with
  | silence => trivial
  | model start cut held =>
    obtain ⟨heq, hle, hcut⟩ := h
    refine ⟨?_, ?_, hcut⟩
    · rw [heq, List.drop_append_of_le_length (by omega), List.take_append_of_le_length]
      rw [List.length_drop]
      omega
    · rw [List.length_append]
      omega

theorem Slices.length_pcm {enqueued : List S} {frame : WireFrame S} (h : frame.Slices enqueued)
    (zero : S) : (frame.pcm zero).length = audioFrameSamples := by
  cases frame with
  | silence => exact List.length_replicate
  | model start cut held =>
    obtain ⟨heq, hle, -⟩ := h
    simp only [pcm, heq, List.length_take, List.length_drop]
    omega

end WireFrame

/-- Where the frames of the model begin. -/
def starts (wire : List (WireFrame S)) : List ℕ := wire.filterMap WireFrame.start?

theorem starts_append (wire wire' : List (WireFrame S)) :
    starts (wire ++ wire') = starts wire ++ starts wire' :=
  List.filterMap_append

/-- How many of the first `before` samples are in some frames of the model. -/
def stale (before : ℕ) (wire : List (WireFrame S)) : ℕ :=
  ((starts wire).map fun start => min (start + audioFrameSamples) before - start).sum

theorem stale_le {before low : ℕ} {wire : List (WireFrame S)}
    (hpairwise : (starts wire).Pairwise fun a b => a + audioFrameSamples ≤ b)
    (hlow : ∀ a ∈ starts wire, low ≤ a) : stale before wire ≤ before - low := by
  unfold stale
  generalize starts wire = l at hpairwise hlow
  induction l generalizing low with
  | nil => exact Nat.zero_le _
  | cons a l ih =>
    obtain ⟨ha, hl⟩ := List.pairwise_cons.mp hpairwise
    have hrest := ih hl ha
    have hle := hlow a List.mem_cons_self
    rw [List.map_cons, List.sum_cons]
    omega

theorem sublist_of_slices {enqueued : List S} {low : ℕ} {wire : List (WireFrame S)}
    (hslices : ∀ frame ∈ wire, frame.Slices enqueued)
    (hpairwise : (starts wire).Pairwise fun a b => a + audioFrameSamples ≤ b)
    (hlow : ∀ a ∈ starts wire, low ≤ a) :
    (wire.flatMap WireFrame.modelSamples).Sublist (enqueued.drop low) := by
  induction wire generalizing low with
  | nil => exact List.nil_sublist _
  | cons frame wire ih =>
    have hrest : ∀ f ∈ wire, f.Slices enqueued := fun f hf => hslices f (List.mem_cons_of_mem _ hf)
    cases frame with
    | silence => exact ih hrest hpairwise hlow
    | model start cut samples =>
      obtain ⟨heq, -, -⟩ := hslices _ List.mem_cons_self
      obtain ⟨ha, hl⟩ := List.pairwise_cons.mp hpairwise
      have hle : low ≤ start := hlow start List.mem_cons_self
      have htail := ih hrest hl ha
      rw [List.flatMap_cons]
      have hdrop : (enqueued.drop start).Sublist (enqueued.drop low) := by
        have : enqueued.drop start = (enqueued.drop low).drop (start - low) := by
          rw [List.drop_drop]
          congr 1
          omega
        rw [this]
        exact List.drop_sublist _ _
      refine List.Sublist.trans ?_ hdrop
      rw [← List.take_append_drop audioFrameSamples (enqueued.drop start), List.drop_drop]
      refine List.Sublist.append ?_ htail
      simp only [WireFrame.modelSamples, heq]
      exact List.Sublist.refl _

/-! ### One track -/

namespace TrackAudio

variable {t : TrackAudio S}

/-- What is in the buffer, and what has left it. -/
structure Kept (t : TrackAudio S) : Prop where
  buf : t.buf = t.enqueued.drop t.removed
  removed_le : t.removed ≤ t.enqueued.length
  conserved : t.removed = audioFrameSamples * (starts t.wire).length + t.trimmed + t.flushed
  bounded : t.buf.length ≤ audioBufferMaxSamples
  slices : ∀ frame ∈ t.wire, frame.Slices t.enqueued
  pairwise : (starts t.wire).Pairwise fun a b => a + audioFrameSamples ≤ b
  left : ∀ a ∈ starts t.wire, a + audioFrameSamples ≤ t.removed
  cut_le : t.cut ≤ t.removed
  resumed : ∀ r ∈ t.resumes, r.removed ≤ t.removed ∧ r.frames ≤ t.wire.length ∧
    ∀ a ∈ starts (t.wire.drop r.frames), r.removed ≤ a

theorem Kept.init : Kept ({} : TrackAudio S) where
  buf := rfl
  removed_le := le_rfl
  conserved := rfl
  bounded := Nat.zero_le _
  slices _ h := by cases h
  pairwise := List.Pairwise.nil
  left _ h := by cases h
  cut_le := le_rfl
  resumed _ h := by cases h

theorem Kept.length_buf (h : t.Kept) : t.removed + t.buf.length = t.enqueued.length := by
  have := h.removed_le
  rw [h.buf, List.length_drop]
  omega

/-- Enqueuing trims what there is too much of. -/
theorem enqueue_eq (t : TrackAudio S) (samples : List S) :
    ∃ overflow, overflow = (t.buf ++ samples).length - audioBufferMaxSamples ∧
      t.enqueue samples = { t with
        buf := (t.buf ++ samples).drop overflow
        enqueued := t.enqueued ++ samples
        trimmed := t.trimmed + overflow
        removed := t.removed + overflow } :=
  ⟨_, rfl, rfl⟩

theorem Kept.enqueue (h : t.Kept) (samples : List S) : (t.enqueue samples).Kept := by
  have hlength := h.length_buf
  have hbuf : t.buf ++ samples = (t.enqueued ++ samples).drop t.removed := by
    rw [List.drop_append_of_le_length h.removed_le, h.buf]
  obtain ⟨overflow, hoverflow, heq⟩ := t.enqueue_eq samples
  rw [heq]
  rw [List.length_append] at hoverflow
  refine ⟨?_, ?_, ?_, ?_, ?_, h.pairwise, ?_, ?_, ?_⟩
  · dsimp only
    rw [hbuf, List.drop_drop]
  · dsimp only
    rw [List.length_append]
    omega
  · dsimp only
    rw [h.conserved]
    omega
  · dsimp only
    rw [List.length_drop, List.length_append]
    omega
  · exact fun frame hframe => (h.slices frame hframe).append samples
  · exact fun a ha => (h.left a ha).trans (Nat.le_add_right _ _)
  · exact h.cut_le.trans (Nat.le_add_right _ _)
  · intro r hr
    obtain ⟨hremoved, hrest⟩ := h.resumed r hr
    exact ⟨hremoved.trans (Nat.le_add_right _ _), hrest⟩

theorem Kept.flush (h : t.Kept) : t.flush.Kept := by
  have hlength := h.length_buf
  refine ⟨?_, ?_, ?_, ?_, h.slices, h.pairwise, ?_, ?_, ?_⟩
  · simp only [TrackAudio.flush, hlength, List.drop_length]
  · exact hlength.le
  · simp only [TrackAudio.flush, h.conserved]
    omega
  · exact Nat.zero_le _
  · exact fun a ha => (h.left a ha).trans (Nat.le_add_right _ _)
  · exact hlength.ge
  · intro r hr
    obtain ⟨hremoved, hrest⟩ := h.resumed r hr
    exact ⟨hremoved.trans (Nat.le_add_right _ _), hrest⟩

theorem Kept.pause (h : t.Kept) : t.pause.Kept :=
  ⟨h.buf, h.removed_le, h.conserved, h.bounded, h.slices, h.pairwise, h.left, h.cut_le, h.resumed⟩

theorem Kept.resume (h : t.Kept) : t.resume.Kept := by
  refine ⟨h.buf, h.removed_le, h.conserved, h.bounded, h.slices, h.pairwise, h.left, h.cut_le, ?_⟩
  intro r hr
  rcases List.mem_append.mp hr with hr | hr
  · exact h.resumed r hr
  · rw [List.mem_singleton.mp hr]
    refine ⟨le_rfl, le_rfl, fun a ha => ?_⟩
    simp [TrackAudio.resume, starts] at ha

theorem Kept.silence (h : t.Kept) (idleTicks : Option ℕ) (silenceFrames : ℕ) :
    Kept { t with
      idleTicks := idleTicks
      silenceFrames := silenceFrames
      wire := t.wire ++ [.silence] } := by
  have hstarts : starts (t.wire ++ [.silence]) = starts t.wire := by
    rw [starts_append]
    exact List.append_nil _
  refine ⟨h.buf, h.removed_le, ?_, h.bounded, ?_, ?_, ?_, h.cut_le, ?_⟩
  · dsimp only
    rw [hstarts]
    exact h.conserved
  · intro frame hframe
    rcases List.mem_append.mp hframe with hframe | hframe
    · exact h.slices frame hframe
    · rw [List.mem_singleton.mp hframe]
      trivial
  · dsimp only
    rw [hstarts]
    exact h.pairwise
  · dsimp only
    rw [hstarts]
    exact h.left
  · intro r hr
    obtain ⟨hremoved, hframes, hlow⟩ := h.resumed r hr
    refine ⟨hremoved, ?_, ?_⟩
    · rw [List.length_append]
      omega
    · dsimp only
      rw [List.drop_append_of_le_length hframes, starts_append]
      intro a ha
      exact hlow a (by simpa [starts, WireFrame.start?] using ha)

theorem Kept.pushFrame (h : t.Kept) (paused : Bool) : (t.pushFrame paused).Kept := by
  have hlength := h.length_buf
  unfold TrackAudio.pushFrame
  split_ifs with hfull
  · simp only [Bool.and_eq_true, decide_eq_true_eq] at hfull
    have hstarts : ∀ samples, starts (t.wire ++ [.model t.removed t.cut samples]) =
        starts t.wire ++ [t.removed] := by
      intro samples
      rw [starts_append]
      rfl
    refine ⟨?_, ?_, ?_, ?_, ?_, ?_, ?_, h.cut_le.trans (Nat.le_add_right _ _), ?_⟩
    · dsimp only
      rw [h.buf, List.drop_drop]
    · dsimp only
      omega
    · dsimp only
      rw [hstarts, List.length_append, List.length_singleton, h.conserved, Nat.mul_succ]
      omega
    · dsimp only
      rw [List.length_drop]
      exact (Nat.sub_le _ _).trans h.bounded
    · intro frame hframe
      rcases List.mem_append.mp hframe with hframe | hframe
      · exact h.slices frame hframe
      · rw [List.mem_singleton.mp hframe]
        refine ⟨?_, ?_, h.cut_le⟩
        · dsimp only
          rw [h.buf]
        · dsimp only
          omega
    · dsimp only
      rw [hstarts]
      refine List.pairwise_append.mpr ⟨h.pairwise, List.pairwise_singleton _ _, ?_⟩
      intro a ha b hb
      rw [List.mem_singleton.mp hb]
      exact h.left a ha
    · dsimp only
      rw [hstarts]
      intro a ha
      rcases List.mem_append.mp ha with ha | ha
      · exact (h.left a ha).trans (Nat.le_add_right _ _)
      · rw [List.mem_singleton.mp ha]
    · intro r hr
      obtain ⟨hremoved, hframes, hlow⟩ := h.resumed r hr
      refine ⟨hremoved.trans (Nat.le_add_right _ _), ?_, ?_⟩
      · rw [List.length_append]
        omega
      · dsimp only
        rw [List.drop_append_of_le_length hframes, starts_append]
        intro a ha
        rcases List.mem_append.mp ha with ha | ha
        · exact hlow a ha
        · rw [List.mem_singleton.mp ha]
          exact hremoved
  · split
    · exact h.silence _ _
    · exact h.silence _ _

theorem Kept.stale_le (h : t.Kept) {r : Resumed} (hr : r ∈ t.resumes) :
    stale r.before (t.wire.drop r.frames) ≤ r.before - r.removed := by
  refine WebRtc.stale_le ?_ (h.resumed r hr).2.2
  exact h.pairwise.sublist ((List.drop_sublist _ _).filterMap _)

/-! What the calls leave as it is. -/

theorem wire_enqueue (t : TrackAudio S) (samples : List S) : (t.enqueue samples).wire = t.wire := by
  obtain ⟨overflow, -, heq⟩ := t.enqueue_eq samples
  rw [heq]

theorem sent_enqueue (t : TrackAudio S) (samples : List S) : (t.enqueue samples).sent = t.sent := by
  obtain ⟨overflow, -, heq⟩ := t.enqueue_eq samples
  rw [heq]

theorem enqueued_enqueue (t : TrackAudio S) (samples : List S) :
    (t.enqueue samples).enqueued = t.enqueued ++ samples := by
  obtain ⟨overflow, -, heq⟩ := t.enqueue_eq samples
  rw [heq]

theorem resumes_enqueue (t : TrackAudio S) (samples : List S) :
    (t.enqueue samples).resumes = t.resumes := by
  obtain ⟨overflow, -, heq⟩ := t.enqueue_eq samples
  rw [heq]

theorem pushFrame_eq (t : TrackAudio S) (paused : Bool) :
    (t.pushFrame paused).wire.length = t.wire.length + 1 ∧ (t.pushFrame paused).sent = t.sent ∧
      (t.pushFrame paused).enqueued = t.enqueued ∧ (t.pushFrame paused).trimmed = t.trimmed ∧
      (t.pushFrame paused).resumes = t.resumes := by
  unfold TrackAudio.pushFrame
  split_ifs
  · exact ⟨List.length_append, rfl, rfl, rfl, rfl⟩
  · split
    · exact ⟨List.length_append, rfl, rfl, rfl, rfl⟩
    · exact ⟨List.length_append, rfl, rfl, rfl, rfl⟩

end TrackAudio

/-! ### The tracks of a peer -/

theorem sum_map_update {names : List String} (hnodup : names.Nodup) {name : String}
    (hname : name ∈ names) (f : String → ℕ) (n : ℕ) :
    (names.map (Function.update f name n)).sum + f name = (names.map f).sum + n := by
  induction names with
  | nil => cases hname
  | cons first names ih =>
    obtain ⟨hfirst, hnames⟩ := List.nodup_cons.mp hnodup
    rw [List.map_cons, List.map_cons, List.sum_cons, List.sum_cons]
    by_cases heq : first = name
    · subst heq
      have hrest : names.map (Function.update f first n) = names.map f :=
        List.map_congr_left fun m hm => Function.update_of_ne (by rintro rfl; exact hfirst hm) n f
      rw [hrest, Function.update_self]
      omega
    · have hmem := (List.mem_cons.mp hname).resolve_left (Ne.symm heq)
      have := ih hnames hmem
      rw [Function.update_of_ne heq]
      omega

namespace OutboundAudio

variable {out : OutTracks} {s s' : OutboundAudio S}

/-- The samples of `name` that the drain thread still has to enqueue. -/
def pendingFor (out : OutTracks) (name : String) : Pushing S → List S
  | .idle => []
  | .taken bundle _ => samplesFor out name bundle
  | .looping rest _ => samplesFor out name rest
  | .enqueuing name' samples rest _ =>
    (if name' = name then samples else []) ++ samplesFor out name rest

/-- The samples of `name` in the bundles that wait. -/
def queuedFor (out : OutTracks) (name : String) (queue : List (List (BundleTrack S) × ℕ)) :
    List S :=
  queue.flatMap fun entry => samplesFor out name entry.1

/-- The names that the feeder still has to come to in its tick. -/
def left : Feeding → List String
  | .idle => []
  | .looping rest => rest
  | .pushing name _ rest => name :: rest

/-- Whether the feeder has handed `name` its frame in the tick that it is in. -/
def fedNow (name : String) : Feeding → ℕ
  | .idle => 0
  | .looping rest => if name ∈ rest then 0 else 1
  | .pushing name' _ rest => if name ∈ name' :: rest then 0 else 1

structure Fed (out : OutTracks) (s : OutboundAudio S) : Prop where
  kept : ∀ name, (s.tracks name).Kept
  dropped : s.droppedSamples = (out.names.map fun name => (s.tracks name).trimmed).sum
  attached : ∀ name samples rest flushes, s.pushing = .enqueuing name samples rest flushes →
    name ∈ out.names
  sent : ∀ name, ((s.tracks name).enqueued ++ pendingFor out name s.pushing ++
    queuedFor out name s.frameQueue).Sublist (s.tracks name).sent
  left : left s.feeding <:+ out.names
  audio : ∀ name paused rest, s.feeding = .pushing name paused rest → out.audio name = true
  ticked : ∀ name ∈ out.names, out.audio name = true →
    (s.tracks name).wire.length = s.ticks + fedNow name s.feeding

theorem Fed.init (out : OutTracks) : Fed out ({} : OutboundAudio S) where
  kept _ := TrackAudio.Kept.init
  dropped := by
    have hzero : ∀ names : List String, (names.map fun _ => (0 : ℕ)).sum = 0 := by
      intro names
      induction names with
      | nil => rfl
      | cons _ names ih => exact (Nat.zero_add _).trans ih
    exact (hzero out.names).symm
  attached _ _ _ _ h := by cases h
  sent _ := List.Sublist.refl _
  left := List.nil_suffix
  audio _ _ _ h := by cases h
  ticked _ _ _ := rfl

/-- The drain thread and the senders leave the feeder, and the other way round. -/
theorem Fed.of_tracks (h : Fed out s) (hkept : ∀ name, (s'.tracks name).Kept)
    (hdropped : s'.droppedSamples = s.droppedSamples)
    (htrimmed : ∀ name, (s'.tracks name).trimmed = (s.tracks name).trimmed)
    (hattached : ∀ name samples rest flushes, s'.pushing = .enqueuing name samples rest flushes →
      name ∈ out.names)
    (hsent : ∀ name, ((s'.tracks name).enqueued ++ pendingFor out name s'.pushing ++
      queuedFor out name s'.frameQueue).Sublist (s'.tracks name).sent)
    (hfeeding : s'.feeding = s.feeding) (hticks : s'.ticks = s.ticks)
    (hwire : ∀ name, (s'.tracks name).wire = (s.tracks name).wire) : Fed out s' := by
  refine ⟨hkept, ?_, hattached, hsent, ?_, ?_, ?_⟩
  · rw [hdropped, h.dropped]
    simp only [htrimmed]
  · rw [hfeeding]
    exact h.left
  · rw [hfeeding]
    exact h.audio
  · rw [hfeeding, hticks]
    intro name hname haudio
    rw [hwire]
    exact h.ticked name hname haudio

theorem Fed.sendMedia (h : Fed out s) (bundle : List (BundleTrack S)) (flushes : ℕ) :
    Fed out (s.sendMedia out bundle flushes) := by
  have hkept : ∀ name, TrackAudio.Kept
      { s.tracks name with sent := (s.tracks name).sent ++ samplesFor out name bundle } := by
    intro name
    have hk := h.kept name
    exact ⟨hk.buf, hk.removed_le, hk.conserved, hk.bounded, hk.slices, hk.pairwise, hk.left,
      hk.cut_le, hk.resumed⟩
  unfold OutboundAudio.sendMedia
  dsimp only
  split_ifs
  · refine h.of_tracks hkept rfl (fun _ => rfl) h.attached (fun name => ?_) rfl rfl (fun _ => rfl)
    exact (h.sent name).trans (List.sublist_append_left _ _)
  · refine h.of_tracks hkept rfl (fun _ => rfl) h.attached (fun name => ?_) rfl rfl (fun _ => rfl)
    dsimp only [queuedFor]
    rw [List.flatMap_append, ← List.append_assoc]
    refine (h.sent name).append ?_
    simp

theorem Fed.flushMedia (h : Fed out s) : Fed out s.flushMedia := by
  refine h.of_tracks (fun name => (h.kept name).flush) rfl (fun _ => rfl) h.attached
    (fun name => ?_) rfl rfl (fun _ => rfl)
  refine List.Sublist.trans ?_ (h.sent name)
  exact (List.Sublist.refl _).append (List.nil_sublist _)

theorem field_update {α : Type*} {tracks : String → TrackAudio S} {name : String}
    {track : TrackAudio S} (f : TrackAudio S → α) (heq : f track = f (tracks name)) (m : String) :
    f (Function.update tracks name track m) = f (tracks m) := by
  by_cases hm : m = name
  · rw [hm, Function.update_self, heq]
  · rw [Function.update_of_ne hm]

/-- A call that changes one track, and neither its samples nor its frames. -/
theorem Fed.update (h : Fed out s) {name : String} {track : TrackAudio S} (hkept : track.Kept)
    (htrimmed : track.trimmed = (s.tracks name).trimmed)
    (henqueued : track.enqueued = (s.tracks name).enqueued)
    (hsent : track.sent = (s.tracks name).sent) (hwire : track.wire = (s.tracks name).wire)
    (pausedTracks : Finset String) :
    Fed out { s with tracks := Function.update s.tracks name track, pausedTracks } := by
  refine h.of_tracks (fun m => ?_) rfl (field_update TrackAudio.trimmed htrimmed) h.attached
    (fun m => ?_) rfl rfl (field_update TrackAudio.wire hwire)
  · by_cases hm : m = name
    · dsimp only
      rw [hm, Function.update_self]
      exact hkept
    · dsimp only
      rw [Function.update_of_ne hm]
      exact h.kept m
  · dsimp only
    rw [field_update TrackAudio.enqueued henqueued, field_update TrackAudio.sent hsent]
    exact h.sent m

theorem samplesFor_cons (name : String) (track : BundleTrack S) (rest : List (BundleTrack S)) :
    samplesFor out name (track :: rest) =
      (if track.audio = true ∧ attachedName out track = some name then track.samples else []) ++
        samplesFor out name rest :=
  List.flatMap_cons

theorem attachedName_mem {track : BundleTrack S} {name : String}
    (h : attachedName out track = some name) : name ∈ out.names := by
  unfold attachedName at h
  split_ifs at h with hinfo htrack
  · cases h
    exact hinfo
  · cases h
    exact htrack

theorem pushTrack_cases (s : OutboundAudio S) (track : BundleTrack S) (rest : List (BundleTrack S))
    (flushes : ℕ) :
    s.pushTrack out track rest flushes = .looping rest flushes ∨
      s.pushTrack out track rest flushes = .idle ∨
      ∃ name, attachedName out track = some name ∧ track.audio = true ∧
        s.pushTrack out track rest flushes = .enqueuing name track.samples rest flushes := by
  unfold pushTrack
  by_cases hpaused : track.trackName ∈ s.pausedTracks ∨ track.infoName ∈ s.pausedTracks
  · rw [if_pos hpaused]
    exact Or.inl rfl
  · rw [if_neg hpaused]
    rcases hname : attachedName out track with _ | name
    · exact Or.inl rfl
    · dsimp only
      split_ifs with haudio
      · exact Or.inr (Or.inr ⟨name, rfl, haudio, rfl⟩)
      · exact Or.inr (Or.inl rfl)
      · exact Or.inl rfl

/-- What the drain thread has still to enqueue after its look at a track was there before. -/
theorem pendingFor_pushTrack (s : OutboundAudio S) (name : String) (track : BundleTrack S)
    (rest : List (BundleTrack S)) (flushes : ℕ) :
    (pendingFor out name (s.pushTrack out track rest flushes)).Sublist
      (samplesFor out name (track :: rest)) := by
  rw [samplesFor_cons]
  rcases s.pushTrack_cases track rest flushes with heq | heq | ⟨name', hname, haudio, heq⟩
  · rw [heq]
    exact List.sublist_append_right _ _
  · rw [heq]
    exact List.nil_sublist _
  · -- the samples that are enqueued are those of the name the track is attached under
    rw [heq]
    simp only [pendingFor, haudio, hname, true_and, Option.some.injEq]
    exact List.Sublist.refl _

theorem Fed.drain (h : Fed out s) (hdrain : s.drain out = some s') : Fed out s' := by
  unfold OutboundAudio.drain at hdrain
  have hsent := h.sent
  rcases hpushing : s.pushing with _ | ⟨bundle, flushes⟩ | ⟨rest, flushes⟩ |
    ⟨name, samples, rest, flushes⟩
  · rw [hpushing] at hdrain hsent
    rcases hqueue : s.frameQueue with _ | ⟨⟨bundle, flushes⟩, queue⟩
    · rw [hqueue] at hdrain
      cases hdrain
    · rw [hqueue] at hdrain hsent
      cases hdrain
      refine h.of_tracks h.kept rfl (fun _ => rfl) (by rintro _ _ _ _ ⟨⟩) (fun name => ?_) rfl rfl
        (fun _ => rfl)
      have hname := hsent name
      simp only [pendingFor, queuedFor, List.flatMap_cons, List.append_nil] at hname ⊢
      rw [List.append_assoc]
      exact hname
  · rw [hpushing] at hdrain hsent
    cases hdrain
    split_ifs
    · exact h.of_tracks h.kept rfl (fun _ => rfl) (by rintro _ _ _ _ ⟨⟩) hsent rfl rfl
        (fun _ => rfl)
    · refine h.of_tracks h.kept rfl (fun _ => rfl) (by rintro _ _ _ _ ⟨⟩) (fun name => ?_) rfl rfl
        (fun _ => rfl)
      refine List.Sublist.trans ?_ (hsent name)
      exact ((List.Sublist.refl _).append (List.nil_sublist _)).append (List.Sublist.refl _)
  · rw [hpushing] at hdrain hsent
    rcases rest with _ | ⟨track, rest⟩
    · cases hdrain
      exact h.of_tracks h.kept rfl (fun _ => rfl) (by rintro _ _ _ _ ⟨⟩) hsent rfl rfl
        (fun _ => rfl)
    · cases hdrain
      refine h.of_tracks h.kept rfl (fun _ => rfl) ?_ (fun name => ?_) rfl rfl (fun _ => rfl)
      · intro name samples rest' flushes' heq
        rcases s.pushTrack_cases track rest flushes with h' | h' | ⟨name', hname, -, h'⟩
        · rw [h'] at heq
          cases heq
        · rw [h'] at heq
          cases heq
        · rw [h'] at heq
          obtain ⟨rfl, -⟩ := Pushing.enqueuing.inj heq
          exact attachedName_mem hname
      · refine List.Sublist.trans ?_ (hsent name)
        exact ((List.Sublist.refl _).append (pendingFor_pushTrack s name track rest flushes)).append
          (List.Sublist.refl _)
  · have hmem := h.attached name samples rest flushes hpushing
    rw [hpushing] at hdrain hsent
    cases hdrain
    unfold OutboundAudio.enqueueAudio
    split_ifs with hskip
    · refine h.of_tracks h.kept rfl (fun _ => rfl) (by rintro _ _ _ _ ⟨⟩) (fun m => ?_) rfl rfl
        (fun _ => rfl)
      refine List.Sublist.trans ?_ (hsent m)
      exact ((List.Sublist.refl _).append (List.sublist_append_right _ _)).append
        (List.Sublist.refl _)
    · refine ⟨fun m => ?_, ?_, by rintro _ _ _ _ ⟨⟩, fun m => ?_, h.left, h.audio, ?_⟩
      · dsimp only
        by_cases hm : m = name
        · rw [hm, Function.update_self]
          exact (h.kept name).enqueue samples
        · rw [Function.update_of_ne hm]
          exact h.kept m
      · obtain ⟨overflow, hoverflow, heq⟩ := (s.tracks name).enqueue_eq samples
        have hterms : (fun m => (Function.update s.tracks name
            ((s.tracks name).enqueue samples) m).trimmed) =
              Function.update (fun m => (s.tracks m).trimmed) name
                ((s.tracks name).trimmed + overflow) := by
          funext m
          by_cases hm : m = name
          · rw [hm, Function.update_self, Function.update_self, heq]
          · rw [Function.update_of_ne hm, Function.update_of_ne hm]
        have hsum := sum_map_update out.nodup hmem (fun m => (s.tracks m).trimmed)
          ((s.tracks name).trimmed + overflow)
        dsimp only
        rw [hterms, h.dropped, ← hoverflow]
        omega
      · have hm' := hsent m
        dsimp only
        rw [field_update TrackAudio.sent (TrackAudio.sent_enqueue _ _)]
        by_cases hm : m = name
        · subst hm
          simp only [pendingFor] at hm' ⊢
          rw [Function.update_self, TrackAudio.enqueued_enqueue, List.append_assoc _ samples]
          exact hm'
        · simp only [pendingFor, if_neg (Ne.symm hm), List.nil_append] at hm' ⊢
          rw [Function.update_of_ne hm]
          exact hm'
      · intro m hm haudio
        dsimp only
        rw [field_update TrackAudio.wire (TrackAudio.wire_enqueue _ _)]
        exact h.ticked m hm haudio

theorem Fed.feed (h : Fed out s) : Fed out (s.feed out) := by
  have hleft := h.left
  have hticked := h.ticked
  unfold OutboundAudio.feed
  rcases hfeeding : s.feeding with _ | rest | ⟨name, paused, rest⟩
  · rw [hfeeding] at hticked
    refine ⟨h.kept, h.dropped, h.attached, h.sent, List.suffix_refl _, by rintro _ _ _ ⟨⟩, ?_⟩
    intro m hm haudio
    have := hticked m hm haudio
    simp only [fedNow, if_pos hm] at this ⊢
    exact this
  · rw [hfeeding] at hleft hticked
    rcases rest with _ | ⟨name, rest⟩
    · refine ⟨h.kept, h.dropped, h.attached, h.sent, List.nil_suffix, by rintro _ _ _ ⟨⟩, ?_⟩
      intro m hm haudio
      exact hticked m hm haudio
    · dsimp only
      split_ifs with hname
      · refine ⟨h.kept, h.dropped, h.attached, h.sent, hleft, ?_, hticked⟩
        rintro _ _ _ ⟨⟩
        exact hname
      · refine ⟨h.kept, h.dropped, h.attached, h.sent, ?_, by rintro _ _ _ ⟨⟩, ?_⟩
        · exact (List.suffix_cons name rest).trans hleft
        · -- a track of pictures is not fed
          intro m hm haudio
          have hne : m ≠ name := by
            rintro rfl
            exact hname haudio
          have := hticked m hm haudio
          simp only [fedNow, List.mem_cons, hne, false_or] at this ⊢
          exact this
  · rw [hfeeding] at hleft hticked
    have hnodup : (name :: rest).Nodup := out.nodup.sublist hleft.sublist
    obtain ⟨hlength, hsent, henqueued, htrimmed, -⟩ := (s.tracks name).pushFrame_eq paused
    refine ⟨fun m => ?_, ?_, h.attached, fun m => ?_, ?_, by rintro _ _ _ ⟨⟩, ?_⟩
    · dsimp only
      by_cases hm : m = name
      · rw [hm, Function.update_self]
        exact (h.kept name).pushFrame paused
      · rw [Function.update_of_ne hm]
        exact h.kept m
    · dsimp only
      simp only [field_update TrackAudio.trimmed htrimmed]
      exact h.dropped
    · dsimp only
      rw [field_update TrackAudio.enqueued henqueued, field_update TrackAudio.sent hsent]
      exact h.sent m
    · exact (List.suffix_cons name rest).trans hleft
    · intro m hm haudio
      have hm' := hticked m hm haudio
      dsimp only
      by_cases hname : m = name
      · subst hname
        simp only [fedNow, List.mem_cons, true_or, if_pos] at hm'
        rw [Function.update_self, hlength, hm', fedNow,
          if_neg (List.nodup_cons.mp hnodup).1]
      · rw [Function.update_of_ne hname]
        simp only [fedNow, List.mem_cons, hname, false_or] at hm' ⊢
        exact hm'

theorem Fed.next {l : Label S} (h : Fed out s) (hnext : s.next out l = some s') : Fed out s' := by
  cases l with
  | send bundle flushes =>
    simp only [OutboundAudio.next, Option.ite_none_right_eq_some] at hnext
    obtain rfl := Option.some.inj hnext.2
    exact h.sendMedia bundle flushes
  | flush =>
    cases hnext
    exact h.flushMedia
  | pause name =>
    cases hnext
    exact h.update (h.kept name).pause rfl rfl rfl rfl _
  | resume name =>
    cases hnext
    exact h.update (h.kept name).resume rfl rfl rfl rfl _
  | drain => exact h.drain hnext
  | feed =>
    cases hnext
    exact h.feed

/-! ### Resumes -/

/-- Each resume found less than a frame of what was enqueued before the pause. -/
def Reanchored (s : OutboundAudio S) : Prop :=
  ∀ name, ∀ r ∈ (s.tracks name).resumes, r.before - r.removed < audioFrameSamples

theorem Reanchored.update (h : s.Reanchored) {name : String} {track : TrackAudio S}
    (htracks : s'.tracks = Function.update s.tracks name track)
    (hresumes : track.resumes = (s.tracks name).resumes) : s'.Reanchored := by
  intro m r hr
  rw [htracks, field_update TrackAudio.resumes hresumes] at hr
  exact h m r hr

theorem Reanchored.next {l : Label S} (h : s.Reanchored) (hreanchors : s.reanchors l = true)
    (hnext : s.next out l = some s') : s'.Reanchored := by
  cases l with
  | send bundle flushes =>
    simp only [OutboundAudio.next, Option.ite_none_right_eq_some] at hnext
    obtain rfl := Option.some.inj hnext.2
    unfold OutboundAudio.sendMedia
    dsimp only
    split_ifs
    · exact h
    · exact h
  | flush =>
    cases hnext
    exact h
  | pause name =>
    cases hnext
    have htracks : (s.pause name).tracks =
        Function.update s.tracks name (s.tracks name).pause := rfl
    exact h.update htracks rfl
  | resume name =>
    cases hnext
    intro m r hr
    by_cases hm : m = name
    · subst hm
      simp only [OutboundAudio.resume, Function.update_self, TrackAudio.resume] at hr
      rcases List.mem_append.mp hr with hr | hr
      · exact h m r hr
      · rw [List.mem_singleton.mp hr]
        exact of_decide_eq_true hreanchors
    · simp only [OutboundAudio.resume, Function.update_of_ne hm] at hr
      exact h m r hr
  | drain =>
    simp only [OutboundAudio.next, OutboundAudio.drain] at hnext
    rcases hpushing : s.pushing with _ | ⟨bundle, flushes⟩ | ⟨rest, flushes⟩ |
      ⟨name, samples, rest, flushes⟩
    · rw [hpushing] at hnext
      rcases hqueue : s.frameQueue with _ | ⟨entry, queue⟩
      · rw [hqueue] at hnext
        cases hnext
      · rw [hqueue] at hnext
        cases hnext
        exact h
    · rw [hpushing] at hnext
      cases hnext
      exact h
    · rw [hpushing] at hnext
      rcases rest with _ | ⟨track, rest⟩
      · cases hnext
        exact h
      · cases hnext
        exact h
    · rw [hpushing] at hnext
      cases hnext
      unfold OutboundAudio.enqueueAudio
      split_ifs
      · exact h
      · exact h.update rfl (TrackAudio.resumes_enqueue _ _)
  | feed =>
    cases hnext
    unfold OutboundAudio.feed
    rcases hfeeding : s.feeding with _ | rest | ⟨name, paused, rest⟩
    · exact h
    · rcases rest with _ | ⟨name, rest⟩
      · exact h
      · exact h
    · exact h.update rfl ((s.tracks name).pushFrame_eq paused).2.2.2.2

/-! ### Every run -/

/-- In every run, for each audio track: a tick hands it one frame of 480 samples; a frame of the
model is 480 consecutive samples of those enqueued, after those of the frame before, and what was
enqueued is a subsequence of what was sent; what was enqueued was pushed, trimmed (which is counted
over the tracks) or flushed, or is one of the up to 9600 in the buffer; and no frame has a sample
that was enqueued before a flush that had returned.  Where a track is only resumed when its buffer
holds less than a frame of what was enqueued before the pause, less than a frame of that reaches the
wire after the resume. -/
theorem audio_accounted {out : OutTracks} {ls : List (Label S)} {s : OutboundAudio S} (zero : S)
    (hrun : (outboundAudio S out).run ls = some s) :
    (∀ name ∈ out.names, out.audio name = true →
      (s.tracks name).wire.length = s.ticks + fedNow name s.feeding) ∧
    (∀ name, ∀ frame ∈ (s.tracks name).wire, (frame.pcm zero).length = audioFrameSamples) ∧
    (∀ name, (∀ frame ∈ (s.tracks name).wire, frame.Slices (s.tracks name).enqueued) ∧
      ((s.tracks name).wire.flatMap WireFrame.modelSamples).Sublist (s.tracks name).enqueued ∧
      (s.tracks name).enqueued.Sublist (s.tracks name).sent) ∧
    (∀ name, (s.tracks name).enqueued.length =
        audioFrameSamples * (starts (s.tracks name).wire).length + (s.tracks name).trimmed +
          (s.tracks name).flushed + (s.tracks name).buf.length ∧
      (s.tracks name).buf.length ≤ audioBufferMaxSamples) ∧
    s.droppedSamples = (out.names.map fun name => (s.tracks name).trimmed).sum ∧
    (∀ name start cut samples, .model start cut samples ∈ (s.tracks name).wire → cut ≤ start) ∧
    ((outboundAudio S out).AllSteps (fun s l => s.reanchors l) ls →
      ∀ name, ∀ r ∈ (s.tracks name).resumes,
        stale r.before ((s.tracks name).wire.drop r.frames) < audioFrameSamples) := by
  have hfed : Fed out s := TransitionSystem.IsInvariant.of_run (I := Fed out)
    ⟨Fed.init out, fun s l s' h hnext => h.next hnext⟩ hrun
  refine ⟨hfed.ticked, fun name frame hframe => ?_, fun name => ⟨?_, ?_, ?_⟩,
    fun name => ⟨?_, (hfed.kept name).bounded⟩, hfed.dropped, ?_, fun hall name r hr => ?_⟩
  · exact ((hfed.kept name).slices frame hframe).length_pcm zero
  · exact (hfed.kept name).slices
  · have hsub := sublist_of_slices (hfed.kept name).slices (hfed.kept name).pairwise
      (fun a _ => Nat.zero_le a)
    rwa [List.drop_zero] at hsub
  · refine List.Sublist.trans ?_ (hfed.sent name)
    rw [List.append_assoc]
    exact List.sublist_append_left _ _
  · have hlength := (hfed.kept name).length_buf
    rw [(hfed.kept name).conserved] at hlength
    exact hlength.symm
  · intro name start cut samples hframe
    exact ((hfed.kept name).slices _ hframe).2.2
  · have hreanchored : s.Reanchored := hall.invariant (I := Reanchored) (fun _ _ hr => by cases hr)
      (fun s l s' h hl hnext => h.next hl hnext) hrun
    exact ((hfed.kept name).stale_le hr).trans_lt (hreanchored name r hr)

/-- A peer that sends one track of sound. -/
def voice : OutTracks where
  names := ["voice"]
  audio _ := true
  nodup := by decide

def voiceBundle (n : ℕ) : List (BundleTrack ℕ) := [⟨"voice", "voice", true, List.range n⟩]

/-- A bundle is sent and enqueued, the track is paused and resumed, and two ticks pass. -/
def pauseRun (n : ℕ) : List (Label ℕ) :=
  [.send (voiceBundle n) 0, .drain, .drain, .drain, .drain, .pause "voice", .resume "voice", .feed,
    .feed, .feed, .feed, .feed, .feed]

theorem isSome_pauseRun : ((outboundAudio ℕ voice).run (pauseRun 300)).isSome := rfl

def paused : OutboundAudio ℕ :=
  ((outboundAudio ℕ voice).run (pauseRun 300)).get isSome_pauseRun

theorem audio_accounted_pauseRun : (paused.tracks "voice").resumes.length = 1 ∧
    ∀ r ∈ (paused.tracks "voice").resumes,
      stale r.before ((paused.tracks "voice").wire.drop r.frames) < audioFrameSamples := by
  obtain ⟨-, -, -, -, -, -, hresumes⟩ :=
    audio_accounted 0 (Option.some_get isSome_pauseRun).symm
  exact ⟨by decide +kernel, hresumes (by decide +kernel) "voice"⟩

/-- After a pause and a resume the buffer plays on from before the pause. -/
theorem not_audio_accounted : ∃ s, (outboundAudio ℕ voice).run (pauseRun 500) = some s ∧
    ∃ r ∈ (s.tracks "voice").resumes,
      ¬ stale r.before ((s.tracks "voice").wire.drop r.frames) < audioFrameSamples := by
  have hany : (((outboundAudio ℕ voice).run (pauseRun 500)).any fun s =>
      (s.tracks "voice").resumes.any fun r =>
        !decide (stale r.before ((s.tracks "voice").wire.drop r.frames) < audioFrameSamples)) =
          true := by
    decide +kernel
  obtain ⟨s, hs, hresumes⟩ := (Option.any_eq_true _ _).mp hany
  obtain ⟨r, hr, hstale⟩ := List.any_eq_true.mp hresumes
  exact ⟨s, hs, r, hr, by simpa using hstale⟩

end OutboundAudio

end ReactorRuntime.WebRtc
