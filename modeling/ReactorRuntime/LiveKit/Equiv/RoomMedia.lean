import ReactorRuntime.LiveKit.RoomMedia
import ReactorRuntime.Transport.Equiv.FrameQueue

/-!
## A flush of the room, over whole runs

* `room_flush_cuts`: in every run the frames are handed to the room in the order in which they were
  submitted, and none twice, and a chunk that is neither cut nor made to wait is queued up to some
  frame and counts the rest as dropped.  In a run whose steps are all `Prompt`, no source is handed
  a frame that was submitted before a flush that had returned, and no audio of one is left once the
  callbacks scheduled by then were made.
* `not_room_flush_cuts`: the pacing thread hands a frame to the room that it took before the flush,
  after the flush has returned, and its sound is queued after `_clear_audio`.

A flush that has returned has a `_clear_audio` among the callbacks, the last that was scheduled by
then, until it is made; the frames after it, and those that wait once it is made, are younger
(`Cuts`).
-/

namespace ReactorRuntime.LiveKit

open ReactorRuntime.Transport (FrameQueue)
open ReactorRuntime.Transport.FrameQueue (epoch_step)

/-- What the tick has taken and not dispatched yet. -/
def PacingThread.undispatched : PacingThread → List RoomFrame
  | .taken (some frame) => [frame]
  | .taken Option.none | .none | .resting | .due | .sending _ _ | .ended => []

namespace RoomMedia

variable {s s' : RoomMedia} {video audio : List String}

/-! ### The steps -/

inductive Move (s : RoomMedia) : Label → RoomMedia → Prop where
  | producer (l : FrameQueue.Label (List RoomTrack)) (pacer : FrameQueue (List RoomTrack))
    (hstep : s.pacer.step l = some pacer) : Move s (.producer l) { s with pacer }
  | flush (hold : Bool) : Move s (.flush hold) (s.flush hold)
  | flushReturns (flush : ℕ) (hflush : flush ∈ s.flushing) :
    Move s (.flushReturns flush) (s.flushReturns flush)
  | begins (stopped closed : Bool) (l : Label) (thread : PacingThread)
    (hthread : thread.frame? = none ∨ thread = s.thread) :
    Move s l { s with pacer := { s.pacer with stopped, closed }, thread }
  | joined : Move s .joined { s with pacer := s.pacer.clear }
  | closeEnds : Move s .closeEnds { s.clearAudio with cancelled := true }
  /-- The pacing thread goes on with no frame in hand. -/
  | rests (l : Label) (black : Bool) (thread : PacingThread) (hthread : thread.frame? = none) :
    Move s l { s with blackPending := black, thread }
  | takes (frame : RoomFrame) (pacer : FrameQueue (List RoomTrack)) (dims : Bool)
    (hthread : s.thread = .due) (htake : s.pacer.take = some (frame, pacer)) :
    Move s .tick { s with
      pacer, blackPending := false, frameDims := dims, thread := .taken (some frame) }
  | dispatches (frame : RoomFrame) (hthread : s.thread = .taken (some frame)) :
    Move s .dispatch { s with
      handed := s.handed ++ [frame], thread := .sending (some frame) frame.content }
  | sends (frame : Option RoomFrame) (track : RoomTrack) (tracks : List RoomTrack)
    (hthread : s.thread = .sending frame (track :: tracks)) :
    Move s .send { s.sendTrack frame track with thread := .sending frame tracks }
  | queues (track : String) (frame : RoomFrame) (calls : List LoopCall)
    (hcalls : s.calls = .queueAudio track frame :: calls) :
    Move s .call { s.queueAudio track frame with calls, made := s.made + 1 }
  | clears (calls : List LoopCall) (hcalls : s.calls = .clearAudio :: calls) :
    Move s .call { s.clearAudio with calls, made := s.made + 1 }
  | pumps (track : String) (frame : RoomFrame) (waiting : List RoomFrame)
    (hpending : s.pending track = frame :: waiting) :
    Move s (.pump track)
      { s.capture (some frame) with pending := Function.update s.pending track waiting }

theorem Move.of_tick (htick : s.tick = some s') : Move s .tick s' := by
  unfold RoomMedia.tick at htick
  cases hthread : s.thread <;> simp only [hthread, reduceCtorEq] at htick
  cases htake : s.pacer.take with
  | some taken =>
    rw [htake] at htick
    cases htick
    exact .takes taken.1 taken.2 _ hthread htake
  | none =>
    simp only [htake] at htick
    split_ifs at htick
    · cases htick
      exact .rests .tick false (.taken none) rfl
    · cases htick
      exact .rests .tick false .resting rfl
    · cases htick
      exact .rests .tick s.blackPending .resting rfl

theorem Move.of_dispatch (hdispatch : s.dispatch = some s') : Move s .dispatch s' := by
  unfold RoomMedia.dispatch at hdispatch
  cases hthread : s.thread with
  | none | resting | due | sending | ended => simp [hthread] at hdispatch
  | taken frame =>
    cases frame with
    | none =>
      simp only [hthread] at hdispatch
      cases hdispatch
      exact .rests .dispatch s.blackPending (.sending none s.blackTracks) rfl
    | some frame =>
      simp only [hthread] at hdispatch
      cases hdispatch
      exact .dispatches frame hthread

theorem Move.of_send (hsend : s.send = some s') : Move s .send s' := by
  unfold RoomMedia.send at hsend
  cases hthread : s.thread with
  | none | resting | due | taken | ended => simp [hthread] at hsend
  | sending frame tracks =>
    cases tracks with
    | nil =>
      simp only [hthread] at hsend
      cases hsend
      exact .rests .send s.blackPending .resting rfl
    | cons track tracks =>
      simp only [hthread] at hsend
      cases hsend
      exact .sends frame track tracks hthread

theorem Move.of_call (hcall : s.call = some s') : Move s .call s' := by
  unfold RoomMedia.call at hcall
  cases hcalls : s.calls with
  | nil => rw [hcalls] at hcall; cases hcall
  | cons c calls =>
    cases c with
    | queueAudio track frame =>
      rw [hcalls] at hcall
      cases hcall
      exact .queues track frame calls hcalls
    | clearAudio =>
      rw [hcalls] at hcall
      cases hcall
      exact .clears calls hcalls

theorem Move.of_pump {track : String} (hpump : s.pump track = some s') :
    Move s (.pump track) s' := by
  unfold RoomMedia.pump at hpump
  cases hcancelled : s.cancelled <;> cases hpending : s.pending track <;>
    simp only [hcancelled, hpending, reduceCtorEq] at hpump
  cases hpump
  exact .pumps track _ _ hpending

theorem Move.of_step {l : Label} (hstep : s.step l = some s') : Move s l s' := by
  cases l with
  | producer l =>
    obtain ⟨pacer, hpacer, rfl⟩ := Option.map_eq_some_iff.mp hstep
    exact .producer l pacer hpacer
  | flush hold =>
    cases hstep
    exact .flush hold
  | flushReturns flush =>
    simp only [RoomMedia.step] at hstep
    split_ifs at hstep with hflush
    cases hstep
    exact .flushReturns flush hflush
  | start =>
    cases hstep
    unfold start
    split_ifs
    · exact .begins s.pacer.stopped s.pacer.closed .start s.thread (.inr rfl)
    · exact .begins false s.pacer.closed .start .resting (.inl rfl)
  | stop =>
    cases hstep
    exact .begins true true .stop s.thread (.inr rfl)
  | joined =>
    simp only [RoomMedia.step, RoomMedia.joined] at hstep
    cases hthread : s.thread <;> simp only [hthread, reduceCtorEq] at hstep
    all_goals
      split_ifs at hstep
      cases hstep
      rw [← hthread]
      exact .joined
  | closeEnds =>
    simp only [RoomMedia.step, RoomMedia.closeEnds] at hstep
    split_ifs at hstep
    cases hstep
    exact .closeEnds
  | loopHead =>
    simp only [RoomMedia.step, loopHead] at hstep
    cases hthread : s.thread <;> simp only [hthread, reduceCtorEq] at hstep
    cases hstep
    refine .rests .loopHead s.blackPending _ ?_
    split_ifs <;> rfl
  | tick => exact .of_tick hstep
  | dispatch => exact .of_dispatch hstep
  | send => exact .of_send hstep
  | sendRaises =>
    simp only [RoomMedia.step, RoomMedia.sendRaises] at hstep
    cases hthread : s.thread <;> simp only [hthread, reduceCtorEq] at hstep
    cases hstep
    exact .rests .sendRaises s.blackPending .resting rfl
  | call => exact .of_call hstep
  | pump track => exact .of_pump hstep

/-! ### The order of the frames, and what is dropped -/

/-- What holds of the frames in every run. -/
structure Paced (s : RoomMedia) : Prop where
  orderly : s.pacer.Orderly (s.handed ++ s.thread.undispatched)
  prefixed : s.pacer.Prefixed

@[simp] theorem pacer_sendTrack {frame : Option RoomFrame} {track : RoomTrack} :
    (s.sendTrack frame track).pacer = s.pacer := by
  unfold sendTrack
  cases track.kind <;> simp only <;> split_ifs <;> rfl

@[simp] theorem handed_sendTrack {frame : Option RoomFrame} {track : RoomTrack} :
    (s.sendTrack frame track).handed = s.handed := by
  unfold sendTrack
  cases track.kind <;> simp only <;> split_ifs <;> rfl

theorem undispatched_eq_nil {thread : PacingThread} (h : thread.frame? = none) :
    thread.undispatched = [] := by
  cases thread with
  | taken frame => cases frame with
    | none => rfl
    | some frame => cases h
  | none | resting | due | sending | ended => rfl

theorem Paced.step (h : Paced s) {l : Label} (hstep : s.step l = some s') : Paced s' := by
  have hlost : s.pacer.Orderly s.handed := h.orderly.mono (List.sublist_append_left _ _)
  cases Move.of_step hstep with
  | producer l pacer hmove => exact ⟨h.orderly.step hmove, h.prefixed.step hmove⟩
  | flush hold => exact ⟨h.orderly.flush, h.prefixed.flush⟩
  | flushReturns flush hflush => exact ⟨h.orderly, h.prefixed⟩
  | begins stopped closed l thread hthread =>
    refine ⟨?_, h.prefixed.of_eq (Nat.le_refl _) rfl rfl rfl rfl rfl rfl⟩
    obtain hnone | rfl := hthread
    · show FrameQueue.Orderly _ (s.handed ++ thread.undispatched)
      rw [undispatched_eq_nil hnone, List.append_nil]
      exact ⟨hlost.line, hlost.keys, hlost.chunk_lt⟩
    · exact ⟨h.orderly.line, h.orderly.keys, h.orderly.chunk_lt⟩
  | joined => exact ⟨h.orderly.clear, h.prefixed.clear⟩
  | closeEnds => exact ⟨h.orderly, h.prefixed⟩
  | rests l black thread hthread =>
    refine ⟨?_, h.prefixed⟩
    show FrameQueue.Orderly _ (s.handed ++ thread.undispatched)
    rw [undispatched_eq_nil hthread, List.append_nil]
    exact hlost
  | takes frame pacer dims hthread htake => exact ⟨hlost.take htake, h.prefixed.take htake⟩
  | dispatches frame hthread =>
    refine ⟨?_, h.prefixed⟩
    have horderly := h.orderly
    rw [hthread] at horderly
    show FrameQueue.Orderly _ (s.handed ++ [frame] ++ [])
    rwa [List.append_nil]
  | sends frame track tracks hthread =>
    constructor
    · show (s.sendTrack frame track).pacer.Orderly ((s.sendTrack frame track).handed ++ [])
      rw [pacer_sendTrack, handed_sendTrack, List.append_nil]
      exact hlost
    · show (s.sendTrack frame track).pacer.Prefixed
      rw [pacer_sendTrack]
      exact h.prefixed
  | queues track frame calls hcalls => exact ⟨h.orderly, h.prefixed⟩
  | clears calls hcalls => exact ⟨h.orderly, h.prefixed⟩
  | pumps track frame waiting hpending => exact ⟨h.orderly, h.prefixed⟩

/-! ### What a flush cuts -/

/-- No flush lands while the pacing thread has a frame in hand, or between the call of `submit` and
its reading of the epoch; and a pump takes no audio while a `_clear_audio` waits. -/
def Prompt (s : RoomMedia) : Label → Prop
  | .flush _ => s.thread.frame? = none ∧ s.pacer.EpochRead
  | .pump _ => LoopCall.clearAudio ∉ s.calls
  | .producer _ | .flushReturns _ | .start | .stop | .joined | .closeEnds | .loopHead | .tick
  | .dispatch | .send | .sendRaises | .call => True

instance (l : Label) : Decidable (s.Prompt l) :=
  match l with
  | .flush _ => inferInstanceAs (Decidable (s.thread.frame? = none ∧ s.pacer.EpochRead))
  | .pump _ => inferInstanceAs (Decidable (LoopCall.clearAudio ∉ s.calls))
  | .producer _ | .flushReturns _ | .start | .stop | .joined | .closeEnds | .loopHead | .tick
  | .dispatch | .send | .sendRaises | .call => .isTrue trivial

structure Returned (s : RoomMedia) (r : ℕ × ℕ) : Prop where
  flush_le : r.1 ≤ s.pacer.epoch
  scheduled_le : r.2 ≤ s.made + s.calls.length
  waits : s.made < r.2 → s.calls[r.2 - s.made - 1]? = some .clearAudio
  later : ∀ track f, .queueAudio track f ∈ s.calls.drop (r.2 - s.made) → r.1 ≤ f.born
  done : r.2 ≤ s.made → ∀ track, ∀ f ∈ s.pending track, r.1 ≤ f.born

section Returned

variable {r : ℕ × ℕ}

theorem Returned.schedule (h : Returned s r) {more : List LoopCall}
    (hepoch : s.pacer.epoch ≤ s'.pacer.epoch) (hmade : s'.made = s.made)
    (hcalls : s'.calls = s.calls ++ more)
    (hmore : ∀ track f, .queueAudio track f ∈ more → r.1 ≤ f.born)
    (hpending : ∀ track, ∀ f ∈ s'.pending track, f ∈ s.pending track) : Returned s' r where
  flush_le := Nat.le_trans h.flush_le hepoch
  scheduled_le := by
    have hle := h.scheduled_le
    rw [hcalls, hmade, List.length_append]
    omega
  waits := by
    intro hlt
    rw [hmade] at hlt ⊢
    have hle := h.scheduled_le
    rw [hcalls, List.getElem?_append_left (by omega)]
    exact h.waits hlt
  later := by
    intro track f hf
    have hle := h.scheduled_le
    rw [hcalls, hmade, List.drop_append_of_le_length (by omega)] at hf
    obtain hf | hf := List.mem_append.mp hf
    · exact h.later track f hf
    · exact hmore track f hf
  done := by
    intro hle track f hf
    rw [hmade] at hle
    exact h.done hle track f (hpending track f hf)

theorem Returned.of_eq (h : Returned s r) (hepoch : s.pacer.epoch ≤ s'.pacer.epoch)
    (hmade : s'.made = s.made) (hcalls : s'.calls = s.calls)
    (hpending : ∀ track, ∀ f ∈ s'.pending track, f ∈ s.pending track) : Returned s' r :=
  h.schedule hepoch hmade (hcalls.trans (List.append_nil _).symm)
    (fun _ _ hf => absurd hf List.not_mem_nil) hpending

theorem Returned.call (h : Returned s r) {c : LoopCall} {calls : List LoopCall}
    (hcalls : s.calls = c :: calls) (hepoch : s'.pacer.epoch = s.pacer.epoch)
    (hmade : s'.made = s.made + 1) (hcalls' : s'.calls = calls)
    (hclear : c = .clearAudio → ∀ track, s'.pending track = [])
    (hqueue : ∀ track f, c = .queueAudio track f →
      ∀ track', ∀ g ∈ s'.pending track', g = f ∨ g ∈ s.pending track') : Returned s' r where
  flush_le := hepoch ▸ h.flush_le
  scheduled_le := by
    have hle := h.scheduled_le
    rw [hcalls, List.length_cons] at hle
    rw [hcalls', hmade]
    omega
  waits := by
    intro hlt
    rw [hmade] at hlt
    have hwaits := h.waits (by omega)
    have hindex : r.2 - s.made - 1 = r.2 - (s.made + 1) - 1 + 1 := by omega
    rw [hcalls, hindex, List.getElem?_cons_succ] at hwaits
    rw [hcalls', hmade]
    exact hwaits
  later := by
    intro track f hf
    rw [hcalls', hmade] at hf
    have hlater := h.later track f
    rw [hcalls] at hlater
    by_cases hlt : s.made < r.2
    · have hindex : r.2 - s.made = r.2 - (s.made + 1) + 1 := by omega
      rw [hindex, List.drop_succ_cons] at hlater
      exact hlater hf
    · have hzero : r.2 - s.made = 0 := by omega
      rw [hzero, List.drop_zero] at hlater
      exact hlater (List.mem_cons_of_mem _ ((List.drop_sublist _ _).mem hf))
  done := by
    intro hle track g hg
    rw [hmade] at hle
    -- The callback is the `_clear_audio` of the flush, or it was scheduled after that.
    obtain hlt | heq : r.2 ≤ s.made ∨ r.2 = s.made + 1 := by omega
    · cases c with
      | clearAudio =>
        rw [hclear rfl track] at hg
        cases hg
      | queueAudio track' f =>
        obtain rfl | hg := hqueue track' f rfl track g hg
        · refine h.later track' g ?_
          rw [hcalls, Nat.sub_eq_zero_of_le hlt]
          exact List.mem_cons_self
        · exact h.done hlt track g hg
    · have hwaits := h.waits (by omega)
      rw [hcalls, heq, show s.made + 1 - s.made - 1 = 0 by omega, List.getElem?_cons_zero] at hwaits
      rw [hclear (Option.some.inj hwaits) track] at hg
      cases hg

end Returned

/-- What holds in a run whose steps are all prompt. -/
structure Cuts (s : RoomMedia) : Prop where
  since : s.pacer.Since s.pacer.epoch
  inHand : ∀ f, s.thread.frame? = some f → s.pacer.epoch ≤ f.born
  flushing : ∀ flush ∈ s.flushing, flush ≤ s.pacer.epoch
  returned : ∀ r ∈ s.returned, Returned s r
  sources : ∀ p ∈ s.sources, p.2 ≤ p.1.born

theorem newest_le {n : ℕ} (h : ∀ r ∈ s.returned, r.1 ≤ n) : s.newest ≤ n := by
  unfold newest
  revert h
  induction s.returned with
  | nil => exact fun _ => Nat.zero_le _
  | cons r l ih =>
    intro h
    exact Nat.max_le.mpr
      ⟨h r List.mem_cons_self, ih fun r hr => h r (List.mem_cons_of_mem _ hr)⟩

theorem sendTrack_cases (frame : Option RoomFrame) (track : RoomTrack) :
    s.sendTrack frame track = s ∨ s.sendTrack frame track = s.capture frame ∨
      ∃ key, s.sendTrack frame track =
        { s with calls := s.calls ++ frame.toList.map (.queueAudio key) } := by
  unfold sendTrack
  cases track.kind with
  | video =>
    simp only
    split_ifs
    · exact .inr (.inl rfl)
    · exact .inl rfl
  | audio =>
    simp only
    split_ifs
    · exact .inr (.inr ⟨_, rfl⟩)
    · exact .inl rfl

theorem Cuts.capture (h : Cuts s) (frame : Option RoomFrame)
    (hframe : ∀ f, frame = some f → ∀ r ∈ s.returned, r.1 ≤ f.born) : Cuts (s.capture frame) where
  since := h.since
  inHand := h.inHand
  flushing := h.flushing
  returned r hr := (h.returned r hr).of_eq (Nat.le_refl _) rfl rfl fun _ _ hf => hf
  sources := by
    intro p hp
    obtain hp | hp := List.mem_append.mp hp
    · exact h.sources p hp
    · obtain ⟨f, hf, rfl⟩ := List.mem_map.mp hp
      exact newest_le (hframe f (Option.mem_toList.mp hf))

theorem Cuts.sendTrack (h : Cuts s) {frame : Option RoomFrame}
    (hframe : ∀ f, frame = some f → s.pacer.epoch ≤ f.born) (track : RoomTrack) :
    Cuts (s.sendTrack frame track) := by
  have hafter : ∀ f, frame = some f → ∀ r ∈ s.returned, r.1 ≤ f.born := by
    intro f hf r hr
    exact Nat.le_trans (h.returned r hr).flush_le (hframe f hf)
  obtain heq | heq | ⟨key, heq⟩ := sendTrack_cases (s := s) frame track
  · rw [heq]
    exact h
  · rw [heq]
    exact h.capture frame hafter
  · rw [heq]
    refine ⟨h.since, h.inHand, h.flushing, fun r hr => ?_, h.sources⟩
    refine (h.returned r hr).schedule (Nat.le_refl _) rfl rfl (fun track f hf => ?_)
      fun _ _ hf => hf
    obtain ⟨g, hg, heq⟩ := List.mem_map.mp hf
    obtain ⟨_, rfl⟩ := LoopCall.queueAudio.inj heq
    exact hafter g (Option.mem_toList.mp hg) r hr

theorem mem_pending_queueAudio {track track' : String} {f g : RoomFrame}
    (hg : g ∈ (s.queueAudio track f).pending track') : g = f ∨ g ∈ s.pending track' := by
  have hg' : g ∈ Function.update s.pending track _ track' := hg
  by_cases htrack : track' = track
  · subst htrack
    rw [Function.update_self] at hg'
    obtain hg' | hg' := List.mem_append.mp hg'
    · right
      split_ifs at hg'
      · exact List.mem_of_mem_tail hg'
      · exact hg'
    · exact .inl (List.mem_singleton.mp hg')
  · rw [Function.update_of_ne htrack] at hg'
    exact .inr hg'

theorem Cuts.flushReturns (h : Cuts s) {flush : ℕ} (hflush : flush ∈ s.flushing) :
    Returned (s.flushReturns flush) (flush, s.made + s.calls.length + 1) where
  flush_le := h.flushing flush hflush
  scheduled_le := by
    show s.made + s.calls.length + 1 ≤ s.made + (s.calls ++ [_]).length
    rw [List.length_append, List.length_singleton]
    omega
  waits := by
    intro _
    show (s.calls ++ [_])[s.made + s.calls.length + 1 - s.made - 1]? = some LoopCall.clearAudio
    rw [show s.made + s.calls.length + 1 - s.made - 1 = s.calls.length by omega,
      List.getElem?_concat_length]
  later := by
    intro track f hf
    have hlength : (s.calls ++ [LoopCall.clearAudio]).length ≤
        s.made + s.calls.length + 1 - s.made := by
      rw [List.length_append, List.length_singleton]
      omega
    have hf' : LoopCall.queueAudio track f ∈
        (s.calls ++ [LoopCall.clearAudio]).drop (s.made + s.calls.length + 1 - s.made) := hf
    rw [List.drop_eq_nil_of_le hlength] at hf'
    cases hf'
  done := by
    intro hle
    have hle' : s.made + s.calls.length + 1 ≤ s.made := hle
    omega

theorem Cuts.step (h : Cuts s) {l : Label} (hprompt : s.Prompt l) (hstep : s.step l = some s') :
    Cuts s' := by
  have hsame : ∀ {t : RoomMedia}, t.pacer.epoch = s.pacer.epoch → t.made = s.made →
      t.calls = s.calls → t.pending = s.pending → ∀ r ∈ s.returned, Returned t r :=
    fun hepoch hmade hcalls hpending r hr =>
      (h.returned r hr).of_eq (Nat.le_of_eq hepoch.symm) hmade hcalls fun track f hf => by
        rwa [hpending] at hf
  cases Move.of_step hstep with
  | producer l pacer hmove =>
    have hepoch := epoch_step hmove
    refine ⟨?_, ?_, ?_, hsame hepoch rfl rfl rfl, h.sources⟩
    · show FrameQueue.Since pacer pacer.epoch
      rw [hepoch]
      exact h.since.step hmove
    · intro f hf
      exact Nat.le_trans (Nat.le_of_eq hepoch) (h.inHand f hf)
    · intro flush hflush
      exact Nat.le_trans (h.flushing flush hflush) (Nat.le_of_eq hepoch.symm)
  | flush hold =>
    obtain ⟨hidle, hread⟩ := hprompt
    refine ⟨h.since.flush hread, ?_, ?_, ?_, h.sources⟩
    · intro f hf
      rw [show s.thread.frame? = some f from hf] at hidle
      cases hidle
    · intro flush hflush
      obtain hflush | hflush := List.mem_append.mp hflush
      · exact Nat.le_trans (h.flushing flush hflush) (Nat.le_succ _)
      · exact Nat.le_of_eq (List.mem_singleton.mp hflush)
    · intro r hr
      exact (h.returned r hr).of_eq (Nat.le_succ _) rfl rfl fun _ _ hf => hf
  | flushReturns flush hflush =>
    refine ⟨h.since, h.inHand, fun f hf => h.flushing f (List.mem_of_mem_erase hf), ?_, h.sources⟩
    intro r hr
    obtain hr | hr := List.mem_append.mp hr
    · refine (h.returned r hr).schedule (Nat.le_refl _) rfl rfl (fun track f hf => ?_)
        fun _ _ hf => hf
      cases List.mem_singleton.mp hf
    · obtain rfl := List.mem_singleton.mp hr
      exact h.flushReturns hflush
  | begins stopped closed l thread hthread =>
    refine ⟨?_, ?_, h.flushing, hsame rfl rfl rfl rfl, h.sources⟩
    · exact ⟨h.since.queue, h.since.puts.of_eq rfl rfl⟩
    · intro f hf
      obtain hnone | rfl := hthread
      · rw [show thread.frame? = some f from hf] at hnone
        cases hnone
      · exact h.inHand f hf
  | joined => exact ⟨h.since.clear, h.inHand, h.flushing, hsame rfl rfl rfl rfl, h.sources⟩
  | closeEnds =>
    refine ⟨h.since, h.inHand, h.flushing, fun r hr => ?_, h.sources⟩
    exact (h.returned r hr).of_eq (Nat.le_refl _) rfl rfl fun _ _ hf => absurd hf List.not_mem_nil
  | rests l black thread hthread =>
    refine ⟨h.since, fun f hf => ?_, h.flushing, hsame rfl rfl rfl rfl, h.sources⟩
    rw [show thread.frame? = some f from hf] at hthread
    cases hthread
  | takes frame pacer dims hthread htake =>
    obtain ⟨hsince, hborn, hepoch⟩ := h.since.take htake
    refine ⟨?_, ?_, ?_, hsame hepoch rfl rfl rfl, h.sources⟩
    · show FrameQueue.Since pacer pacer.epoch
      rw [hepoch]
      exact hsince
    · intro f hf
      cases hf
      exact Nat.le_trans (Nat.le_of_eq hepoch) hborn
    · intro flush hflush
      exact Nat.le_trans (h.flushing flush hflush) (Nat.le_of_eq hepoch.symm)
  | dispatches frame hthread =>
    refine ⟨h.since, fun f hf => ?_, h.flushing, hsame rfl rfl rfl rfl, h.sources⟩
    exact h.inHand f (hthread ▸ hf)
  | sends frame track tracks hthread =>
    have hframe : ∀ f, frame = some f → s.pacer.epoch ≤ f.born :=
      fun f hf => h.inHand f (by rw [hthread]; exact hf)
    have hsent := h.sendTrack hframe track
    refine ⟨hsent.since, fun f hf => ?_, hsent.flushing, fun r hr => ?_, hsent.sources⟩
    · show (s.sendTrack frame track).pacer.epoch ≤ f.born
      rw [pacer_sendTrack]
      exact hframe f hf
    · exact (hsent.returned r hr).of_eq (Nat.le_refl _) rfl rfl fun _ _ hf => hf
  | queues track frame calls hcalls =>
    refine ⟨h.since, h.inHand, h.flushing, fun r hr => ?_, h.sources⟩
    refine (h.returned r hr).call hcalls rfl rfl rfl (fun hc => LoopCall.noConfusion hc) ?_
    intro track' f hc track'' g hg
    obtain ⟨_, rfl⟩ := LoopCall.queueAudio.inj hc
    exact mem_pending_queueAudio hg
  | clears calls hcalls =>
    refine ⟨h.since, h.inHand, h.flushing, fun r hr => ?_, h.sources⟩
    exact (h.returned r hr).call hcalls rfl rfl rfl (fun _ _ => rfl)
      fun _ _ hc => LoopCall.noConfusion hc
  | pumps track frame waiting hpending =>
    -- No `_clear_audio` waits, so that of every flush that has returned was made.
    have hdone : ∀ r ∈ s.returned, r.2 ≤ s.made := by
      intro r hr
      by_contra hlt
      exact hprompt (List.mem_of_getElem? ((h.returned r hr).waits (Nat.lt_of_not_le hlt)))
    have hcaptured := h.capture (some frame) fun f hf r hr => by
      cases hf
      refine (h.returned r hr).done (hdone r hr) track frame ?_
      rw [hpending]
      exact List.mem_cons_self
    refine ⟨hcaptured.since, hcaptured.inHand, hcaptured.flushing, fun r hr => ?_,
      hcaptured.sources⟩
    refine (hcaptured.returned r hr).of_eq (Nat.le_refl _) rfl rfl fun track' f hf => ?_
    have hf' : f ∈ Function.update s.pending track waiting track' := hf
    by_cases htrack : track' = track
    · subst htrack
      rw [Function.update_self] at hf'
      show f ∈ s.pending track'
      rw [hpending]
      exact List.mem_cons_of_mem _ hf'
    · rwa [Function.update_of_ne htrack] at hf'

/-! ### Whole runs -/

/-- Once a flush has returned, no source is handed a frame that was submitted before it; and once
the callbacks scheduled by then were made, no audio of one is left. -/
structure FlushCuts (s : RoomMedia) : Prop where
  sources : ∀ p ∈ s.sources, p.2 ≤ p.1.born
  audio : ∀ r ∈ s.returned, r.2 ≤ s.made → (∀ track, ∀ f ∈ s.pending track, r.1 ≤ f.born) ∧
    ∀ track f, .queueAudio track f ∈ s.calls → r.1 ≤ f.born

theorem Cuts.flushCuts (h : Cuts s) : FlushCuts s where
  sources := h.sources
  audio := by
    intro r hr hle
    refine ⟨(h.returned r hr).done hle, fun track f hf => (h.returned r hr).later track f ?_⟩
    rwa [Nat.sub_eq_zero_of_le hle]

theorem isInvariant_paced : (roomMedia video audio).IsInvariant Paced where
  init := ⟨FrameQueue.orderly_new, FrameQueue.prefixed_new⟩
  step _ _ _ h hstep := h.step hstep

theorem cuts_init : Cuts (roomMedia video audio).init where
  since := FrameQueue.since_new
  inHand _ hf := absurd hf.symm (Option.some_ne_none _)
  flushing _ hf := absurd hf List.not_mem_nil
  returned _ hr := absurd hr List.not_mem_nil
  sources _ hp := absurd hp List.not_mem_nil

/-- The frames are handed to the room in order and once, and a run whose steps are all prompt cuts
cleanly. -/
theorem room_flush_cuts {ls : List Label} (hrun : (roomMedia video audio).run ls = some s) :
    s.pacer.Delivered s.handed ∧ ((roomMedia video audio).AllSteps Prompt ls → FlushCuts s) := by
  constructor
  · have hpaced := isInvariant_paced.of_run hrun
    exact FrameQueue.delivered (hpaced.orderly.mono (List.sublist_append_left _ _)) hpaced.prefixed
  · intro hprompt
    exact (hprompt.invariant cuts_init (fun _ _ _ h hl hstep => h.step hl hstep) hrun).flushCuts

/-- A frame with a picture and sound. -/
def shown : List RoomTrack :=
  [{ name := "main", infoName := "main", kind := .video },
    { name := "sound", infoName := "sound", kind := .audio }]

def putOne : List Label :=
  [.producer (.submit [shown] false), .producer .readEpoch, .producer .nextFrame, .producer .put,
    .producer .nextFrame]

/-- A frame goes from the queue to the room. -/
def showOne : List Label := [.loopHead, .tick, .dispatch, .send, .send, .send]

/-- A frame is shown, the model flushes, and a frame that is submitted after that is shown. -/
def promptRun : List Label :=
  .start :: (putOne ++ showOne ++ [.call, .pump "sound"] ++ putOne ++
    [.flush false, .flushReturns 1, .call] ++ putOne ++ showOne ++ [.call, .pump "sound"])

theorem isSome_promptRun : ((roomMedia ["main"] ["sound"]).run promptRun).isSome := rfl

theorem room_flush_cuts_promptRun :
    FlushCuts (((roomMedia ["main"] ["sound"]).run promptRun).get isSome_promptRun) ∧
      (((roomMedia ["main"] ["sound"]).run promptRun).get isSome_promptRun).sources.map
        (fun p => (p.1.chunk, p.2)) = [(0, 0), (0, 0), (2, 1), (2, 1)] :=
  ⟨(room_flush_cuts (Option.some_get isSome_promptRun).symm).2 (by decide +kernel),
    by decide +kernel⟩

/-- The flush lands between the two parts of a tick. -/
def inHandRun : List Label :=
  .start :: (putOne ++ [.loopHead, .tick, .flush false, .flushReturns 1, .call, .dispatch, .send,
    .send, .call])

/-- The pump takes audio that the event loop is still to clear. -/
def soundRun : List Label :=
  .start :: (putOne ++ showOne ++ [.call, .flush false, .flushReturns 1, .pump "sound"])

def betweenRun : List Label :=
  [.start, .producer (.submit [shown] false), .flush false, .flushReturns 1, .producer .readEpoch,
    .producer .nextFrame, .producer .put] ++ showOne

/-- In the run a source is handed a frame that was submitted before a flush that has returned. -/
def PlaysLate (ls : List Label) : Prop :=
  ∃ s, (roomMedia ["main"] ["sound"]).run ls = some s ∧ ∃ p ∈ s.sources, ¬p.2 ≤ p.1.born

theorem playsLate_of_mem {ls : List Label} (hls : ls ∈ [inHandRun, soundRun, betweenRun]) :
    PlaysLate ls := by
  have hany : (((roomMedia ["main"] ["sound"]).run ls).any fun s =>
      s.sources.any fun p => !decide (p.2 ≤ p.1.born)) = true := by
    revert ls
    decide +kernel
  obtain ⟨s, hs, hsources⟩ := (Option.any_eq_true _ _).mp hany
  obtain ⟨p, hmem, hlate⟩ := List.any_eq_true.mp hsources
  exact ⟨s, hs, p, hmem, by simpa using hlate⟩

/-- In the run audio that was submitted before a flush waits for its pump, and the callbacks
scheduled by the return of the flush were made. -/
def LeavesAudio (ls : List Label) : Prop :=
  ∃ s, (roomMedia ["main"] ["sound"]).run ls = some s ∧
    ∃ r ∈ s.returned, r.2 ≤ s.made ∧ ∃ f ∈ s.pending "sound", ¬r.1 ≤ f.born

theorem leavesAudio_inHandRun : LeavesAudio inHandRun := by
  have hany : (((roomMedia ["main"] ["sound"]).run inHandRun).any fun s =>
      s.returned.any fun r => decide (r.2 ≤ s.made ∧ ∃ f ∈ s.pending "sound", ¬r.1 ≤ f.born)) =
        true := by
    decide +kernel
  obtain ⟨s, hs, hreturned⟩ := (Option.any_eq_true _ _).mp hany
  obtain ⟨r, hmem, hleft⟩ := List.any_eq_true.mp hreturned
  exact ⟨s, hs, r, hmem, of_decide_eq_true hleft⟩

theorem not_room_flush_cuts : PlaysLate inHandRun ∧ LeavesAudio inHandRun ∧ PlaysLate soundRun ∧
    PlaysLate betweenRun :=
  ⟨playsLate_of_mem (by simp), leavesAudio_inHandRun, playsLate_of_mem (by simp),
    playsLate_of_mem (by simp)⟩

end RoomMedia

end ReactorRuntime.LiveKit
