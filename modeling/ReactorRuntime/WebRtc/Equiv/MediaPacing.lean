import ReactorRuntime.WebRtc.MediaPacing
import ReactorRuntime.Transport.Equiv.FrameQueue

/-!
## The pacer of a WebRTC connection, over whole runs

* `paced`: in every run the sink is handed the frames in the order in which they were submitted, and
  none twice, and a chunk that is neither cut nor made to wait is queued up to some frame and counts
  the rest as dropped.  Each other part of what a pacer is to do has a condition of its own: the
  bound of the queue (`DepthKept`), the black frames and the gap-fills (`Undivided`), and the cut of
  a flush between two ticks (`CallsRead`).
* `not_paced`: without its condition each of the three can fail.

What a tick that finds the queue empty has to hand over is determined by the log
(`PacerEvent.expected`); the pacer has as much in its flags (`Agrees`), except for what the tick
under way has changed.
-/

namespace ReactorRuntime.WebRtc

open ReactorRuntime.Transport (FrameQueue PacedFrame)

/-! ### The log -/

def PacerEvent.frame? : PacerEvent → Option PeerFrame
  | .frame f => some f
  | .black | .repeats _ _ | .silent | .flushed _ => none

def handed (log : List PacerEvent) : List PeerFrame := log.filterMap PacerEvent.frame?

theorem handed_concat {log : List PacerEvent} {e : PacerEvent} (h : e.frame? = none) :
    handed (log ++ [e]) = handed log := by
  rw [handed, List.filterMap_append, List.filterMap_cons_none h]
  exact List.append_nil _

/-- The frame that the tick under way has taken. -/
def PacerThread.undispatched : PacerThread → List PeerFrame
  | .got frame | .notified frame | .marked frame | .kept frame => [frame]
  | .none | .resting | .due | .empty | .blackSeen | .blackMarked | .noBlack | .lastSeen
  | .repeats _ | .ended => []

/-! ### What a tick that finds the queue empty is to do -/

def PacerEvent.dueAfter (due : Bool) : PacerEvent → Bool
  | .frame _ | .black => false
  | .flushed hold => !hold
  | .repeats _ _ | .silent => due

/-- Whether a black frame is due: the start or the last plain flush has had none yet, and no frame
has been handed over since. -/
def blackDue (log : List PacerEvent) : Bool := log.foldl PacerEvent.dueAfter true

def PacerEvent.lastAfter (last : Option PeerFrame) : PacerEvent → Option PeerFrame
  | .frame f => some f
  | .flushed _ => none
  | .black | .repeats _ _ | .silent => last

def lastHanded (log : List PacerEvent) : Option PeerFrame := log.foldl PacerEvent.lastAfter none

/-- What a tick that finds the queue empty is to hand over: the black frame that is due, or else the
video of the last frame, if it carried metadata. -/
def expected (log : List PacerEvent) : PacerEvent :=
  if blackDue log then .black
  else
    match lastHanded log with
    | some frame =>
      if (videoOnly frame).any PacedTrack.metadata then .repeats frame (videoOnly frame)
      else .silent
    | none => .silent

/-- Whether an event is that of a tick that found the queue empty. -/
def PacerEvent.ofMiss : PacerEvent → Bool
  | .black | .repeats _ _ | .silent => true
  | .frame _ | .flushed _ => false

/-- Each tick that found the queue empty did what it was to do. -/
def Answers (log : List PacerEvent) : Prop :=
  ∀ before e after, log = before ++ e :: after → e.ofMiss → e = expected before

section Log

variable {log : List PacerEvent} {e : PacerEvent}

theorem Answers.concat (h : Answers log) (he : e.ofMiss → e = expected log) :
    Answers (log ++ [e]) := by
  intro before e' after heq hmiss
  obtain rfl | ⟨after, x, rfl⟩ := List.eq_nil_or_concat after
  · obtain ⟨rfl, rfl⟩ := List.append_singleton_inj.mp heq
    exact he hmiss
  · have hinit : log ++ [e] = (before ++ e' :: after) ++ [x] := by
      rw [heq, List.concat_eq_append, List.append_assoc]
      rfl
    exact h before e' after (List.append_singleton_inj.mp hinit).1 hmiss

theorem blackDue_concat : blackDue (log ++ [e]) = e.dueAfter (blackDue log) :=
  List.foldl_concat ..

theorem lastHanded_concat : lastHanded (log ++ [e]) = e.lastAfter (lastHanded log) :=
  List.foldl_concat ..

end Log

/-- The frame that the tick under way is to hand over, as it is or as a repeat. -/
def PacerThread.inHand : PacerThread → Option PeerFrame
  | .got frame | .notified frame | .marked frame | .kept frame | .repeats frame => some frame
  | .none | .resting | .due | .empty | .blackSeen | .blackMarked | .noBlack | .lastSeen
  | .ended => Option.none

/-- Whether the next access of the pacing thread begins a tick. -/
def PacerThread.begins : PacerThread → Bool
  | .due => true
  | .none | .resting | .got _ | .notified _ | .marked _ | .kept _ | .empty | .blackSeen
  | .blackMarked | .noBlack | .lastSeen | .repeats _ | .ended => false

namespace MediaPacing

variable {s s' : MediaPacing}

/-! ### The steps of a tick -/

inductive TickMove (s : MediaPacing) : MediaPacing → Prop where
  | loops (thread : PacerThread) (hthread : s.thread = .resting)
    (hnext : thread = .due ∨ thread = .ended ∧ s.frames.stopped = true) :
    TickMove s { s with thread }
  | takes (frame : PeerFrame) (frames : FrameQueue (List PacedTrack)) (hthread : s.thread = .due)
    (hfree : s.cutting = false) (htake : s.frames.take = some (frame, frames)) :
    TickMove s { s with frames, thread := .got frame }
  | misses (hthread : s.thread = .due) (hfree : s.cutting = false) :
    TickMove s { s with thread := .empty }
  | notifies (frame : PeerFrame) (hthread : s.thread = .got frame) :
    TickMove s { s with thread := .notified frame }
  | marks (frame : PeerFrame) (hthread : s.thread = .notified frame) :
    TickMove s { s with boundaryBlackPending := false, thread := .marked frame }
  | keeps (frame : PeerFrame) (hthread : s.thread = .marked frame) :
    TickMove s { s with lastFrame := some frame, thread := .kept frame }
  | hands (frame : PeerFrame) (hthread : s.thread = .kept frame) :
    TickMove s (s.handOver (.frame frame) (some frame))
  | reads (hthread : s.thread = .empty) :
    TickMove s { s with thread := if s.boundaryBlackPending then .blackSeen else .noBlack }
  | marksBlack (hthread : s.thread = .blackSeen) :
    TickMove s { s with boundaryBlackPending := false, thread := .blackMarked }
  | handsBlack (hthread : s.thread = .blackMarked) : TickMove s (s.handOver .black none)
  | readsLast (hthread : s.thread = .noBlack) (hlast : s.lastFrame.isSome) :
    TickMove s { s with thread := .lastSeen }
  | rests (hthread : s.thread = .noBlack ∧ s.lastFrame = none ∨
      s.thread = .lastSeen ∧ ∃ frame, s.lastFrame = some frame ∧
        (videoOnly frame).any PacedTrack.metadata = false) :
    TickMove s (s.handOver .silent none)
  | crashes (hthread : s.thread = .lastSeen) (hlast : s.lastFrame = none) :
    TickMove s { s with frames := { s.frames with stopped := true }, thread := .ended }
  | repeats (frame : PeerFrame) (hthread : s.thread = .lastSeen) (hlast : s.lastFrame = some frame)
    (hmetadata : (videoOnly frame).any PacedTrack.metadata) :
    TickMove s { s with thread := .repeats frame }
  | handsRepeat (frame : PeerFrame) (hthread : s.thread = .repeats frame) :
    TickMove s (s.handOver (.repeats frame (videoOnly frame)) (some frame))

theorem TickMove.of_lastSeen (hthread : s.thread = .lastSeen) (htick : s.tick = some s') :
    TickMove s s' := by
  unfold MediaPacing.tick at htick
  rw [hthread] at htick
  cases hlast : s.lastFrame with
  | none =>
    simp only [hlast] at htick
    cases htick
    exact hlast ▸ .crashes hthread hlast
  | some frame =>
    simp only [hlast] at htick
    split_ifs at htick with hmetadata
    · cases htick
      exact hlast ▸ .repeats frame hthread hlast hmetadata
    · cases htick
      exact .rests (.inr ⟨hthread, frame, hlast, by simpa using hmetadata⟩)

theorem TickMove.of_tick (htick : s.tick = some s') : TickMove s s' := by
  cases hthread : s.thread with
  | lastSeen => exact .of_lastSeen hthread htick
  | none => simp [MediaPacing.tick, hthread] at htick
  | ended => simp [MediaPacing.tick, hthread] at htick
  | resting =>
    simp only [MediaPacing.tick, hthread] at htick
    cases htick
    refine .loops _ hthread ?_
    split_ifs with hstopped
    · exact .inr ⟨rfl, hstopped⟩
    · exact .inl rfl
  | due =>
    simp only [MediaPacing.tick, hthread] at htick
    split_ifs at htick with hcutting
    have hfree : s.cutting = false := by simpa using hcutting
    cases htake : s.frames.take with
    | none =>
      rw [htake] at htick
      cases htick
      exact .misses hthread hfree
    | some taken =>
      rw [htake] at htick
      cases htick
      exact .takes taken.1 taken.2 hthread hfree htake
  | got frame =>
    simp only [MediaPacing.tick, hthread] at htick
    split_ifs at htick
    cases htick
    exact .notifies frame hthread
  | noBlack =>
    simp only [MediaPacing.tick, hthread] at htick
    split_ifs at htick with hlast
    · cases htick
      exact .readsLast hthread hlast
    · cases htick
      exact .rests (.inl ⟨hthread, by simpa using hlast⟩)
  | notified frame =>
    simp only [MediaPacing.tick, hthread] at htick
    cases htick
    exact .marks frame hthread
  | marked frame =>
    simp only [MediaPacing.tick, hthread] at htick
    cases htick
    exact .keeps frame hthread
  | kept frame =>
    simp only [MediaPacing.tick, hthread] at htick
    cases htick
    exact .hands frame hthread
  | empty =>
    simp only [MediaPacing.tick, hthread] at htick
    cases htick
    exact .reads hthread
  | blackSeen =>
    simp only [MediaPacing.tick, hthread] at htick
    cases htick
    exact .marksBlack hthread
  | blackMarked =>
    simp only [MediaPacing.tick, hthread] at htick
    cases htick
    exact .handsBlack hthread
  | repeats frame =>
    simp only [MediaPacing.tick, hthread] at htick
    cases htick
    exact .handsRepeat frame hthread

/-! ### The other steps -/

inductive Move (s : MediaPacing) : Label → MediaPacing → Prop where
  | producer (l : FrameQueue.Label (List PacedTrack)) (frames : FrameQueue (List PacedTrack))
    (hmove : s.frames.step l = some frames) : Move s (.producer l) { s with frames }
  | flushBegins (hold between : Bool) (hflushing : s.flushing = none)
    (hbetween : between → s.cutting) : Move s (.flushBegins hold between) { s with
      frames := { s.frames with epoch := s.frames.epoch + 1 }
      flushing := some (hold, between) }
  | flushDrains (flush : Bool × Bool) (frame : PeerFrame) (frames : FrameQueue (List PacedTrack))
    (hflushing : s.flushing = some flush) (htake : s.frames.take = some (frame, frames)) :
    Move s .flushDrains { s with frames }
  | flushEnds (hold between : Bool) (hflushing : s.flushing = some (hold, between))
    (hqueue : s.frames.queue = []) : Move s .flushEnds { s with
      boundaryBlackPending := !hold
      lastFrame := none
      flushing := none
      cut := if between then s.frames.epoch else s.cut
      log := s.log ++ [.flushed hold] }
  | cutBegins (hthread : s.thread.inTick = false) : Move s .cutBegins { s with cutting := true }
  | cutEnds (hflushing : s.flushing.all fun flush => !flush.2) :
    Move s .cutEnds { s with cutting := false }
  | startAgain : Move s .start s
  | starts (hstopping : s.stopping = false) (hstopped : s.frames.stopped = true) :
    Move s .start { s with frames := { s.frames with stopped := false }, thread := .resting }
  | stop : Move s .stop s.stop
  | closes : Move s .closes { s with frames := { s.frames with closed := true } }
  | joined (hthread : s.thread = .none ∨ s.thread = .ended) :
    Move s .joined { s with frames := s.frames.clear, lastFrame := none }

theorem step_cases {l : Label} (hstep : s.step l = some s') :
    Move s l s' ∨ l = .tick ∧ TickMove s s' := by
  cases l with
  | tick => exact .inr ⟨rfl, .of_tick hstep⟩
  | producer l =>
    simp only [MediaPacing.step] at hstep
    split_ifs at hstep
    obtain ⟨frames, hmove, rfl⟩ := Option.map_eq_some_iff.mp hstep
    exact .inl (.producer l frames hmove)
  | flushBegins hold between =>
    simp only [MediaPacing.step, MediaPacing.flushBegins] at hstep
    split_ifs at hstep with hwaits
    cases hstep
    simp only [Bool.or_eq_true, Bool.and_eq_true, Bool.not_eq_true', not_or, not_and,
      Bool.not_eq_false, Option.isSome_iff_ne_none, not_not] at hwaits
    exact .inl (.flushBegins hold between hwaits.1 hwaits.2)
  | flushDrains =>
    simp only [MediaPacing.step, MediaPacing.flushDrains] at hstep
    cases hflushing : s.flushing with
    | none => simp [hflushing] at hstep
    | some flush =>
      cases htake : s.frames.take with
      | none => simp [hflushing, htake] at hstep
      | some taken =>
        simp only [hflushing, htake] at hstep
        cases hstep
        rw [← hflushing]
        exact .inl (.flushDrains flush taken.1 taken.2 hflushing htake)
  | flushEnds =>
    simp only [MediaPacing.step, MediaPacing.flushEnds] at hstep
    cases hflushing : s.flushing with
    | none => simp [hflushing] at hstep
    | some flush =>
      cases hqueue : s.frames.queue with
      | cons frame queue => simp [hflushing, hqueue] at hstep
      | nil =>
        simp only [hflushing, hqueue] at hstep
        cases hstep
        exact .inl (.flushEnds flush.1 flush.2 hflushing hqueue)
  | cutBegins =>
    simp only [MediaPacing.step, MediaPacing.cutBegins] at hstep
    split_ifs at hstep with hheld
    cases hstep
    simp only [Bool.or_eq_true, not_or, Bool.not_eq_true] at hheld
    exact .inl (.cutBegins hheld.2)
  | cutEnds =>
    simp only [MediaPacing.step, MediaPacing.cutEnds] at hstep
    split_ifs at hstep with hheld
    cases hstep
    exact .inl (.cutEnds (Bool.and_eq_true_iff.mp hheld).2)
  | start =>
    simp only [MediaPacing.step, MediaPacing.start] at hstep
    split_ifs at hstep with hstopping hstopped
    · cases hstep
      exact .inl .startAgain
    · cases hstep
      simp only [Bool.or_eq_true, Bool.not_eq_true', not_or, Bool.not_eq_false] at hstopped
      exact .inl (.starts (by simpa using hstopping) hstopped.1)
  | stop =>
    cases hstep
    exact .inl .stop
  | closes =>
    simp only [MediaPacing.step, MediaPacing.closes] at hstep
    split_ifs at hstep
    cases hstep
    exact .inl .closes
  | joined =>
    simp only [MediaPacing.step, MediaPacing.joined] at hstep
    cases hthread : s.thread <;> simp only [hthread, reduceCtorEq] at hstep
    all_goals
      split_ifs at hstep
      cases hstep
      rw [← hthread]
      exact .inl (.joined (by simp [hthread]))

/-! ### The order of the frames, and what is dropped -/

/-- What holds of the frames in every run. -/
structure Keeps (s : MediaPacing) : Prop where
  orderly : s.frames.Orderly (handed s.log ++ s.thread.undispatched)
  prefixed : s.frames.Prefixed

theorem Keeps.tick (h : Keeps s) (htick : TickMove s s') : Keeps s' := by
  have hlost : s.frames.Orderly (handed s.log ++ []) := by
    rw [List.append_nil]
    exact h.orderly.mono (List.sublist_append_left _ _)
  have horderly := h.orderly
  cases htick with
  | loops thread hthread hnext =>
    obtain rfl | ⟨rfl, _⟩ := hnext
    · exact ⟨hlost, h.prefixed⟩
    · exact ⟨hlost, h.prefixed⟩
  | takes frame frames hthread hfree htake =>
    rw [List.append_nil] at hlost
    exact ⟨hlost.take htake, h.prefixed.take htake⟩
  | notifies frame hthread =>
    rw [hthread] at horderly
    exact ⟨horderly, h.prefixed⟩
  | marks frame hthread =>
    rw [hthread] at horderly
    exact ⟨horderly, h.prefixed⟩
  | keeps frame hthread =>
    rw [hthread] at horderly
    exact ⟨horderly, h.prefixed⟩
  | hands frame hthread =>
    rw [hthread] at horderly
    refine ⟨?_, h.prefixed⟩
    show s.frames.Orderly (handed (s.log ++ [.frame frame]) ++ [])
    rw [handed, List.filterMap_append, List.append_nil]
    exact horderly
  | reads hthread =>
    refine ⟨?_, h.prefixed⟩
    have hnone : (if s.boundaryBlackPending then PacerThread.blackSeen
        else .noBlack).undispatched = [] := by
      split_ifs <;> rfl
    show s.frames.Orderly (handed s.log ++ PacerThread.undispatched _)
    rw [hnone]
    exact hlost
  | handsBlack hthread =>
    refine ⟨?_, h.prefixed⟩
    show s.frames.Orderly (handed (s.log ++ [.black]) ++ [])
    rwa [handed_concat rfl]
  | rests hthread =>
    refine ⟨?_, h.prefixed⟩
    show s.frames.Orderly (handed (s.log ++ [.silent]) ++ [])
    rwa [handed_concat rfl]
  | handsRepeat frame hthread =>
    refine ⟨?_, h.prefixed⟩
    show s.frames.Orderly (handed (s.log ++ [.repeats frame (videoOnly frame)]) ++ [])
    rwa [handed_concat rfl]
  | crashes hthread hlast =>
    exact ⟨hlost.of_eq rfl rfl rfl (List.Sublist.refl _),
      h.prefixed.of_eq (Nat.le_refl _) rfl rfl rfl rfl rfl rfl⟩
  | misses | marksBlack | readsLast | repeats => exact ⟨hlost, h.prefixed⟩

theorem Keeps.step (h : Keeps s) {l : Label} (hstep : s.step l = some s') : Keeps s' := by
  obtain hmove | ⟨_, htick⟩ := step_cases hstep
  · cases hmove with
    | producer l frames hmove => exact ⟨h.orderly.step hmove, h.prefixed.step hmove⟩
    | flushBegins hold between hflushing hbetween =>
      exact ⟨h.orderly.of_eq rfl rfl rfl (List.Sublist.refl _),
        h.prefixed.of_eq (Nat.le_succ _) rfl rfl rfl rfl rfl rfl⟩
    | flushDrains flush frame frames hflushing htake =>
      obtain ⟨queue, hqueue, rfl⟩ := FrameQueue.eq_of_take htake
      refine ⟨h.orderly.of_eq rfl rfl rfl ?_, h.prefixed.take htake⟩
      rw [hqueue]
      exact List.sublist_cons_self _ _
    | flushEnds hold between hflushing hqueue =>
      refine ⟨?_, h.prefixed⟩
      show s.frames.Orderly (handed (s.log ++ [.flushed hold]) ++ _)
      rw [handed_concat rfl]
      exact h.orderly
    | cutBegins | cutEnds | startAgain => exact ⟨h.orderly, h.prefixed⟩
    | starts hstopping hstopped =>
      refine ⟨?_, h.prefixed.of_eq (Nat.le_refl _) rfl rfl rfl rfl rfl rfl⟩
      exact (h.orderly.mono (List.Sublist.append (List.Sublist.refl _) (List.nil_sublist _))).of_eq
        rfl rfl rfl (List.Sublist.refl _)
    | stop | closes =>
      exact ⟨h.orderly.of_eq rfl rfl rfl (List.Sublist.refl _),
        h.prefixed.of_eq (Nat.le_refl _) rfl rfl rfl rfl rfl rfl⟩
    | joined hthread => exact ⟨h.orderly.clear, h.prefixed.clear⟩
  · exact h.tick htick

/-! ### The bound of the queue -/

/-- No smaller depth is set while a frame waits whose capacity was read. -/
def DepthKept (s : MediaPacing) : Label → Prop
  | .producer l => s.frames.DepthHeld l
  | .flushBegins _ _ | .flushDrains | .flushEnds | .cutBegins | .cutEnds | .start | .stop | .closes
  | .joined | .tick => True

instance (l : Label) : Decidable (s.DepthKept l) :=
  match l with
  | .producer l => inferInstanceAs (Decidable (s.frames.DepthHeld l))
  | .flushBegins _ _ | .flushDrains | .flushEnds | .cutBegins | .cutEnds | .start | .stop | .closes
  | .joined | .tick => .isTrue trivial

/-- A step that is not of the producer leaves what bounds the queue as it is. -/
theorem fitting_step (h : s.frames.Fitting) {l : Label} (hkept : s.DepthKept l)
    (hstep : s.step l = some s') : s'.frames.Fitting := by
  obtain hmove | ⟨_, htick⟩ := step_cases hstep
  · cases hmove with
    | producer l frames hmove => exact h.step hkept hmove
    | flushDrains flush frame frames hflushing htake =>
      obtain ⟨queue, _, rfl⟩ := FrameQueue.eq_of_take htake
      exact h.of_eq rfl rfl rfl
    | flushBegins | flushEnds | cutBegins | cutEnds | startAgain | starts | stop | closes
    | joined => exact h.of_eq rfl rfl rfl
  · cases htick with
    | takes frame frames hthread hfree htake =>
      obtain ⟨queue, _, rfl⟩ := FrameQueue.eq_of_take htake
      exact h.of_eq rfl rfl rfl
    | loops | misses | notifies | marks | keeps | hands | reads | marksBlack | handsBlack
    | readsLast | rests | crashes | repeats | handsRepeat => exact h.of_eq rfl rfl rfl

/-! ### The locks -/

/-- What the locks and the stop flag say, in every run. -/
structure Locks (s : MediaPacing) : Prop where
  apart : s.cutting → s.thread.inTick = false
  between : ∀ hold, s.flushing = some (hold, true) → s.cutting
  running : s.thread = .none ∨ s.thread = .ended ∨ s.frames.stopped = false ∨ s.stopping
  fresh : s.thread = .none → s.lastFrame = none

/-- What a tick leaves as it is, and that it begins while nobody holds its lock. -/
structure TickKeeps (s s' : MediaPacing) : Prop where
  cutting : s'.cutting = s.cutting
  flushing : s'.flushing = s.flushing
  stopping : s'.stopping = s.stopping
  cut : s'.cut = s.cut
  runs : s.thread ≠ .none ∧ s.thread ≠ .ended
  begins : s'.thread.inTick → s.thread.inTick ∨ s.thread = .due ∧ s.cutting = false
  ends : s'.thread ≠ .none ∧ (s'.thread = .ended ∨ s'.frames.stopped = s.frames.stopped)

theorem TickMove.keeps_others (htick : TickMove s s') : TickKeeps s s' := by
  cases htick with
  | loops thread hthread hnext =>
    refine ⟨rfl, rfl, rfl, rfl, by simp [hthread], fun hin => ?_, ?_⟩
    · obtain rfl | ⟨rfl, _⟩ := hnext <;> cases hin
    · obtain rfl | ⟨rfl, _⟩ := hnext <;> simp
  | takes frame frames hthread hfree htake =>
    obtain ⟨queue, _, rfl⟩ := FrameQueue.eq_of_take htake
    exact ⟨rfl, rfl, rfl, rfl, by simp [hthread], fun _ => .inr ⟨hthread, hfree⟩,
      by simp⟩
  | misses hthread hfree =>
    exact ⟨rfl, rfl, rfl, rfl, by simp [hthread], fun _ => .inr ⟨hthread, hfree⟩, by simp⟩
  | reads hthread =>
    refine ⟨rfl, rfl, rfl, rfl, by simp [hthread], fun _ => .inl (by rw [hthread]; rfl), ?_⟩
    show (if s.boundaryBlackPending then PacerThread.blackSeen else .noBlack) ≠ .none ∧ _
    refine ⟨?_, .inr rfl⟩
    split_ifs <;> simp
  | hands _ hthread | handsBlack hthread | handsRepeat _ hthread =>
    exact ⟨rfl, rfl, rfl, rfl, by simp [hthread], fun hin => absurd hin (by simp [handOver,
      PacerThread.inTick]), by simp [handOver]⟩
  | rests hthread =>
    refine ⟨rfl, rfl, rfl, rfl, ?_, fun hin => absurd hin (by simp [handOver,
      PacerThread.inTick]), by simp [handOver]⟩
    obtain ⟨hthread, _⟩ | ⟨hthread, _⟩ := hthread <;> simp [hthread]
  | crashes hthread hlast =>
    exact ⟨rfl, rfl, rfl, rfl, by simp [hthread], fun hin => Bool.noConfusion hin, by simp⟩
  | notifies _ hthread | marks _ hthread | keeps _ hthread | marksBlack hthread
  | readsLast hthread _ | repeats _ hthread _ _ =>
    exact ⟨rfl, rfl, rfl, rfl, by simp [hthread], fun _ => .inl (by rw [hthread]; rfl), by simp⟩

theorem Locks.tick (h : Locks s) (htick : TickMove s s') : Locks s' := by
  have hkeeps := htick.keeps_others
  refine ⟨fun hcutting => ?_, fun hold hflushing => ?_, ?_, fun hnone => ?_⟩
  · rw [hkeeps.cutting] at hcutting
    by_contra hin
    obtain hin | ⟨_, hfree⟩ := hkeeps.begins (by simpa using hin)
    · exact Bool.false_ne_true ((h.apart hcutting).symm.trans hin)
    · exact Bool.false_ne_true (hfree.symm.trans hcutting)
  · rw [hkeeps.flushing] at hflushing
    rw [hkeeps.cutting]
    exact h.between hold hflushing
  · obtain hended | hstopped := hkeeps.ends.2
    · exact .inr (.inl hended)
    · rw [hstopped, hkeeps.stopping]
      obtain hnone | hended | hrunning := h.running
      · exact absurd hnone hkeeps.runs.1
      · exact absurd hended hkeeps.runs.2
      · exact .inr (.inr hrunning)
  · exact absurd hnone hkeeps.ends.1

theorem Locks.step (h : Locks s) {l : Label} (hstep : s.step l = some s') : Locks s' := by
  obtain hmove | ⟨_, htick⟩ := step_cases hstep
  · cases hmove with
    | producer l frames hmove =>
      refine ⟨h.apart, h.between, ?_, h.fresh⟩
      rw [show frames.stopped = s.frames.stopped from FrameQueue.stopped_step hmove]
      exact h.running
    | flushBegins hold between hflushing hbetween =>
      refine ⟨h.apart, fun hold' heq => hbetween ?_, h.running, h.fresh⟩
      exact congrArg Prod.snd (Option.some.inj heq)
    | flushDrains flush frame frames hflushing htake =>
      obtain ⟨queue, _, rfl⟩ := FrameQueue.eq_of_take htake
      exact ⟨h.apart, h.between, h.running, h.fresh⟩
    | flushEnds hold between hflushing hqueue =>
      exact ⟨h.apart, fun _ heq => absurd heq.symm (Option.some_ne_none _), h.running, fun _ => rfl⟩
    | cutBegins hthread => exact ⟨fun _ => hthread, fun _ _ => rfl, h.running, h.fresh⟩
    | cutEnds hflushing =>
      refine ⟨fun hcutting => Bool.noConfusion hcutting, fun hold heq => ?_, h.running, h.fresh⟩
      rw [show s.flushing = some (hold, true) from heq] at hflushing
      cases hflushing
    | startAgain => exact h
    | starts hstopping hstopped =>
      exact ⟨fun _ => rfl, h.between, .inr (.inr (.inl rfl)),
        fun hnone => PacerThread.noConfusion hnone⟩
    | stop => exact ⟨h.apart, h.between, .inr (.inr (.inr rfl)), h.fresh⟩
    | closes => exact ⟨h.apart, h.between, h.running, h.fresh⟩
    | joined hthread => exact ⟨h.apart, h.between, h.running, fun _ => rfl⟩
  · exact h.tick htick

/-! ### The black frames and the gap-fills -/

/-- No tick is under way during a flush that is not made between two ticks. -/
def Undivided (s : MediaPacing) : Label → Prop
  | .flushBegins _ between => between ∨ s.thread.inTick = false
  | .tick => s.thread.begins → s.flushing = none
  | .producer _ | .flushDrains | .flushEnds | .cutBegins | .cutEnds | .start | .stop | .closes
  | .joined => True

instance (l : Label) : Decidable (s.Undivided l) :=
  match l with
  | .flushBegins _ _ => inferInstanceAs (Decidable (_ = true ∨ _ = false))
  | .tick => inferInstanceAs (Decidable (_ = true → s.flushing = none))
  | .producer _ | .flushDrains | .flushEnds | .cutBegins | .cutEnds | .start | .stop | .closes
  | .joined => .isTrue trivial

def Flags (pending : Bool) (last : Option PeerFrame) (log : List PacerEvent) : Prop :=
  pending = blackDue log ∧ last = lastHanded log

/-- And so they are during a tick, but for what it has changed. -/
def AgreesAt (stopping pending : Bool) (last : Option PeerFrame) (log : List PacerEvent) :
    PacerThread → Prop
  | .ended => stopping
  | .none | .resting | .due | .got _ | .notified _ | .empty => Flags pending last log
  | .marked _ => pending = false
  | .kept frame => pending = false ∧ last = some frame
  | .blackSeen => Flags pending last log ∧ blackDue log
  | .blackMarked => pending = false ∧ last = lastHanded log ∧ blackDue log
  | .noBlack => Flags pending last log ∧ blackDue log = false
  | .lastSeen => Flags pending last log ∧ blackDue log = false ∧ last.isSome
  | .repeats frame => Flags pending last log ∧ blackDue log = false ∧ last = some frame ∧
      (videoOnly frame).any PacedTrack.metadata

def Agrees (s : MediaPacing) : Prop :=
  AgreesAt s.stopping s.boundaryBlackPending s.lastFrame s.log s.thread

/-- What holds in a run with no divided flush. -/
structure Whole (s : MediaPacing) : Prop where
  locks : s.Locks
  answers : WebRtc.Answers s.log
  agrees : s.Agrees
  apart : s.flushing.isSome → s.thread.inTick = false

theorem Flags.concat (h : Flags s.boundaryBlackPending s.lastFrame s.log) {e : PacerEvent}
    (hdue : e.dueAfter (blackDue s.log) = blackDue s.log)
    (hlast : e.lastAfter (lastHanded s.log) = lastHanded s.log) :
    s.boundaryBlackPending = blackDue (s.log ++ [e]) ∧
      s.lastFrame = lastHanded (s.log ++ [e]) :=
  ⟨h.1.trans (blackDue_concat.trans hdue).symm,
    h.2.trans (lastHanded_concat.trans hlast).symm⟩

/-- A tick that found the queue empty and hands nothing over had nothing to hand over. -/
theorem expected_eq_silent (hdue : blackDue s.log = false)
    (hnone : ∀ frame, lastHanded s.log = some frame →
      (videoOnly frame).any PacedTrack.metadata = false) : expected s.log = .silent := by
  rw [expected, hdue]
  cases hlast : lastHanded s.log with
  | none => rfl
  | some frame => simp [hnone frame hlast]

theorem Whole.agrees_tick (h : Whole s) (htick : TickMove s s') :
    s'.Agrees ∧ WebRtc.Answers s'.log := by
  have hagrees := h.agrees
  unfold Agrees at hagrees
  cases htick with
  | loops thread hthread hnext =>
    rw [hthread] at hagrees
    refine ⟨?_, h.answers⟩
    obtain rfl | ⟨rfl, hstopped⟩ := hnext
    · exact hagrees
    · -- The loop ends only as `stop` was called.
      obtain hnone | hended | hrunning | hstopping := h.locks.running
      · rw [hthread] at hnone
        cases hnone
      · rw [hthread] at hended
        cases hended
      · rw [hstopped] at hrunning
        cases hrunning
      · exact hstopping
  | takes frame frames hthread hfree htake =>
    rw [hthread] at hagrees
    exact ⟨hagrees, h.answers⟩
  | misses hthread hfree =>
    rw [hthread] at hagrees
    exact ⟨hagrees, h.answers⟩
  | notifies frame hthread =>
    rw [hthread] at hagrees
    exact ⟨hagrees, h.answers⟩
  | marks frame hthread => exact ⟨rfl, h.answers⟩
  | keeps frame hthread =>
    rw [hthread] at hagrees
    exact ⟨⟨hagrees, rfl⟩, h.answers⟩
  | hands frame hthread =>
    rw [hthread] at hagrees
    obtain ⟨hblack, hlast⟩ := hagrees
    refine ⟨⟨?_, ?_⟩, h.answers.concat fun hmiss => Bool.noConfusion hmiss⟩
    · show s.boundaryBlackPending = blackDue (s.log ++ [.frame frame])
      rw [hblack, blackDue_concat]
      rfl
    · show s.lastFrame = lastHanded (s.log ++ [.frame frame])
      rw [hlast, lastHanded_concat]
      rfl
  | reads hthread =>
    rw [hthread] at hagrees
    refine ⟨?_, h.answers⟩
    split_ifs with hblack
    · exact ⟨hagrees, hagrees.1.symm.trans hblack⟩
    · exact ⟨hagrees, hagrees.1.symm.trans (by simpa using hblack)⟩
  | marksBlack hthread =>
    rw [hthread] at hagrees
    exact ⟨⟨rfl, hagrees.1.2, hagrees.2⟩, h.answers⟩
  | handsBlack hthread =>
    rw [hthread] at hagrees
    obtain ⟨hblack, hlast, hdue⟩ := hagrees
    refine ⟨⟨?_, ?_⟩, h.answers.concat fun _ => ?_⟩
    · show s.boundaryBlackPending = blackDue (s.log ++ [.black])
      rw [hblack, blackDue_concat]
      rfl
    · show s.lastFrame = lastHanded (s.log ++ [.black])
      rw [hlast, lastHanded_concat]
      rfl
    · exact (if_pos hdue).symm
  | readsLast hthread hlast =>
    rw [hthread] at hagrees
    obtain ⟨hflags, hdue⟩ := hagrees
    exact ⟨⟨hflags, hdue, hlast⟩, h.answers⟩
  | rests hthread =>
    have hsilent : Flags s.boundaryBlackPending s.lastFrame s.log ∧ blackDue s.log = false ∧
        ∀ frame, lastHanded s.log = some frame →
          (videoOnly frame).any PacedTrack.metadata = false := by
      obtain ⟨hthread, hnone⟩ | ⟨hthread, frame, hlast, hplain⟩ := hthread
      · rw [hthread] at hagrees
        refine ⟨hagrees.1, hagrees.2, fun frame heq => ?_⟩
        rw [← hagrees.1.2, hnone] at heq
        cases heq
      · rw [hthread] at hagrees
        refine ⟨hagrees.1, hagrees.2.1, fun frame' heq => ?_⟩
        rw [← hagrees.1.2, hlast] at heq
        cases heq
        exact hplain
    obtain ⟨hflags, hdue, hplain⟩ := hsilent
    obtain ⟨hblack, hlast⟩ := hflags.concat (e := .silent) rfl rfl
    exact ⟨⟨hblack, hlast⟩, h.answers.concat fun _ => (expected_eq_silent hdue hplain).symm⟩
  | crashes hthread hlast =>
    rw [hthread] at hagrees
    have hsome := hagrees.2.2
    rw [hlast] at hsome
    cases hsome
  | repeats frame hthread hlast hmetadata =>
    rw [hthread] at hagrees
    obtain ⟨hflags, hdue, _⟩ := hagrees
    exact ⟨⟨hflags, hdue, hlast, hmetadata⟩, h.answers⟩
  | handsRepeat frame hthread =>
    rw [hthread] at hagrees
    obtain ⟨hflags, hdue, hlast, hmetadata⟩ := hagrees
    obtain ⟨hblack, hlast'⟩ := hflags.concat (e := .repeats frame (videoOnly frame)) rfl rfl
    refine ⟨⟨hblack, hlast'⟩, h.answers.concat fun _ => ?_⟩
    rw [expected, hdue, ← hflags.2, hlast]
    simp [hmetadata]

theorem Whole.move (h : Whole s) {l : Label} (hl : s.Undivided l) (hmove : Move s l s') :
    s'.Agrees ∧ WebRtc.Answers s'.log ∧ (s'.flushing.isSome → s'.thread.inTick = false) := by
  have hagrees := h.agrees
  cases hmove with
  | producer | cutBegins | cutEnds | startAgain | closes => exact ⟨h.agrees, h.answers, h.apart⟩
  | flushBegins hold between hflushing hbetween =>
    refine ⟨h.agrees, h.answers, fun _ => ?_⟩
    obtain hbetween' | hrests := hl
    · exact h.locks.apart (hbetween hbetween')
    · exact hrests
  | flushDrains flush frame frames hflushing htake => exact ⟨h.agrees, h.answers, h.apart⟩
  | flushEnds hold between hflushing hqueue =>
    have hrests : s.thread.inTick = false := h.apart (by rw [hflushing]; rfl)
    refine ⟨?_, h.answers.concat fun hmiss => Bool.noConfusion hmiss,
      fun hsome => Bool.noConfusion hsome⟩
    have hflags : Flags (!hold) none (s.log ++ [.flushed hold]) := by
      rw [Flags, blackDue_concat, lastHanded_concat]
      exact ⟨rfl, rfl⟩
    show AgreesAt s.stopping (!hold) none (s.log ++ [.flushed hold]) s.thread
    unfold Agrees at hagrees
    cases hthread : s.thread with
    | none | resting | due => exact hflags
    | ended =>
      rw [hthread] at hagrees
      exact hagrees
    | got | notified | marked | kept | empty | blackSeen | blackMarked | noBlack | lastSeen
    | repeats => simp [hthread, PacerThread.inTick] at hrests
  | starts hstopping hstopped =>
    refine ⟨?_, h.answers, fun _ => rfl⟩
    unfold Agrees at hagrees
    obtain hnone | hended | hrunning | hstopping' := h.locks.running
    · rw [hnone] at hagrees
      exact hagrees
    · rw [hended] at hagrees
      exact absurd (hstopping.symm.trans hagrees) Bool.false_ne_true
    · exact absurd (hrunning.symm.trans hstopped) Bool.false_ne_true
    · exact absurd (hstopping.symm.trans hstopping') Bool.false_ne_true
  | stop =>
    refine ⟨?_, h.answers, h.apart⟩
    show AgreesAt true s.boundaryBlackPending s.lastFrame s.log s.thread
    unfold Agrees at hagrees
    cases hthread : s.thread with
    | ended => rfl
    | none | resting | due | got | notified | marked | kept | empty | blackSeen | blackMarked
    | noBlack | lastSeen | repeats =>
      rw [hthread] at hagrees
      exact hagrees
  | joined hthread =>
    refine ⟨?_, h.answers, h.apart⟩
    show AgreesAt s.stopping s.boundaryBlackPending none s.log s.thread
    unfold Agrees at hagrees
    obtain hthread | hthread := hthread
    · rw [hthread, h.locks.fresh hthread] at hagrees
      rw [hthread]
      exact hagrees
    · rw [hthread] at hagrees ⊢
      exact hagrees

theorem Whole.step (h : Whole s) {l : Label} (hl : s.Undivided l) (hstep : s.step l = some s') :
    Whole s' := by
  obtain hmove | ⟨rfl, htick⟩ := step_cases hstep
  · obtain ⟨hagrees, hanswers, hapart⟩ := h.move hl hmove
    exact ⟨h.locks.step hstep, hanswers, hagrees, hapart⟩
  · obtain ⟨hagrees, hanswers⟩ := h.agrees_tick htick
    refine ⟨h.locks.step hstep, hanswers, hagrees, fun hflushing => ?_⟩
    have hkeeps := htick.keeps_others
    rw [hkeeps.flushing] at hflushing
    by_contra hin
    obtain hin | ⟨hdue, _⟩ := hkeeps.begins (by simpa using hin)
    · exact absurd ((h.apart hflushing).symm.trans hin) Bool.false_ne_true
    · rw [hl (by rw [hdue]; rfl)] at hflushing
      cases hflushing

/-! ### The cut of a flush between two ticks -/

/-- No flush between two ticks begins after a call of `submit` and before it reads the epoch. -/
def CallsRead (s : MediaPacing) : Label → Prop
  | .flushBegins _ between => between → s.frames.EpochRead
  | .producer _ | .flushDrains | .flushEnds | .cutBegins | .cutEnds | .start | .stop | .closes
  | .joined | .tick => True

instance (l : Label) : Decidable (s.CallsRead l) :=
  match l with
  | .flushBegins _ _ => inferInstanceAs (Decidable (_ = true → s.frames.EpochRead))
  | .producer _ | .flushDrains | .flushEnds | .cutBegins | .cutEnds | .start | .stop | .closes
  | .joined | .tick => .isTrue trivial

/-- What holds in a run where every call has read the epoch. -/
structure Drawn (s : MediaPacing) : Prop where
  locks : s.Locks
  since : s.frames.Since s.cut
  during : ∀ hold, s.flushing = some (hold, true) → s.frames.PutsSince s.frames.epoch
  inHand : ∀ f, s.thread.inHand = some f → s.cut ≤ f.born
  last : ∀ f, s.lastFrame = some f → s.cut ≤ f.born
  sunk : ∀ p ∈ s.sunk, p.2 ≤ p.1.born

theorem inHand_of_rests {thread : PacerThread} (h : thread.inTick = false) :
    thread.inHand = none := by
  cases thread with
  | none | resting | due | ended => rfl
  | got | notified | marked | kept | empty | blackSeen | blackMarked | noBlack | lastSeen
  | repeats => cases h

theorem Drawn.handOver (h : Drawn s) {e : PacerEvent} {frame : Option PeerFrame}
    (hframe : ∀ f, frame = some f → s.cut ≤ f.born) :
    ∀ p ∈ (s.handOver e frame).sunk, p.2 ≤ p.1.born := by
  intro p hp
  obtain hp | hp := List.mem_append.mp hp
  · exact h.sunk p hp
  · obtain ⟨f, hf, rfl⟩ := List.mem_map.mp hp
    exact hframe f (Option.mem_toList.mp hf)

theorem Drawn.tick (h : Drawn s) (htick : TickMove s s') : Drawn s' := by
  have hlocks := h.locks.tick htick
  have hinHand := h.inHand
  cases htick with
  | loops thread hthread hnext =>
    refine ⟨hlocks, h.since, h.during, fun f hf => ?_, h.last, h.sunk⟩
    obtain rfl | ⟨rfl, _⟩ := hnext <;> cases hf
  | takes frame frames hthread hfree htake =>
    obtain ⟨hsince, hborn, hepoch⟩ := h.since.take htake
    refine ⟨hlocks, hsince, fun hold hflushing => ?_, fun f hf => ?_, h.last, h.sunk⟩
    · exact absurd (h.locks.between hold hflushing) (by simp [hfree])
    · cases hf
      exact hborn
  | misses | marksBlack | readsLast =>
    exact ⟨hlocks, h.since, h.during, fun f hf => absurd hf.symm (Option.some_ne_none _), h.last,
      h.sunk⟩
  | notifies frame hthread | marks frame hthread =>
    rw [hthread] at hinHand
    exact ⟨hlocks, h.since, h.during, hinHand, h.last, h.sunk⟩
  | keeps frame hthread =>
    rw [hthread] at hinHand
    exact ⟨hlocks, h.since, h.during, hinHand, hinHand, h.sunk⟩
  | hands frame hthread =>
    rw [hthread] at hinHand
    exact ⟨hlocks, h.since, h.during, fun f hf => absurd hf.symm (Option.some_ne_none _), h.last,
      h.handOver hinHand⟩
  | reads hthread =>
    refine ⟨hlocks, h.since, h.during, fun f hf => ?_, h.last, h.sunk⟩
    have hnone : (if s.boundaryBlackPending then PacerThread.blackSeen
        else .noBlack).inHand = none := by
      split_ifs <;> rfl
    exact absurd (hf.symm.trans hnone) (Option.some_ne_none _)
  | handsBlack hthread | rests hthread =>
    exact ⟨hlocks, h.since, h.during, fun f hf => absurd hf.symm (Option.some_ne_none _), h.last,
      h.handOver fun f hf => absurd hf.symm (Option.some_ne_none _)⟩
  | crashes hthread hlast =>
    exact ⟨hlocks, ⟨h.since.queue, h.since.puts.of_eq rfl rfl⟩,
      fun hold hflushing => (h.during hold hflushing).of_eq rfl rfl,
      fun f hf => absurd hf.symm (Option.some_ne_none _), h.last, h.sunk⟩
  | repeats frame hthread hlast hmetadata =>
    refine ⟨hlocks, h.since, h.during, fun f hf => ?_, h.last, h.sunk⟩
    cases hf
    exact h.last frame hlast
  | handsRepeat frame hthread =>
    rw [hthread] at hinHand
    exact ⟨hlocks, h.since, h.during, fun f hf => absurd hf.symm (Option.some_ne_none _), h.last,
      h.handOver hinHand⟩

theorem Drawn.move (h : Drawn s) {l : Label} (hl : s.CallsRead l) (hlocks : Locks s')
    (hmove : Move s l s') : Drawn s' := by
  cases hmove with
  | producer l frames hmove =>
    refine ⟨hlocks, h.since.step hmove, fun hold hflushing => ?_, h.inHand, h.last, h.sunk⟩
    show frames.PutsSince frames.epoch
    rw [FrameQueue.epoch_step hmove]
    exact (h.during hold hflushing).step hmove
  | flushBegins hold between hflushing hbetween =>
    refine ⟨hlocks, ⟨h.since.queue, h.since.puts.epochEnds⟩, fun hold' heq => ?_, h.inHand, h.last,
      h.sunk⟩
    have hbetween' : between = true := congrArg Prod.snd (Option.some.inj heq)
    exact h.since.puts.nextEpoch (hl hbetween')
  | flushDrains flush frame frames hflushing htake =>
    obtain ⟨hsince, _, hepoch⟩ := h.since.take htake
    refine ⟨hlocks, hsince, fun hold heq => ?_, h.inHand, h.last, h.sunk⟩
    obtain ⟨queue, _, rfl⟩ := FrameQueue.eq_of_take htake
    exact (h.during hold heq).of_eq rfl rfl
  | flushEnds hold between hflushing hqueue =>
    have hempty : ∀ cut, ∀ f ∈ s.frames.queue, cut ≤ f.born := by
      intro cut f hf
      rw [hqueue] at hf
      cases hf
    cases between with
    | false =>
      exact ⟨hlocks, h.since, fun _ heq => absurd heq.symm (Option.some_ne_none _), h.inHand,
        fun f hf => absurd hf.symm (Option.some_ne_none _), h.sunk⟩
    | true =>
      have hrests := inHand_of_rests (h.locks.apart (h.locks.between hold hflushing))
      refine ⟨hlocks, ⟨hempty s.frames.epoch, h.during hold hflushing⟩,
        fun _ heq => absurd heq.symm (Option.some_ne_none _), fun f hf => ?_,
        fun f hf => absurd hf.symm (Option.some_ne_none _), h.sunk⟩
      exact absurd (hrests.symm.trans hf).symm (Option.some_ne_none _)
  | cutBegins | cutEnds => exact ⟨hlocks, h.since, h.during, h.inHand, h.last, h.sunk⟩
  | startAgain => exact h
  | starts hstopping hstopped =>
    exact ⟨hlocks, ⟨h.since.queue, h.since.puts.of_eq rfl rfl⟩,
      fun hold heq => (h.during hold heq).of_eq rfl rfl,
      fun f hf => absurd hf.symm (Option.some_ne_none _), h.last, h.sunk⟩
  | stop | closes =>
    exact ⟨hlocks, ⟨h.since.queue, h.since.puts.of_eq rfl rfl⟩,
      fun hold heq => (h.during hold heq).of_eq rfl rfl, h.inHand, h.last, h.sunk⟩
  | joined hthread =>
    exact ⟨hlocks, h.since.clear, fun hold heq => (h.during hold heq).of_eq rfl rfl, h.inHand,
      fun f hf => absurd hf.symm (Option.some_ne_none _), h.sunk⟩

theorem Drawn.step (h : Drawn s) {l : Label} (hl : s.CallsRead l) (hstep : s.step l = some s') :
    Drawn s' := by
  obtain hmove | ⟨_, htick⟩ := step_cases hstep
  · exact h.move hl (h.locks.step hstep) hmove
  · exact h.tick htick

/-! ### Whole runs -/

section Runs

variable {depth : ℕ}

theorem keeps_init : Keeps (mediaPacing depth).init :=
  ⟨FrameQueue.orderly_new, FrameQueue.prefixed_new⟩

theorem locks_init : Locks (mediaPacing depth).init where
  apart _ := rfl
  between _ heq := absurd heq.symm (Option.some_ne_none _)
  running := .inl rfl
  fresh _ := rfl

theorem whole_init : Whole (mediaPacing depth).init where
  locks := locks_init
  answers before e after heq := absurd heq (by simp [mediaPacing])
  agrees := ⟨rfl, rfl⟩
  apart hsome := Bool.noConfusion hsome

theorem drawn_init : Drawn (mediaPacing depth).init where
  locks := locks_init
  since := FrameQueue.since_new
  during _ heq := absurd heq.symm (Option.some_ne_none _)
  inHand _ hf := absurd hf.symm (Option.some_ne_none _)
  last _ hf := absurd hf.symm (Option.some_ne_none _)
  sunk _ hp := absurd hp List.not_mem_nil

/-- Frames are handed over in order and once, and each other part of what a pacer is to do holds in
the runs that meet its condition. -/
theorem paced {ls : List Label} (hrun : (mediaPacing depth).run ls = some s) :
    s.frames.Delivered (handed s.log) ∧
      ((mediaPacing depth).AllSteps DepthKept ls →
        ∀ level ∈ s.frames.levels, level.1 ≤ level.2) ∧
      ((mediaPacing depth).AllSteps Undivided ls → WebRtc.Answers s.log) ∧
      ((mediaPacing depth).AllSteps CallsRead ls → ∀ p ∈ s.sunk, p.2 ≤ p.1.born) := by
  refine ⟨?_, fun hkept => ?_, fun hwhole => ?_, fun hread => ?_⟩
  · have hinv : (mediaPacing depth).IsInvariant Keeps :=
      ⟨keeps_init, fun _ _ _ h hstep => h.step hstep⟩
    have hkeeps := hinv.of_run hrun
    exact FrameQueue.delivered (hkeeps.orderly.mono (List.sublist_append_left _ _)) hkeeps.prefixed
  · exact (hkept.invariant (I := fun s : MediaPacing => s.frames.Fitting) FrameQueue.fitting_new
      (fun _ _ _ h hl hstep => fitting_step h hl hstep) hrun).levels
  · exact (hwhole.invariant whole_init (fun _ _ _ h hl hstep => h.step hl hstep) hrun).answers
  · exact (hread.invariant drawn_init (fun _ _ _ h hl hstep => h.step hl hstep) hrun).sunk

def seen : List PacedTrack :=
  [{ name := "main", kind := .video, metadata := true }, { name := "sound", kind := .audio }]

def submitOne : List Label :=
  [.producer (.submit [seen] false), .producer .readEpoch, .producer .nextFrame, .producer .put,
    .producer .nextFrame]

/-- So many accesses of the pacing thread: a tick takes six for a frame or a repeat, five for a
black frame, and four where it finds neither. -/
def ticks (n : ℕ) : List Label := List.replicate n .tick

/-- A black frame, a frame and its repeat; a hold between two ticks, which drops a frame; and a plain
flush, and the black frame for it. -/
def cleanRun : List Label :=
  .start :: (ticks 5 ++ submitOne ++ ticks 6 ++ ticks 6 ++ submitOne ++
    [.cutBegins, .flushBegins true true, .flushDrains, .flushEnds, .cutEnds] ++ ticks 4 ++
    submitOne ++ ticks 6 ++ [.flushBegins false false, .flushEnds] ++ ticks 5)

theorem isSome_cleanRun : ((mediaPacing 2).run cleanRun).isSome := rfl

def oneOf (chunk born : ℕ) : PeerFrame := { chunk, index := 0, born, content := seen }

theorem paced_cleanRun :
    Answers (((mediaPacing 2).run cleanRun).get isSome_cleanRun).log ∧
      (((mediaPacing 2).run cleanRun).get isSome_cleanRun).log =
        [.black, .frame (oneOf 0 0), .repeats (oneOf 0 0) (videoOnly (oneOf 0 0)), .flushed true,
          .silent, .frame (oneOf 2 1), .flushed false, .black] ∧
      (∀ p ∈ (((mediaPacing 2).run cleanRun).get isSome_cleanRun).sunk, p.2 ≤ p.1.born) ∧
      ∀ level ∈ (((mediaPacing 2).run cleanRun).get isSome_cleanRun).frames.levels,
        level.1 ≤ level.2 := by
  obtain ⟨_, hlevels, hanswers, hsunk⟩ := paced (Option.some_get isSome_cleanRun).symm
  exact ⟨hanswers (by decide +kernel), by decide +kernel, hsunk (by decide +kernel),
    hlevels (by decide +kernel)⟩

/-- The depth goes from two to one while a frame waits that has read its capacity. -/
def shrinkRun : List Label :=
  .start :: submitOne ++ [.producer (.submit [seen] true), .producer .readEpoch, .producer .nextFrame,
    .producer (.setDepth 1), .producer .put]

/-- A hold lands while a tick is about to hand over the black frame. -/
def holdRun : List Label :=
  .start :: (ticks 3 ++ [.flushBegins true false, .flushEnds] ++ ticks 2)

/-- A flush lands while a tick is about to repeat the last frame. -/
def repeatRun : List Label :=
  .start :: (submitOne ++ ticks 6 ++ ticks 5 ++ [.flushBegins false false, .flushEnds, .tick])

/-- A flush lands between the two readings of the last frame. -/
def forgottenRun : List Label :=
  .start :: (submitOne ++ ticks 6 ++ ticks 4 ++ [.flushBegins false false, .flushEnds, .tick])

/-- A flush between two ticks comes after the call of `submit`, and before it reads the epoch. -/
def unreadRun : List Label :=
  [.start, .producer (.submit [seen] false), .cutBegins, .flushBegins false true, .flushEnds,
    .cutEnds, .producer .readEpoch, .producer .nextFrame, .producer .put] ++ ticks 6

/-- A put leaves more frames than the depth in force, or the chunk, allows. -/
def Overfills (ls : List Label) : Prop :=
  ∃ s, (mediaPacing 2).run ls = some s ∧ ∃ level ∈ s.frames.levels, ¬level.1 ≤ level.2

theorem overfills_shrinkRun : Overfills shrinkRun := by
  have hany : (((mediaPacing 2).run shrinkRun).any fun s =>
      s.frames.levels.any fun level => !decide (level.1 ≤ level.2)) = true := by
    decide +kernel
  obtain ⟨s, hs, hlevels⟩ := (Option.any_eq_true _ _).mp hany
  obtain ⟨level, hmem, hover⟩ := List.any_eq_true.mp hlevels
  exact ⟨s, hs, level, hmem, by simpa using hover⟩

theorem exists_log {ls : List Label} {log : List PacerEvent}
    (hlog : ((mediaPacing 2).run ls).map MediaPacing.log = some log) :
    ∃ s, (mediaPacing 2).run ls = some s ∧ s.log = log :=
  Option.map_eq_some_iff.mp hlog

def Crashes (ls : List Label) : Prop :=
  ∃ s, (mediaPacing 2).run ls = some s ∧ s.thread = .ended ∧ s.stopping = false

theorem isSome_forgottenRun : ((mediaPacing 2).run forgottenRun).isSome := rfl

theorem crashes_forgottenRun : Crashes forgottenRun :=
  ⟨((mediaPacing 2).run forgottenRun).get isSome_forgottenRun, (Option.some_get _).symm, rfl, rfl⟩

/-- The sink is handed a frame that was submitted before a flush between two ticks. -/
def LetsThrough (ls : List Label) : Prop :=
  ∃ s, (mediaPacing 2).run ls = some s ∧ ∃ p ∈ s.sunk, ¬p.2 ≤ p.1.born

theorem letsThrough_unreadRun : LetsThrough unreadRun := by
  have hany : (((mediaPacing 2).run unreadRun).any fun s =>
      s.sunk.any fun p => !decide (p.2 ≤ p.1.born)) = true := by
    decide +kernel
  obtain ⟨s, hs, hsunk⟩ := (Option.any_eq_true _ _).mp hany
  obtain ⟨p, hmem, hlate⟩ := List.any_eq_true.mp hsunk
  exact ⟨s, hs, p, hmem, by simpa using hlate⟩

/-- After a hold the black frame is sent, and a frame from before a flush is repeated after it. -/
theorem not_paced :
    Overfills shrinkRun ∧
      (∃ s, (mediaPacing 2).run holdRun = some s ∧ s.log = [.flushed true, .black]) ∧
      (∃ s, (mediaPacing 2).run repeatRun = some s ∧ s.log =
        [.frame (oneOf 0 0), .flushed false, .repeats (oneOf 0 0) (videoOnly (oneOf 0 0))]) ∧
      Crashes forgottenRun ∧ LetsThrough unreadRun :=
  ⟨overfills_shrinkRun, exists_log (by decide +kernel), exists_log (by decide +kernel),
    crashes_forgottenRun, letsThrough_unreadRun⟩

end Runs

end MediaPacing

end ReactorRuntime.WebRtc
