import ReactorRuntime.WebRtc.Wire

/-!
# A wire opens once

In every run the connected callback is scheduled at most once, before every frame, and the frames
that are scheduled are those that arrived before it, up to 64, and those that arrived after it, in
the order in which they took the lock (`Opens`).  The disconnect callback is scheduled at most once
(`LostOnce`), and every frame that arrived is accounted for (`Accounted`).
-/

namespace ReactorRuntime.WebRtc

open ReactorRuntime.Protocol (Channel Payload ProtocolVersion)

/-- The frame a call hands to the message callback. -/
def Scheduled.frame? : Scheduled → Option InboundFrame
  | .message frame => some frame
  | _ => none

/-- Whether a call is the connected callback. -/
def Scheduled.isConnected : Scheduled → Bool
  | .connected => true
  | _ => false

/-- Whether a call is the disconnect callback. -/
def Scheduled.isDisconnect : Scheduled → Bool
  | .disconnect => true
  | _ => false

namespace Wire

variable {s s' : Wire}

/-- The frames handed to the message callback, in order. -/
def messages (s : Wire) : List InboundFrame := s.scheduled.filterMap Scheduled.frame?

def deliveries (frames : List InboundFrame) : List Scheduled :=
  frames.flatMap fun frame => [.message frame, .ping]

theorem filterMap_deliveries (frames : List InboundFrame) :
    (deliveries frames).filterMap Scheduled.frame? = frames := by
  induction frames with
  | nil => rfl
  | cons frame frames ih =>
    unfold deliveries at ih ⊢
    rw [List.flatMap_cons, List.filterMap_append, ih]
    rfl

theorem countP_deliveries {p : Scheduled → Bool} (hmessage : ∀ frame, p (.message frame) = false)
    (hping : p .ping = false) (frames : List InboundFrame) : (deliveries frames).countP p = 0 := by
  refine List.countP_eq_zero.mpr fun call hcall => ?_
  obtain ⟨frame, -, hcall⟩ := List.mem_flatMap.mp hcall
  simp only [List.mem_cons, List.not_mem_nil, or_false] at hcall
  rcases hcall with rfl | rfl
  · simp [hmessage]
  · simp [hping]

theorem foldl_deliver (frames : List InboundFrame) (s : Wire) :
    frames.foldl deliver s = { s with scheduled := s.scheduled ++ deliveries frames } := by
  induction frames generalizing s with
  | nil => simp [deliveries]
  | cons frame frames ih =>
    rw [List.foldl_cons, ih]
    simp [deliver, fire, deliveries]

/-- The connected callback and the frames held so far are scheduled, or nothing changes. -/
theorem fireConnectedIfReady_cases (s : Wire) :
    s.fireConnectedIfReady = s ∨
      (s.stopped = false ∧ s.connected = false ∧ s.peerConnected = true ∧ s.dataOpen = true ∧
        s.controlOpen = true ∧ s.fireConnectedIfReady = { s with
          connected := true
          earlyFrames := []
          scheduled := s.scheduled ++ .connected :: deliveries s.earlyFrames }) := by
  unfold fireConnectedIfReady
  split_ifs with hdone hready
  · exact Or.inl rfl
  · simp only [Bool.or_eq_true, not_or, Bool.not_eq_true] at hdone
    simp only [Bool.and_eq_true] at hready
    refine Or.inr ⟨hdone.1, hdone.2, hready.1.1, hready.1.2, hready.2, ?_⟩
    rw [foldl_deliver]
    simp [fire]
  · exact Or.inl rfl

theorem setChannelOpen_eq (s : Wire) (channel : Channel) (isOpen : Bool) :
    ∃ t : Wire, s.setChannelOpen channel isOpen = t.fireConnectedIfReady ∧
      t = { s with
        controlOpen := if channel = .control then isOpen else s.controlOpen
        dataOpen := if channel = .data then isOpen else s.dataOpen } := by
  cases channel with
  | control => exact ⟨_, rfl, rfl⟩
  | data => exact ⟨_, rfl, rfl⟩

/-! ### The frames, in order -/

structure Opens (s : Wire) : Prop where
  flag : s.connected = true → s.opened = true
  lost : s.opened = true → s.connected = false → s.stopped = true
  closed : s.opened = false → s.messages = [] ∧ s.after = [] ∧ s.missed = []
  held : s.opened = false → s.stopped = false → s.earlyFrames = s.before.take maxEarlyFrames
  delivered : s.opened = true → s.messages = s.before.take maxEarlyFrames ++ s.after
  first : s.opened = true → ∃ pre post, s.scheduled = pre ++ .connected :: post ∧
    pre.filterMap Scheduled.frame? = [] ∧ (pre ++ post).countP Scheduled.isConnected = 0
  missed : s.missed ≠ [] → s.stopped = true

theorem Opens.init (version : ProtocolVersion) : Opens { protocolVersion := version } where
  flag h := by cases h
  lost h := by cases h
  closed _ := ⟨rfl, rfl, rfl⟩
  held _ _ := rfl
  delivered h := by cases h
  first h := by cases h
  missed h := (h rfl).elim

/-- A change of what the invariant does not speak of. -/
theorem Opens.of_eq (h : s.Opens) (hstopped : s'.stopped = s.stopped)
    (hconnected : s'.connected = s.connected) (hearly : s'.earlyFrames = s.earlyFrames)
    (hscheduled : s'.scheduled = s.scheduled) (hbefore : s'.before = s.before)
    (hafter : s'.after = s.after) (hmissed : s'.missed = s.missed) : s'.Opens := by
  have hopened : s'.opened = s.opened := by simp only [Wire.opened, hscheduled]
  have hmessages : s'.messages = s.messages := by simp only [Wire.messages, hscheduled]
  refine ⟨?_, ?_, ?_, ?_, ?_, ?_, ?_⟩
  · rw [hconnected, hopened]
    exact h.flag
  · rw [hconnected, hopened, hstopped]
    exact h.lost
  · rw [hopened, hmessages, hafter, hmissed]
    exact h.closed
  · rw [hopened, hstopped, hearly, hbefore]
    exact h.held
  · rw [hopened, hmessages, hbefore, hafter]
    exact h.delivered
  · rw [hopened, hscheduled]
    exact h.first
  · rw [hmissed, hstopped]
    exact h.missed

theorem Opens.fire (h : s.Opens) {call : Scheduled} (hframe : call.frame? = none)
    (hconnected : call.isConnected = false) : (s.fire call).Opens := by
  have hopened : (s.fire call).opened = s.opened := by
    cases call <;> simp_all [Wire.opened, Wire.fire, Scheduled.isConnected]
  have hmessages : (s.fire call).messages = s.messages := by
    simp [Wire.messages, Wire.fire, hframe]
  refine ⟨?_, ?_, ?_, ?_, ?_, ?_, h.missed⟩
  · rw [hopened]
    exact h.flag
  · rw [hopened]
    exact h.lost
  · rw [hopened, hmessages]
    exact h.closed
  · rw [hopened]
    exact h.held
  · rw [hopened, hmessages]
    exact h.delivered
  · rw [hopened]
    intro ho
    obtain ⟨pre, post, hscheduled, hpre, hcount⟩ := h.first ho
    refine ⟨pre, post ++ [call], ?_, hpre, ?_⟩
    · simp [Wire.fire, hscheduled]
    · rw [← List.append_assoc, List.countP_append, hcount]
      simp [hconnected]

/-- The wire opens with the frames held so far, or nothing changes. -/
theorem Opens.fireConnectedIfReady (h : s.Opens) : s.fireConnectedIfReady.Opens := by
  rcases s.fireConnectedIfReady_cases with heq | ⟨hstopped, hconnected, -, -, -, heq⟩
  · rw [heq]
    exact h
  · -- a wire that opened and is not connected any more has stopped
    have hopened : s.opened = false := by
      by_contra ho
      have := h.lost (Bool.eq_true_of_not_eq_false ho) hconnected
      rw [hstopped] at this
      cases this
    obtain ⟨hmessages, hafter, hmissed⟩ := h.closed hopened
    have hheld := h.held hopened hstopped
    have hnone : s.scheduled.countP Scheduled.isConnected = 0 := by
      refine List.countP_eq_zero.mpr fun call hcall => ?_
      have := List.any_eq_false.mp hopened call hcall
      cases call <;> simp_all [Scheduled.isConnected]
    rw [heq]
    have hopens : Wire.opened { s with
        connected := true
        earlyFrames := []
        scheduled := s.scheduled ++ .connected :: deliveries s.earlyFrames } = true := by
      simp [Wire.opened]
    refine ⟨fun _ => hopens, ?_, ?_, ?_, fun _ => ?_, fun _ => ?_, h.missed⟩
    · intro _ hfalse
      cases hfalse
    · intro hfalse
      rw [hopens] at hfalse
      cases hfalse
    · intro hfalse
      rw [hopens] at hfalse
      cases hfalse
    · simp only [Wire.messages, List.filterMap_append] at hmessages ⊢
      rw [hmessages, hafter, ← hheld, List.append_nil, List.nil_append]
      exact filterMap_deliveries s.earlyFrames
    · refine ⟨s.scheduled, deliveries s.earlyFrames, rfl, hmessages, ?_⟩
      rw [List.countP_append, hnone, countP_deliveries (fun _ => rfl) rfl]

theorem hold_earlyFrames (s : Wire) {before : List InboundFrame} (frame : InboundFrame)
    (h : s.earlyFrames = before.take maxEarlyFrames) :
    (s.hold frame).earlyFrames = (before ++ [frame]).take maxEarlyFrames := by
  unfold hold
  split_ifs with hfull
  · rw [h, List.length_take] at hfull
    rw [h, List.take_append_of_le_length (by omega)]
  · rw [h, List.length_take] at hfull
    have hroom : before.length < maxEarlyFrames := by omega
    rw [h, List.take_of_length_le hroom.le, List.take_of_length_le]
    rw [List.length_append, List.length_singleton]
    omega

theorem hold_eq (s : Wire) (frame : InboundFrame) :
    s.hold frame = { s with earlyFrames := (s.hold frame).earlyFrames } := by
  unfold hold
  split_ifs
  · rfl
  · rfl

theorem Opens.deliver (h : s.Opens) (hopened : s.opened = true) (frame : InboundFrame) :
    ({ s with after := s.after ++ [frame] }.deliver frame).Opens := by
  have heq : Wire.deliver { s with after := s.after ++ [frame] } frame = { s with
      after := s.after ++ [frame]
      scheduled := s.scheduled ++ [.message frame, .ping] } := by
    simp [Wire.deliver, Wire.fire]
  rw [heq]
  have hopens : Wire.opened { s with
      after := s.after ++ [frame]
      scheduled := s.scheduled ++ [.message frame, .ping] } = true := by
    simp only [Wire.opened] at hopened ⊢
    rw [List.any_append, hopened, Bool.true_or]
  refine ⟨fun _ => hopens, fun _ => h.lost hopened, ?_, ?_, fun _ => ?_, fun _ => ?_, h.missed⟩
  · intro hfalse
    rw [hopens] at hfalse
    cases hfalse
  · intro hfalse
    rw [hopens] at hfalse
    cases hfalse
  · have hdelivered := h.delivered hopened
    simp only [Wire.messages, List.filterMap_append] at hdelivered ⊢
    rw [hdelivered, List.append_assoc]
    rfl
  · obtain ⟨pre, post, hscheduled, hpre, hcount⟩ := h.first hopened
    refine ⟨pre, post ++ [.message frame, .ping], by simp [hscheduled], hpre, ?_⟩
    rw [← List.append_assoc, List.countP_append, hcount]
    rfl

theorem Opens.sink (h : s.Opens) (channel : Channel) (payload : Payload) :
    (s.sink channel payload).Opens := by
  have hsink : Wire.Opens { s with inSink := Function.update s.inSink channel none } :=
    h.of_eq rfl rfl rfl rfl rfl rfl rfl
  unfold Wire.sink
  dsimp only
  split_ifs with hconnected hopened
  · exact hsink.deliver (h.flag hconnected) _
  · have hstopped : s.stopped = true := h.lost hopened (Bool.eq_false_of_not_eq_true hconnected)
    rw [hold_eq]
    refine ⟨h.flag, fun _ _ => hstopped, ?_, ?_, h.delivered, h.first, fun _ => hstopped⟩
    · intro hclosed
      exact absurd (hopened.symm.trans hclosed) (by decide)
    · intro hclosed
      exact absurd (hopened.symm.trans hclosed) (by decide)
  · rw [hold_eq]
    refine ⟨h.flag, h.lost, h.closed, ?_, ?_, h.first, h.missed⟩
    · intro hclosed hstopped
      exact hold_earlyFrames _ _ (h.held hclosed hstopped)
    · intro hopened'
      exact absurd hopened' hopened

/-! ### The loss of the wire -/

/-- A loss that is reported is reported once, and stops the peer. -/
structure LostOnce (s : Wire) : Prop where
  once : s.scheduled.countP Scheduled.isDisconnect + (if s.loss = .idle then 0 else 1) ≤ 1
  stops : s.loss ≠ .idle → s.loss ≠ .stopping → s.stopped = true
  stopped : 0 < s.scheduled.countP Scheduled.isDisconnect → s.stopped = true

theorem LostOnce.init (version : ProtocolVersion) : LostOnce { protocolVersion := version } where
  once := by
    dsimp only
    rw [if_pos rfl]
    exact Nat.zero_le 1
  stops h := (h rfl).elim
  stopped h := by cases h

/-- A change of other fields. -/
theorem LostOnce.of_eq (h : s.LostOnce) (hstopped : s'.stopped = s.stopped)
    (hloss : s'.loss = s.loss)
    (hscheduled : s'.scheduled.countP Scheduled.isDisconnect =
      s.scheduled.countP Scheduled.isDisconnect) : s'.LostOnce where
  once := by rw [hscheduled, hloss]; exact h.once
  stops := by rw [hloss, hstopped]; exact h.stops
  stopped := by rw [hscheduled, hstopped]; exact h.stopped

theorem LostOnce.fireConnectedIfReady (h : s.LostOnce) : s.fireConnectedIfReady.LostOnce := by
  rcases s.fireConnectedIfReady_cases with heq | ⟨-, -, -, -, -, heq⟩
  · rw [heq]
    exact h
  · rw [heq]
    refine h.of_eq rfl rfl ?_
    dsimp only
    rw [List.countP_append, List.countP_cons_of_neg (by decide),
      countP_deliveries (fun _ => rfl) rfl]
    rfl

theorem LostOnce.setChannelOpen (h : s.LostOnce) (channel : Channel) (isOpen : Bool) :
    (s.setChannelOpen channel isOpen).LostOnce := by
  obtain ⟨t, heq, rfl⟩ := s.setChannelOpen_eq channel isOpen
  rw [heq]
  exact LostOnce.fireConnectedIfReady (h.of_eq rfl rfl rfl)

theorem LostOnce.sink (h : s.LostOnce) (channel : Channel) (payload : Payload) :
    (s.sink channel payload).LostOnce := by
  unfold Wire.sink
  dsimp only
  split_ifs
  · refine h.of_eq rfl rfl ?_
    simp [Wire.deliver, Wire.fire, Scheduled.isDisconnect]
  · rw [hold_eq]
    exact h.of_eq rfl rfl rfl
  · rw [hold_eq]
    exact h.of_eq rfl rfl rfl

theorem LostOnce.runNext (h : s.LostOnce) (hidle : s.loss = .idle) (call : Scheduled) :
    (s.runNext call).LostOnce := by
  have hother : LostOnce { s with ran := s.ran + 1 } := h.of_eq rfl rfl rfl
  cases call with
  | reportLoss =>
    rcases hstopped : s.stopped with _ | _
    · -- nothing was reported before, as that stops the peer
      have hnone : s.scheduled.countP Scheduled.isDisconnect = 0 := by
        by_contra hne
        have := h.stopped (Nat.pos_of_ne_zero hne)
        rw [hstopped] at this
        cases this
      have heq : s.runNext .reportLoss = { s with ran := s.ran + 1, loss := .stopping } := by
        simp [Wire.runNext, hstopped]
      rw [heq]
      refine ⟨?_, fun _ hstopping => (hstopping rfl).elim, h.stopped⟩
      dsimp only
      rw [hnone, if_neg (by decide)]
    · have heq : s.runNext .reportLoss = { s with ran := s.ran + 1 } := by
        simp [Wire.runNext, hstopped, hidle]
      rw [heq]
      exact hother
  | connected => exact hother
  | message frame => exact hother
  | ping => exact hother
  | disconnect => exact hother

theorem LostOnce.lossStep (h : s.LostOnce) (hstep : s.lossStep = some s') : s'.LostOnce := by
  have honce := h.once
  unfold Wire.lossStep at hstep
  rcases hloss : s.loss with _ | _ | _ | _ | _
  · rw [hloss] at hstep
    cases hstep
  all_goals
    rw [hloss] at hstep honce
    cases hstep
  · exact ⟨honce, fun _ _ => rfl, fun _ => rfl⟩
  · have hstopped : s.stopped = true := h.stops (by simp [hloss]) (by simp [hloss])
    exact ⟨honce, fun _ _ => hstopped, fun _ => hstopped⟩
  · have hstopped : s.stopped = true := h.stops (by simp [hloss]) (by simp [hloss])
    exact ⟨honce, fun _ _ => hstopped, fun _ => hstopped⟩
  · have hstopped : s.stopped = true := h.stops (by simp [hloss]) (by simp [hloss])
    refine ⟨?_, fun hne => (hne rfl).elim, fun _ => hstopped⟩
    simp only [Wire.fire, List.countP_append, List.countP_singleton, Scheduled.isDisconnect]
    simpa using honce

theorem LostOnce.next {l : Label} (h : s.LostOnce) (hnext : s.next l = some s') : s'.LostOnce := by
  cases l with
  | peerConnects =>
    cases hnext
    exact LostOnce.fireConnectedIfReady (h.of_eq rfl rfl rfl)
  | peerEnds =>
    cases hnext
    refine h.of_eq rfl rfl ?_
    simp [Wire.peerEnds, Wire.fire, Scheduled.isDisconnect]
  | transition channel isOpen =>
    cases hnext
    apply LostOnce.setChannelOpen
    exact h.of_eq rfl rfl rfl
  | adopt channel isOpen =>
    simp only [Wire.next, Option.ite_none_left_eq_some] at hnext
    obtain rfl := Option.some.inj hnext.2
    exact h.of_eq rfl rfl rfl
  | record channel =>
    obtain ⟨isOpen, -, rfl⟩ := Option.map_eq_some_iff.mp hnext
    apply LostOnce.setChannelOpen
    exact h.of_eq rfl rfl rfl
  | frame channel payload =>
    simp only [Wire.next, Option.ite_none_left_eq_some] at hnext
    obtain rfl := Option.some.inj hnext.2
    by_cases hstopped : s.stopped = true
    · rw [Wire.frame, if_pos hstopped]
      exact h.of_eq rfl rfl rfl
    · rw [Wire.frame, if_neg hstopped]
      exact h.of_eq rfl rfl rfl
  | sink channel =>
    obtain ⟨payload, -, rfl⟩ := Option.map_eq_some_iff.mp hnext
    exact h.sink channel payload
  | runNext =>
    simp only [Wire.next, Option.ite_none_right_eq_some] at hnext
    obtain ⟨call, -, rfl⟩ := Option.map_eq_some_iff.mp hnext.2
    exact h.runNext hnext.1 call
  | lossStep => exact h.lossStep hnext
  | stop =>
    cases hnext
    exact ⟨h.once, fun _ _ => rfl, fun _ => rfl⟩
  | release =>
    simp only [Wire.next, Option.ite_none_right_eq_some] at hnext
    obtain rfl := Option.some.inj hnext.2
    exact h.of_eq rfl rfl rfl

/-! ### A step keeps the order of the frames -/

theorem Opens.setChannelOpen (h : s.Opens) (channel : Channel) (isOpen : Bool) :
    (s.setChannelOpen channel isOpen).Opens := by
  obtain ⟨t, heq, rfl⟩ := s.setChannelOpen_eq channel isOpen
  rw [heq]
  exact Opens.fireConnectedIfReady (h.of_eq rfl rfl rfl rfl rfl rfl rfl)

/-- Once the peer is stopped, nothing that is held is delivered any more. -/
theorem Opens.of_stopped (h : s.Opens) (hstopped : s'.stopped = true)
    (hconnected : s'.connected = true → s.connected = true)
    (hscheduled : s'.scheduled = s.scheduled) (hbefore : s'.before = s.before)
    (hafter : s'.after = s.after) (hmissed : s'.missed = s.missed) : s'.Opens := by
  have hopened : s'.opened = s.opened := by simp only [Wire.opened, hscheduled]
  have hmessages : s'.messages = s.messages := by simp only [Wire.messages, hscheduled]
  refine ⟨?_, fun _ _ => hstopped, ?_, ?_, ?_, ?_, fun _ => hstopped⟩
  · intro hflag
    rw [hopened]
    exact h.flag (hconnected hflag)
  · rw [hopened, hmessages, hafter, hmissed]
    exact h.closed
  · intro _ hfalse
    exact absurd (hstopped.symm.trans hfalse) (by decide)
  · rw [hopened, hmessages, hbefore, hafter]
    exact h.delivered
  · rw [hopened, hscheduled]
    exact h.first

theorem Opens.lossStep (h : s.Opens) (hlost : s.LostOnce) (hstep : s.lossStep = some s') :
    s'.Opens := by
  unfold Wire.lossStep at hstep
  rcases hloss : s.loss with _ | _ | _ | _ | _
  · rw [hloss] at hstep
    cases hstep
  all_goals
    rw [hloss] at hstep
    cases hstep
  · exact h.of_stopped rfl id rfl rfl rfl rfl
  · have hstopped : s.stopped = true := hlost.stops (by simp [hloss]) (by simp [hloss])
    refine h.of_stopped hstopped ?_ rfl rfl rfl rfl
    intro hfalse
    cases hfalse
  · have hstopped : s.stopped = true := hlost.stops (by simp [hloss]) (by simp [hloss])
    exact h.of_stopped hstopped id rfl rfl rfl rfl
  · apply Opens.fire
    · exact h.of_eq rfl rfl rfl rfl rfl rfl rfl
    · rfl
    · rfl

theorem Opens.next {l : Label} (h : s.Opens) (hlost : s.LostOnce) (hnext : s.next l = some s') :
    s'.Opens := by
  cases l with
  | peerConnects =>
    cases hnext
    exact Opens.fireConnectedIfReady (h.of_eq rfl rfl rfl rfl rfl rfl rfl)
  | peerEnds =>
    cases hnext
    apply Opens.fire
    · exact h.of_eq rfl rfl rfl rfl rfl rfl rfl
    · rfl
    · rfl
  | transition channel isOpen =>
    cases hnext
    apply Opens.setChannelOpen
    exact h.of_eq rfl rfl rfl rfl rfl rfl rfl
  | adopt channel isOpen =>
    simp only [Wire.next, Option.ite_none_left_eq_some] at hnext
    obtain rfl := Option.some.inj hnext.2
    exact h.of_eq rfl rfl rfl rfl rfl rfl rfl
  | record channel =>
    obtain ⟨isOpen, -, rfl⟩ := Option.map_eq_some_iff.mp hnext
    apply Opens.setChannelOpen
    exact h.of_eq rfl rfl rfl rfl rfl rfl rfl
  | frame channel payload =>
    simp only [Wire.next, Option.ite_none_left_eq_some] at hnext
    obtain rfl := Option.some.inj hnext.2
    by_cases hstopped : s.stopped = true
    · rw [Wire.frame, if_pos hstopped]
      exact h.of_eq rfl rfl rfl rfl rfl rfl rfl
    · rw [Wire.frame, if_neg hstopped]
      exact h.of_eq rfl rfl rfl rfl rfl rfl rfl
  | sink channel =>
    obtain ⟨payload, -, rfl⟩ := Option.map_eq_some_iff.mp hnext
    exact h.sink channel payload
  | runNext =>
    simp only [Wire.next, Option.ite_none_right_eq_some] at hnext
    obtain ⟨call, -, rfl⟩ := Option.map_eq_some_iff.mp hnext.2
    cases call with
    | _ => exact h.of_eq rfl rfl rfl rfl rfl rfl rfl
  | lossStep => exact h.lossStep hlost hnext
  | stop =>
    cases hnext
    exact h.of_stopped rfl id rfl rfl rfl rfl
  | release =>
    simp only [Wire.next, Option.ite_none_right_eq_some] at hnext
    obtain rfl := Option.some.inj hnext.2
    exact h.of_stopped hnext.1 id rfl rfl rfl rfl

/-! ### Every frame is accounted for -/

/-- The frames of a channel that took the lock, in order. -/
def taken (s : Wire) (channel : Channel) : List Payload :=
  ((s.before ++ s.after ++ s.missed).filter fun frame => frame.channel = channel).map (·.payload)

structure Accounted (s : Wire) : Prop where
  arrived : ∀ channel, s.arrived channel =
    s.taken channel ++ (s.inSink channel).toList ++ s.refused channel
  refused : ∀ channel, s.refused channel ≠ [] → s.stopped = true ∧ s.inSink channel = none
  missed : s.missed ≠ [] → s.connected = false

theorem Accounted.init (version : ProtocolVersion) : Accounted { protocolVersion := version } where
  arrived _ := rfl
  refused _ h := (h rfl).elim
  missed h := (h rfl).elim

/-- A change of other fields. -/
theorem Accounted.of_eq (h : s.Accounted) (hstopped : s.stopped = true → s'.stopped = true)
    (hconnected : s.connected = false → s'.connected = false) (harrived : s'.arrived = s.arrived)
    (hinSink : s'.inSink = s.inSink) (hbefore : s'.before = s.before)
    (hafter : s'.after = s.after) (hmissed : s'.missed = s.missed)
    (hrefused : s'.refused = s.refused) : s'.Accounted := by
  refine ⟨fun channel => ?_, fun channel => ?_, ?_⟩
  · simp only [taken, harrived, hinSink, hbefore, hafter, hmissed, hrefused]
    exact h.arrived channel
  · rw [hrefused, hinSink]
    intro hne
    exact ⟨hstopped (h.refused channel hne).1, (h.refused channel hne).2⟩
  · rw [hmissed]
    exact fun hne => hconnected (h.missed hne)

theorem Accounted.fireConnectedIfReady (h : s.Accounted) (hopens : s.Opens) :
    s.fireConnectedIfReady.Accounted := by
  rcases s.fireConnectedIfReady_cases with heq | ⟨hstopped, -, -, -, -, heq⟩
  · rw [heq]
    exact h
  · rw [heq]
    refine ⟨h.arrived, h.refused, fun hne => ?_⟩
    exact absurd ((hopens.missed hne).symm.trans hstopped) (by decide)

theorem Accounted.setChannelOpen (h : s.Accounted) (hopens : s.Opens) (channel : Channel)
    (isOpen : Bool) : (s.setChannelOpen channel isOpen).Accounted := by
  obtain ⟨t, heq, rfl⟩ := s.setChannelOpen_eq channel isOpen
  rw [heq]
  apply Accounted.fireConnectedIfReady
  · exact h.of_eq id id rfl rfl rfl rfl rfl rfl
  · exact hopens.of_eq rfl rfl rfl rfl rfl rfl rfl

theorem Accounted.frame (h : s.Accounted) {channel : Channel} (hsink : s.inSink channel = none)
    (payload : Payload) : (s.frame channel payload).Accounted := by
  by_cases hstopped : s.stopped = true
  · rw [Wire.frame, if_pos hstopped]
    refine ⟨fun c => ?_, fun c hne => ⟨hstopped, ?_⟩, h.missed⟩
    · by_cases hc : c = channel
      · subst hc
        dsimp only [taken]
        rw [Function.update_self, Function.update_self, h.arrived c, List.append_assoc]
        rfl
      · dsimp only [taken]
        rw [Function.update_of_ne hc, Function.update_of_ne hc]
        exact h.arrived c
    · by_cases hc : c = channel
      · rw [hc]
        exact hsink
      · dsimp only at hne
        rw [Function.update_of_ne hc] at hne
        exact (h.refused c hne).2
  · rw [Wire.frame, if_neg hstopped]
    -- nothing was refused yet, as the peer runs
    have hnone : ∀ c, s.refused c = [] := by
      intro c
      by_contra hne
      exact hstopped (h.refused c hne).1
    refine ⟨fun c => ?_, fun c hne => (hne (hnone c)).elim, h.missed⟩
    by_cases hc : c = channel
    · subst hc
      dsimp only [taken]
      rw [Function.update_self, Function.update_self, h.arrived c, hsink, hnone c]
      simp [taken]
    · dsimp only [taken]
      rw [Function.update_of_ne hc, Function.update_of_ne hc]
      exact h.arrived c

theorem Accounted.of_taken (h : s.Accounted) {channel : Channel} {payload : Payload}
    (hsink : s.inSink channel = some payload) (hstopped : s'.stopped = s.stopped)
    (hinSink : s'.inSink = Function.update s.inSink channel none)
    (htaken : ∀ c, s'.taken c = s.taken c ++ (if c = channel then [payload] else []))
    (harrived : s'.arrived = s.arrived) (hrefused : s'.refused = s.refused)
    (hmissed : s'.missed ≠ [] → s'.connected = false) : s'.Accounted := by
  -- a channel with a frame in hand has had none refused
  have hnone : s.refused channel = [] := by
    by_contra hne
    exact absurd ((h.refused channel hne).2.symm.trans hsink) (by simp)
  refine ⟨fun c => ?_, fun c hne => ?_, hmissed⟩
  · rw [harrived, h.arrived c, htaken c, hinSink, hrefused]
    by_cases hc : c = channel
    · subst hc
      rw [if_pos rfl, Function.update_self, hsink, hnone]
      simp
    · rw [if_neg hc, Function.update_of_ne hc, List.append_nil]
  · rw [hrefused] at hne
    have hne' : c ≠ channel := by
      rintro rfl
      exact hne hnone
    rw [hstopped, hinSink, Function.update_of_ne hne']
    exact h.refused c hne

theorem filter_single (frame : InboundFrame) (c : Channel) :
    (([frame].filter fun frame => frame.channel = c).map (·.payload)) =
      if c = frame.channel then [frame.payload] else [] := by
  by_cases hc : frame.channel = c
  · simp [hc]
  · simp [hc, Ne.symm hc]

theorem Accounted.sink (h : s.Accounted) (hopens : s.Opens) {channel : Channel} {payload : Payload}
    (hsink : s.inSink channel = some payload) : (s.sink channel payload).Accounted := by
  unfold Wire.sink
  dsimp only
  split_ifs with hconnected hopened
  · have hmissed : s.missed = [] := by
      by_contra hne
      exact absurd (hconnected.symm.trans (h.missed hne)) (by decide)
    refine h.of_taken hsink rfl rfl (fun c => ?_) rfl rfl (fun hne => (hne hmissed).elim)
    simp only [taken, Wire.deliver, Wire.fire, hmissed, List.append_nil]
    rw [← List.append_assoc, List.filter_append, List.map_append, filter_single]
  · rw [hold_eq]
    refine h.of_taken hsink rfl rfl (fun c => ?_) rfl rfl
      (fun _ => Bool.eq_false_of_not_eq_true hconnected)
    simp only [taken]
    rw [← List.append_assoc, List.filter_append, List.map_append, filter_single]
  · obtain ⟨-, hafter, hmissed⟩ := hopens.closed (Bool.eq_false_of_not_eq_true hopened)
    rw [hold_eq]
    refine h.of_taken hsink rfl rfl (fun c => ?_) rfl rfl (fun hne => (hne hmissed).elim)
    simp only [taken, hafter, hmissed, List.append_nil]
    rw [List.filter_append, List.map_append, filter_single]

theorem Accounted.next {l : Label} (h : s.Accounted) (hopens : s.Opens)
    (hnext : s.next l = some s') : s'.Accounted := by
  cases l with
  | peerConnects =>
    cases hnext
    apply Accounted.fireConnectedIfReady
    · exact h.of_eq id id rfl rfl rfl rfl rfl rfl
    · exact hopens.of_eq rfl rfl rfl rfl rfl rfl rfl
  | peerEnds =>
    cases hnext
    exact h.of_eq id id rfl rfl rfl rfl rfl rfl
  | transition channel isOpen =>
    cases hnext
    apply Accounted.setChannelOpen
    · exact h.of_eq id id rfl rfl rfl rfl rfl rfl
    · exact hopens.of_eq rfl rfl rfl rfl rfl rfl rfl
  | adopt channel isOpen =>
    simp only [Wire.next, Option.ite_none_left_eq_some] at hnext
    obtain rfl := Option.some.inj hnext.2
    exact h.of_eq id id rfl rfl rfl rfl rfl rfl
  | record channel =>
    obtain ⟨isOpen, -, rfl⟩ := Option.map_eq_some_iff.mp hnext
    apply Accounted.setChannelOpen
    · exact h.of_eq id id rfl rfl rfl rfl rfl rfl
    · exact hopens.of_eq rfl rfl rfl rfl rfl rfl rfl
  | frame channel payload =>
    simp only [Wire.next, Option.ite_none_left_eq_some] at hnext
    obtain rfl := Option.some.inj hnext.2
    exact h.frame (Option.not_isSome_iff_eq_none.mp hnext.1) payload
  | sink channel =>
    obtain ⟨payload, hsink, rfl⟩ := Option.map_eq_some_iff.mp hnext
    exact h.sink hopens hsink
  | runNext =>
    simp only [Wire.next, Option.ite_none_right_eq_some] at hnext
    obtain ⟨call, -, rfl⟩ := Option.map_eq_some_iff.mp hnext.2
    cases call with
    | _ => exact h.of_eq id id rfl rfl rfl rfl rfl rfl
  | lossStep =>
    simp only [Wire.next, Wire.lossStep] at hnext
    rcases hloss : s.loss with _ | _ | _ | _ | _
    · rw [hloss] at hnext
      cases hnext
    all_goals
      rw [hloss] at hnext
      cases hnext
    · exact h.of_eq (fun _ => rfl) id rfl rfl rfl rfl rfl rfl
    · exact h.of_eq id (fun _ => rfl) rfl rfl rfl rfl rfl rfl
    · exact h.of_eq id id rfl rfl rfl rfl rfl rfl
    · exact h.of_eq id id rfl rfl rfl rfl rfl rfl
  | stop =>
    cases hnext
    exact h.of_eq (fun _ => rfl) id rfl rfl rfl rfl rfl rfl
  | release =>
    simp only [Wire.next, Option.ite_none_right_eq_some] at hnext
    obtain rfl := Option.some.inj hnext.2
    exact h.of_eq id id rfl rfl rfl rfl rfl rfl

/-! ### When the wire opens -/

/-- What is recorded of the peer and of the channels, and what the engine last said of them. -/
structure Told (s : Wire) : Prop where
  peer : s.peerConnected = true → s.terminal = false → s.peerUp = true
  channels : s.overtaken = false → s.stopped = false → ∀ channel, s.isOpen channel = s.up channel

theorem Told.init (version : ProtocolVersion) : Told { protocolVersion := version } where
  peer h := by cases h
  channels _ _ channel := by cases channel <;> rfl

/-- A change of other fields. -/
theorem Told.of_eq (h : s.Told) (hpeer : s'.peerConnected = s.peerConnected)
    (hterminal : s'.terminal = s.terminal) (hpeerUp : s'.peerUp = s.peerUp)
    (hovertaken : s'.overtaken = s.overtaken) (hstopped : s'.stopped = false → s.stopped = false)
    (hdata : s'.dataOpen = s.dataOpen) (hcontrol : s'.controlOpen = s.controlOpen)
    (hup : s'.up = s.up) : s'.Told := by
  refine ⟨?_, ?_⟩
  · rw [hpeer, hterminal, hpeerUp]
    exact h.peer
  · rw [hovertaken, hup]
    intro hnot hruns channel
    rw [← h.channels hnot (hstopped hruns) channel]
    cases channel with
    | control => exact hcontrol
    | data => exact hdata

theorem Told.fireConnectedIfReady (h : s.Told) : s.fireConnectedIfReady.Told := by
  rcases s.fireConnectedIfReady_cases with heq | ⟨-, -, -, -, -, heq⟩
  · rw [heq]
    exact h
  · rw [heq]
    exact h.of_eq rfl rfl rfl rfl id rfl rfl rfl

theorem Told.setChannelOpen (h : s.Told) {channel : Channel} {isOpen : Bool} {up : Channel → Bool}
    {overtaken : Bool} (hover : overtaken = false → s.overtaken = false ∧
      up = Function.update s.up channel isOpen) {stale : Channel → Bool}
    {reading : Channel → Option Bool} :
    (Wire.setChannelOpen { s with up, overtaken, stale, reading } channel isOpen).Told := by
  obtain ⟨t, heq, rfl⟩ :=
    Wire.setChannelOpen_eq { s with up, overtaken, stale, reading } channel isOpen
  rw [heq]
  apply Told.fireConnectedIfReady
  refine ⟨h.peer, fun hnot hruns c => ?_⟩
  obtain ⟨hnot', rfl⟩ := hover hnot
  have hc := h.channels hnot' hruns c
  by_cases hsame : c = channel
  · subst hsame
    dsimp only
    rw [Function.update_self]
    cases c with
    | control => rfl
    | data => rfl
  · dsimp only
    rw [Function.update_of_ne hsame, ← hc]
    cases c with
    | control => exact if_neg (Ne.symm hsame)
    | data => exact if_neg (Ne.symm hsame)

theorem Told.next {l : Label} (h : s.Told) (hlost : s.LostOnce) (hnext : s.next l = some s') :
    s'.Told := by
  cases l with
  | peerConnects =>
    cases hnext
    apply Told.fireConnectedIfReady
    exact ⟨fun _ _ => rfl, h.channels⟩
  | peerEnds =>
    cases hnext
    refine ⟨fun _ hfalse => ?_, h.channels⟩
    cases hfalse
  | transition channel isOpen =>
    cases hnext
    exact h.setChannelOpen fun hnot => ⟨hnot, rfl⟩
  | adopt channel isOpen =>
    simp only [Wire.next, Option.ite_none_left_eq_some] at hnext
    obtain rfl := Option.some.inj hnext.2
    exact h.of_eq rfl rfl rfl rfl id rfl rfl rfl
  | record channel =>
    obtain ⟨isOpen, -, rfl⟩ := Option.map_eq_some_iff.mp hnext
    refine h.setChannelOpen fun hnot => ?_
    simp only [Bool.or_eq_false_iff] at hnot
    refine ⟨hnot.1, ?_⟩
    rw [if_neg (Bool.not_eq_true _ ▸ hnot.2)]
  | frame channel payload =>
    simp only [Wire.next, Option.ite_none_left_eq_some] at hnext
    obtain rfl := Option.some.inj hnext.2
    by_cases hstopped : s.stopped = true
    · rw [Wire.frame, if_pos hstopped]
      exact h.of_eq rfl rfl rfl rfl id rfl rfl rfl
    · rw [Wire.frame, if_neg hstopped]
      exact h.of_eq rfl rfl rfl rfl id rfl rfl rfl
  | sink channel =>
    obtain ⟨payload, -, rfl⟩ := Option.map_eq_some_iff.mp hnext
    unfold Wire.sink
    dsimp only
    split_ifs
    · exact h.of_eq rfl rfl rfl rfl id rfl rfl rfl
    · rw [hold_eq]
      exact h.of_eq rfl rfl rfl rfl id rfl rfl rfl
    · rw [hold_eq]
      exact h.of_eq rfl rfl rfl rfl id rfl rfl rfl
  | runNext =>
    simp only [Wire.next, Option.ite_none_right_eq_some] at hnext
    obtain ⟨call, -, rfl⟩ := Option.map_eq_some_iff.mp hnext.2
    cases call with
    | _ => exact h.of_eq rfl rfl rfl rfl id rfl rfl rfl
  | lossStep =>
    simp only [Wire.next, Wire.lossStep] at hnext
    rcases hloss : s.loss with _ | _ | _ | _ | _
    · rw [hloss] at hnext
      cases hnext
    all_goals
      rw [hloss] at hnext
      cases hnext
    · refine h.of_eq rfl rfl rfl rfl (fun hfalse => ?_) rfl rfl rfl
      cases hfalse
    · have hstopped : s.stopped = true := hlost.stops (by simp [hloss]) (by simp [hloss])
      refine ⟨fun hfalse => ?_, fun _ hfalse => ?_⟩
      · cases hfalse
      · exact absurd (hstopped.symm.trans hfalse) (by decide)
    · exact h.of_eq rfl rfl rfl rfl id rfl rfl rfl
    · exact h.of_eq rfl rfl rfl rfl id rfl rfl rfl
  | stop =>
    cases hnext
    refine h.of_eq rfl rfl rfl rfl (fun hfalse => ?_) rfl rfl rfl
    cases hfalse
  | release =>
    simp only [Wire.next, Option.ite_none_right_eq_some] at hnext
    obtain rfl := Option.some.inj hnext.2
    exact h.of_eq rfl rfl rfl rfl id rfl rfl rfl

theorem fireConnectedIfReady_connects
    (h : s.scheduled.countP Scheduled.isConnected <
      s.fireConnectedIfReady.scheduled.countP Scheduled.isConnected) :
    s.fireConnectedIfReady.stopped = false ∧ s.fireConnectedIfReady.peerConnected = true ∧
      s.fireConnectedIfReady.dataOpen = true ∧ s.fireConnectedIfReady.controlOpen = true := by
  rcases s.fireConnectedIfReady_cases with heq | ⟨hstopped, -, hpeer, hdata, hcontrol, heq⟩
  · rw [heq] at h
    exact absurd h (lt_irrefl _)
  · rw [heq]
    exact ⟨hstopped, hpeer, hdata, hcontrol⟩

theorem connects {l : Label} (hnext : s.next l = some s')
    (hcount : s.scheduled.countP Scheduled.isConnected <
      s'.scheduled.countP Scheduled.isConnected) :
    s'.stopped = false ∧ s'.peerConnected = true ∧ s'.dataOpen = true ∧ s'.controlOpen = true := by
  -- no other call that is scheduled is the connected callback
  have hsame : s'.scheduled.countP Scheduled.isConnected =
      s.scheduled.countP Scheduled.isConnected → False := fun heq => by
    rw [heq] at hcount
    exact lt_irrefl _ hcount
  have hset : ∀ (t : Wire) (channel : Channel) (isOpen : Bool),
      s' = t.setChannelOpen channel isOpen → t.scheduled = s.scheduled →
        s'.stopped = false ∧ s'.peerConnected = true ∧ s'.dataOpen = true ∧
          s'.controlOpen = true := by
    intro t channel isOpen heq hscheduled
    obtain ⟨u, hu, hueq⟩ := t.setChannelOpen_eq channel isOpen
    rw [heq, hu]
    apply fireConnectedIfReady_connects
    rw [← hu, ← heq, hueq]
    dsimp only
    rw [hscheduled]
    exact hcount
  cases l with
  | peerConnects =>
    cases hnext
    exact fireConnectedIfReady_connects hcount
  | peerEnds =>
    cases hnext
    refine (hsame ?_).elim
    simp [Wire.peerEnds, Wire.fire, Scheduled.isConnected]
  | transition channel isOpen => exact hset _ channel isOpen (Option.some.inj hnext).symm rfl
  | adopt channel isOpen =>
    simp only [Wire.next, Option.ite_none_left_eq_some] at hnext
    obtain rfl := Option.some.inj hnext.2
    exact (hsame rfl).elim
  | record channel =>
    obtain ⟨isOpen, -, heq⟩ := Option.map_eq_some_iff.mp hnext
    exact hset _ channel isOpen heq.symm rfl
  | frame channel payload =>
    simp only [Wire.next, Option.ite_none_left_eq_some] at hnext
    obtain rfl := Option.some.inj hnext.2
    refine (hsame ?_).elim
    by_cases hstopped : s.stopped = true
    · rw [Wire.frame, if_pos hstopped]
    · rw [Wire.frame, if_neg hstopped]
  | sink channel =>
    obtain ⟨payload, -, rfl⟩ := Option.map_eq_some_iff.mp hnext
    refine (hsame ?_).elim
    unfold Wire.sink
    dsimp only
    split_ifs
    · simp [Wire.deliver, Wire.fire, Scheduled.isConnected]
    · rw [hold_eq]
    · rw [hold_eq]
  | runNext =>
    simp only [Wire.next, Option.ite_none_right_eq_some] at hnext
    obtain ⟨call, -, rfl⟩ := Option.map_eq_some_iff.mp hnext.2
    cases call with
    | _ => exact (hsame rfl).elim
  | lossStep =>
    simp only [Wire.next, Wire.lossStep] at hnext
    rcases hloss : s.loss with _ | _ | _ | _ | _
    · rw [hloss] at hnext
      cases hnext
    all_goals
      rw [hloss] at hnext
      cases hnext
      refine (hsame ?_).elim
      simp [Wire.fire, Scheduled.isConnected]
  | stop =>
    cases hnext
    exact (hsame rfl).elim
  | release =>
    simp only [Wire.next, Option.ite_none_right_eq_some] at hnext
    obtain rfl := Option.some.inj hnext.2
    exact (hsame rfl).elim

/-! ### Every run -/

theorem Opens.connected_before (h : s.Opens) {pre post : List Scheduled} {frame : InboundFrame}
    (hscheduled : s.scheduled = pre ++ .message frame :: post) :
    pre.any Scheduled.isConnected = true := by
  have hopened : s.opened = true := by
    by_contra hclosed
    have hmessages := (h.closed (Bool.eq_false_of_not_eq_true hclosed)).1
    rw [Wire.messages, hscheduled, List.filterMap_append] at hmessages
    exact absurd (List.append_eq_nil_iff.mp hmessages).2 (by simp [Scheduled.frame?])
  obtain ⟨pre', post', heq, hnone, -⟩ := h.first hopened
  rcases List.append_eq_append_iff.mp (hscheduled.symm.trans heq) with
    ⟨between, hpre, hrest⟩ | ⟨between, hpre, hrest⟩
  · cases between with
    | nil => cases hrest
    | cons call between =>
      -- the frame would be among what comes before the callback
      obtain ⟨rfl, -⟩ := List.cons.inj hrest
      rw [hpre, List.filterMap_append] at hnone
      exact absurd (List.append_eq_nil_iff.mp hnone).2 (by simp [Scheduled.frame?])
  · cases between with
    | nil => cases hrest
    | cons call between =>
      obtain ⟨rfl, -⟩ := List.cons.inj hrest
      rw [hpre]
      simp [Scheduled.isConnected]

theorem Opens.connected_once (h : s.Opens) :
    s.scheduled.countP Scheduled.isConnected ≤ 1 := by
  rcases hopened : s.opened with _ | _
  · refine (List.countP_eq_zero.mpr fun call hcall => ?_).trans_le (Nat.zero_le 1)
    have := List.any_eq_false.mp hopened call hcall
    cases call <;> simp_all [Scheduled.isConnected]
  · obtain ⟨pre, post, heq, -, hcount⟩ := h.first hopened
    rw [List.countP_append] at hcount
    rw [heq, List.countP_append, List.countP_cons]
    have : (if Scheduled.isConnected .connected = true then 1 else 0) = 1 := rfl
    omega

/-- In every run a wire opens at most once, where the peer has reported itself connected and both
channels are recorded as open: as they are, unless a terminal state of the peer has arrived or a
record was overtaken.  The frames that are scheduled are those that took the lock before, up to 64,
and those that took it while the wire was open, in that order and after the connected callback.
Every frame of a channel took the lock in its turn, or waits in its sink for it, or found the peer
stopped, and only a stopped peer misses one.  The loss is reported at most once. -/
theorem opens_once {version : ProtocolVersion} {ls : List Label} {s : Wire}
    (hrun : (wire version).run ls = some s) :
    s.scheduled.countP Scheduled.isConnected ≤ 1 ∧
    (∀ l s', s.next l = some s' → s.scheduled.countP Scheduled.isConnected <
        s'.scheduled.countP Scheduled.isConnected →
      s'.peerConnected = true ∧ s'.isOpen .data = true ∧ s'.isOpen .control = true ∧
        (s'.terminal = false → s'.peerUp = true) ∧
        (s'.overtaken = false → ∀ channel, s'.up channel = true)) ∧
    (∀ pre frame post, s.scheduled = pre ++ .message frame :: post →
      pre.any Scheduled.isConnected = true) ∧
    s.messages = (if s.opened then s.before.take maxEarlyFrames ++ s.after else []) ∧
    (∀ channel, s.arrived channel =
      s.taken channel ++ (s.inSink channel).toList ++ s.refused channel) ∧
    ((s.missed ≠ [] ∨ ∃ channel, s.refused channel ≠ []) → s.stopped = true) ∧
    s.scheduled.countP Scheduled.isDisconnect ≤ 1 := by
  have hall : s.LostOnce ∧ s.Opens ∧ s.Accounted ∧ s.Told :=
    TransitionSystem.IsInvariant.of_run
      (I := fun s : Wire => s.LostOnce ∧ s.Opens ∧ s.Accounted ∧ s.Told)
      ⟨⟨LostOnce.init version, Opens.init version, Accounted.init version, Told.init version⟩,
        fun s l s' h hnext => ⟨h.1.next hnext, h.2.1.next h.1 hnext, h.2.2.1.next h.2.1 hnext,
          h.2.2.2.next h.1 hnext⟩⟩ hrun
  obtain ⟨hlost, hopens, haccounted, htold⟩ := hall
  refine ⟨hopens.connected_once, fun l s' hnext hcount => ?_, fun pre frame post => ?_, ?_,
    haccounted.arrived, ?_, ?_⟩
  · obtain ⟨hstopped, hpeer, hdata, hcontrol⟩ := connects hnext hcount
    have htold' : s'.Told := htold.next hlost hnext
    refine ⟨hpeer, hdata, hcontrol, htold'.peer hpeer, fun hnot channel => ?_⟩
    rw [← htold'.channels hnot hstopped channel]
    cases channel with
    | control => exact hcontrol
    | data => exact hdata
  · exact hopens.connected_before
  · split_ifs with hopened
    · exact hopens.delivered hopened
    · exact (hopens.closed (Bool.eq_false_of_not_eq_true hopened)).1
  · rintro (hmissed | ⟨channel, hrefused⟩)
    · exact hopens.missed hmissed
    · exact (haccounted.refused channel hrefused).1
  · exact (Nat.le_add_right _ _).trans hlost.once

/-- A frame comes early, the wire opens, another frame comes, and the wire is lost. -/
def openRun : List Label :=
  [.adopt .control true, .record .control, .frame .control (.text "hello"), .sink .control,
    .peerConnects, .adopt .data false, .record .data, .transition .data true,
    .frame .data (.text "there"), .sink .data, .peerEnds, .runNext, .runNext, .runNext, .runNext,
    .runNext, .runNext, .lossStep, .lossStep, .lossStep, .lossStep]

theorem isSome_openRun : ((wire .v1).run openRun).isSome := rfl

theorem opens_once_openRun :
    (((wire .v1).run openRun).get isSome_openRun).scheduled.countP Scheduled.isConnected ≤ 1 :=
  (opens_once (Option.some_get isSome_openRun).symm).1

/-- The wire opens, the peer is torn down, and a frame comes. -/
def stoppedRun : List Label :=
  [.peerConnects, .transition .control true, .transition .data true, .stop,
    .frame .data (.text "late")]

/-- The peer reports a terminal state before the second channel opens. -/
def endedRun : List Label :=
  [.peerConnects, .transition .control true, .peerEnds, .transition .data true]

/-- A frame that arrives after the wire opened is not scheduled once the peer is stopped, and the
connected callback is scheduled after a terminal state. -/
theorem not_opens_once :
    (∃ s, (wire .v1).run stoppedRun = some s ∧ s.opened = true ∧ (s.arrived .data).length = 1 ∧
      s.inSink .data = none ∧ s.messages.length = 0) ∧
    ∃ s, (wire .v1).run endedRun = some s ∧ s.opened = true ∧ s.peerUp = false := by
  have hstopped : (((wire .v1).run stoppedRun).any fun s => s.opened &&
      (s.arrived .data).length == 1 && (s.inSink .data).isNone && s.messages.length == 0) =
        true := by
    decide +kernel
  have hended : (((wire .v1).run endedRun).any fun s => s.opened && !s.peerUp) = true := by
    decide +kernel
  obtain ⟨s, hs, hfields⟩ := (Option.any_eq_true _ _).mp hstopped
  obtain ⟨s', hs', hfields'⟩ := (Option.any_eq_true _ _).mp hended
  simp only [Bool.and_eq_true, beq_iff_eq, Option.isNone_iff_eq_none] at hfields
  simp only [Bool.and_eq_true, Bool.not_eq_true'] at hfields'
  exact ⟨⟨s, hs, hfields.1.1.1, hfields.1.1.2, hfields.1.2, hfields.2⟩, s', hs', hfields'.1,
    hfields'.2⟩

end Wire

end ReactorRuntime.WebRtc
