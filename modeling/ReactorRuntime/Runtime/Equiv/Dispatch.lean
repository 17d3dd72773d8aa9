import ReactorRuntime.Runtime.Equiv.Session
import ReactorRuntime.Runtime.Runner

/-!
# What a move of the session does to the runner

One lemma for each part of the runner that `dispatchTransition` touches, and one that says it
touches nothing else (`dispatchTransition_frame`).  The results about runs are proved from these.
-/

namespace ReactorRuntime.Runtime

open Recording

namespace Runner

variable (recording : Bool) (r : Runner) (t : Transition)

/-! ### What the listener touches -/

theorem resolveStart_frame : r.resolveStart t = { r with
    recordingId := (r.resolveStart t).recordingId
    sessionStart := (r.resolveStart t).sessionStart
    starts := (r.resolveStart t).starts } := by
  unfold resolveStart
  split <;> rfl

theorem dispatchReactorEvents_frame : r.dispatchReactorEvents t = { r with
    sessionsPosted := if t.isSessionStart then r.sessionsPosted + 1 else r.sessionsPosted
    posted := (r.dispatchReactorEvents t).posted } := by
  unfold dispatchReactorEvents
  cases t.isSessionStart <;> cases t.isSessionEnd <;> dsimp only <;> split <;> rfl

theorem startRecorder_frame :
    r.startRecorder recording t = { r with recorder := (r.startRecorder recording t).recorder } := by
  unfold startRecorder
  split
  · split_ifs <;> rfl
  · rfl

def spawned (t : Transition) : List Teardown :=
  if t.fromState = t.toState then []
  else if t.toState = .closing then [{ cleanup := some t.ending.1 }]
  else if t.toState = .terminated ∧ t.event = .eviction then [{ cleanup := none }]
  else []

theorem spawned_eq_nil {t : Transition} (hclosing : t.toState ≠ .closing)
    (hterminated : t.toState ≠ .terminated) : spawned t = [] := by
  have heviction : ¬ (t.toState = .terminated ∧ t.event = .eviction) := fun h => hterminated h.1
  rw [spawned, if_neg hclosing, if_neg heviction, ite_self]

theorem spawned_ne_nil {t : Transition} (hne : t.fromState ≠ t.toState)
    (hend : t.toState = .closing ∨ t.toState = .terminated ∧ t.event = .eviction) :
    spawned t ≠ [] := by
  rw [spawned, if_neg hne]
  split_ifs with hclosing hterminated
  · exact List.cons_ne_nil _ _
  · exact List.cons_ne_nil _ _
  · exact absurd hend (not_or.mpr ⟨hclosing, hterminated⟩)

/-- Whether a move enters `CLOSING`. -/
def closes (t : Transition) : Bool := t.fromState ≠ t.toState ∧ t.toState = .closing

theorem enterState_eq : r.enterState t = { r with
    attached := if closes t then r.attached + r.connections.count else r.attached
    startingInputDone := (r.enterState t).startingInputDone
    stops := r.stops ++ (spawned t).map fun _ => { session := r.sessionsPosted }
    teardowns := r.teardowns ++ spawned t } := by
  have hcloses : closes t = true ↔ t.fromState ≠ t.toState ∧ t.toState = .closing := by
    rw [closes, decide_eq_true_iff]
  by_cases hsame : t.fromState = t.toState
  · have : closes t = false := by
      rw [Bool.eq_false_iff]
      exact fun h => (hcloses.mp h).1 hsame
    rw [this, enterState, spawned, if_pos hsame, if_pos hsame]
    simp only [Bool.false_eq_true, if_false, List.map_nil, List.append_nil]
  · by_cases hclosing : t.toState = .closing
    · rw [hcloses.mpr ⟨hsame, hclosing⟩, enterState, spawned, if_neg hsame, if_neg hsame,
        if_pos hclosing, if_pos hclosing]
      rfl
    · have : closes t = false := by
        rw [Bool.eq_false_iff]
        exact fun h => hclosing (hcloses.mp h).2
      rw [this, enterState, spawned, if_neg hsame, if_neg hsame, if_neg hclosing, if_neg hclosing]
      by_cases heviction : t.toState = .terminated ∧ t.event = .eviction
      · rw [if_pos heviction, if_pos heviction]
        rfl
      · rw [if_neg heviction, if_neg heviction]
        simp only [Bool.false_eq_true, if_false, List.map_nil, List.append_nil]

theorem dispatchTransition_frame : r.dispatchTransition recording t = { r with
    recordingId := (r.resolveStart t).recordingId
    sessionStart := (r.resolveStart t).sessionStart
    starts := (r.resolveStart t).starts
    events := r.events.emit t
    sessionsPosted := if t.isSessionStart then r.sessionsPosted + 1 else r.sessionsPosted
    posted := (r.dispatchTransition recording t).posted
    recorder := (r.dispatchTransition recording t).recorder
    attached := if closes t then r.attached + r.connections.count else r.attached
    startingInputDone := (r.dispatchTransition recording t).startingInputDone
    stops := r.stops ++ (spawned t).map fun _ =>
      { session := if t.isSessionStart then r.sessionsPosted + 1 else r.sessionsPosted }
    teardowns := r.teardowns ++ spawned t } := by
  unfold dispatchTransition
  dsimp only
  rw [enterState_eq, startRecorder_frame, dispatchReactorEvents_frame, resolveStart_frame]

theorem dispatchTransition_of_not_start (h : t.isSessionStart = false) :
    (r.dispatchTransition recording t).recorder = r.recorder ∧
      (r.dispatchTransition recording t).recordingId = r.recordingId ∧
      (r.dispatchTransition recording t).sessionStart = r.sessionStart ∧
      (r.dispatchTransition recording t).starts = r.starts ∧
      (r.dispatchTransition recording t).sessionsPosted = r.sessionsPosted := by
  have hresolve : r.resolveStart t = r := by
    rw [resolveStart, h]
  have hrecorder (r : Runner) : (r.startRecorder recording t).recorder = r.recorder := by
    unfold startRecorder
    rw [h]
  constructor
  · unfold dispatchTransition
    dsimp only
    rw [enterState_eq]
    show (startRecorder recording _ t).recorder = _
    rw [hrecorder, dispatchReactorEvents_frame, resolveStart_frame]
  · rw [dispatchTransition_frame, hresolve, h]
    exact ⟨rfl, rfl, rfl, rfl⟩

theorem recorder_dispatchTransition_start (h : t.isSessionStart = true) {params : SessionParams}
    {drawn : Drawn} (hdetail : t.detail = .params params drawn) :
    (r.dispatchTransition recording t).recorder =
      if params.start.generation = .streamed then
        r.recorder.start recording (recordingIdFrom params drawn.uuid) (r.sessionsPosted + 1)
          drawn.directory
      else r.recorder := by
  have hresolve : r.resolveStart t = { r with
      recordingId := recordingIdFrom params drawn.uuid
      sessionStart := params.start
      starts := r.starts ++ [params.start] } := by
    rw [resolveStart, h, hdetail]
  unfold dispatchTransition
  dsimp only
  rw [enterState_eq]
  show (startRecorder recording _ t).recorder = _
  rw [hresolve, dispatchReactorEvents_frame, h, if_pos rfl]
  unfold startRecorder
  rw [h, hdetail]
  dsimp only
  split_ifs <;> rfl

/-! ### A move of the machine -/

theorem resolveStart_machine (machine : SessionStateMachine) :
    { r with machine }.resolveStart t = { r.resolveStart t with machine } := by
  unfold resolveStart
  cases t.isSessionStart <;> cases t.detail <;> rfl

variable (machine : SessionStateMachine) (event : SessionEvent) (detail : Detail)

def transition (r : Runner) (machine : SessionStateMachine) (event : SessionEvent)
    (detail : Detail) : Transition where
  event := event
  fromState := r.machine.state
  toState := machine.state
  detail := detail

theorem isSessionStart_eq_false (r : Runner)
    (hrunning : machine.state.isRunning → r.machine.state.isRunning) :
    (r.transition machine event detail).isSessionStart = false := by
  rw [Transition.isSessionStart, decide_eq_false_iff_not]
  rintro ⟨hfrom, hto⟩
  have hfrom : r.machine.state = .ready := hfrom
  have hto : machine.state = .waiting := hto
  rw [hfrom, hto] at hrunning
  exact absurd (hrunning rfl) (by decide)

@[simp] theorem machine_move :
    (r.move recording machine event detail).machine = machine := by
  rw [move, dispatchTransition_frame]

@[simp] theorem connections_move :
    (r.move recording machine event detail).connections = r.connections := by
  rw [move, dispatchTransition_frame]

@[simp] theorem offerEpochs_move :
    (r.move recording machine event detail).offerEpochs = r.offerEpochs := by
  rw [move, dispatchTransition_frame]

@[simp] theorem stepsCompleted_move :
    (r.move recording machine event detail).stepsCompleted = r.stepsCompleted := by
  rw [move, dispatchTransition_frame]

@[simp] theorem startingRequestIds_move :
    (r.move recording machine event detail).startingRequestIds = r.startingRequestIds := by
  rw [move, dispatchTransition_frame]

@[simp] theorem stepsFailed_move :
    (r.move recording machine event detail).stepsFailed = r.stepsFailed := by
  rw [move, dispatchTransition_frame]

@[simp] theorem offers_move :
    (r.move recording machine event detail).offers = r.offers := by
  rw [move, dispatchTransition_frame]

@[simp] theorem requests_move :
    (r.move recording machine event detail).requests = r.requests := by
  rw [move, dispatchTransition_frame]

@[simp] theorem failedSessions_move :
    (r.move recording machine event detail).failedSessions = r.failedSessions := by
  rw [move, dispatchTransition_frame]

theorem events_move : (r.move recording machine event detail).events =
    r.events.emit (r.transition machine event detail) := by
  rw [move, dispatchTransition_frame]
  rfl

theorem teardowns_move : (r.move recording machine event detail).teardowns =
    r.teardowns ++ spawned (r.transition machine event detail) := by
  rw [move, dispatchTransition_frame]
  rfl

theorem teardowns_move_of_eq (h : machine.state = r.machine.state) :
    (r.move recording machine event detail).teardowns = r.teardowns := by
  rw [teardowns_move, spawned, if_pos, List.append_nil]
  exact h.symm

theorem teardowns_move_of_not_end (hclosing : machine.state ≠ .closing)
    (hterminated : machine.state ≠ .terminated) :
    (r.move recording machine event detail).teardowns = r.teardowns := by
  rw [teardowns_move, spawned_eq_nil, List.append_nil]
  · exact hclosing
  · exact hterminated

theorem teardowns_move_of_closing (hclosing : r.machine.state ≠ .closing)
    (h : machine.state = .closing) :
    (r.move recording machine event detail).teardowns =
      r.teardowns ++ [{ cleanup := some (r.transition machine event detail).ending.1 }] := by
  rw [teardowns_move, spawned, if_neg, if_pos]
  · exact h
  · show r.machine.state ≠ machine.state
    rw [h]
    exact hclosing

theorem sessionsPosted_move : (r.move recording machine event detail).sessionsPosted =
    if (r.transition machine event detail).isSessionStart then r.sessionsPosted + 1
      else r.sessionsPosted := by
  rw [move, dispatchTransition_frame]
  rfl

theorem attached_move : (r.move recording machine event detail).attached =
    if closes (r.transition machine event detail) then r.attached + r.connections.count
    else r.attached := by
  rw [move, dispatchTransition_frame]
  rfl

theorem stops_move : (r.move recording machine event detail).stops =
    r.stops ++ (spawned (r.transition machine event detail)).map fun _ =>
      { session := if (r.transition machine event detail).isSessionStart then r.sessionsPosted + 1
          else r.sessionsPosted } := by
  rw [move, dispatchTransition_frame]
  rfl

theorem move_of_not_start (h : (r.transition machine event detail).isSessionStart = false) :
    (r.move recording machine event detail).recorder = r.recorder ∧
      (r.move recording machine event detail).recordingId = r.recordingId ∧
      (r.move recording machine event detail).sessionStart = r.sessionStart ∧
      (r.move recording machine event detail).starts = r.starts ∧
      (r.move recording machine event detail).sessionsPosted = r.sessionsPosted :=
  dispatchTransition_of_not_start recording { r with machine } _ h

theorem sessionStart_move : (r.move recording machine event detail).sessionStart =
    (r.resolveStart (r.transition machine event detail)).sessionStart := by
  rw [move, dispatchTransition_frame]
  show (({ r with machine } : Runner).resolveStart (r.transition machine event detail)).sessionStart = _
  rw [resolveStart_machine]

theorem starts_move : (r.move recording machine event detail).starts =
    (r.resolveStart (r.transition machine event detail)).starts := by
  rw [move, dispatchTransition_frame]
  show (({ r with machine } : Runner).resolveStart (r.transition machine event detail)).starts = _
  rw [resolveStart_machine]

theorem recordingId_move : (r.move recording machine event detail).recordingId =
    (r.resolveStart (r.transition machine event detail)).recordingId := by
  rw [move, dispatchTransition_frame]
  show (({ r with machine } : Runner).resolveStart (r.transition machine event detail)).recordingId = _
  rw [resolveStart_machine]

end Runner

end ReactorRuntime.Runtime
