import ReactorRuntime.Runtime.Equiv.Occupancy

/-!
# The recording of a streamed session

Each end of a session queues a `stop()` of the recorder, and the session is unwound without waiting
for it.  `Recorded` is what the steps preserve in a run that begins a streamed session only when
every `stop()` before it has returned (`Settled`): the recorder is then stopped as the session
begins, and nothing that is still running can stop it.

Main results: `recorded`, `start_not_recorded`.
-/

namespace ReactorRuntime.Runtime

open Recording

namespace Runner

variable {recording : Bool} {r r' : Runner}

def armed (r : Runner) : Recorder where
  started := true
  disabled := false
  sessionId := some r.recordingId
  session := r.sessionsPosted

/-- The recorder belongs to the session that runs, and a `stop()` that has not returned to the
session that armed the recorder last, or a later one. -/
structure Recorded (r : Runner) : Prop where
  pending : r.recorder.started → r.machine.state.isRunning ∨ ∃ stop ∈ r.stops, stop.phase ≠ .done
  live : r.machine.state.isRunning → r.sessionStart.generation = .streamed →
    r.recorder = r.armed ∧ ∀ stop ∈ r.stops, stop.phase = .done
  late : ∀ stop ∈ r.stops, stop.phase ≠ .done → r.recorder.session ≤ stop.session
  posted : r.recorder.session ≤ r.sessionsPosted

theorem recorded_init : Recorded {} where
  pending h := absurd h (by decide)
  live h := absurd h (by decide)
  late _ hstop := absurd hstop List.not_mem_nil
  posted := le_rfl

namespace Recorded

theorem of_eq (h : Recorded r)
    (hrunning : r'.machine.state.isRunning = r.machine.state.isRunning)
    (hrecorder : r'.recorder = r.recorder) (hstops : r'.stops = r.stops)
    (hsessionStart : r'.sessionStart = r.sessionStart) (hrecordingId : r'.recordingId = r.recordingId)
    (hsessionsPosted : r'.sessionsPosted = r.sessionsPosted) : Recorded r' where
  pending := by rw [hrecorder, hrunning, hstops]; exact h.pending
  live := by
    rw [hrecorder, hrunning, hstops, hsessionStart, armed, hrecordingId, hsessionsPosted]
    exact h.live
  late := by rw [hrecorder, hstops]; exact h.late
  posted := by rw [hrecorder, hsessionsPosted]; exact h.posted

theorem move (h : Recorded r) {machine : SessionStateMachine} {event : SessionEvent}
    {detail : Detail} (hstart : r.machine.state = .ready → machine.state ≠ .waiting)
    (hrun : machine.state.isRunning → r.machine.state.isRunning)
    (hend : r.machine.state.isRunning → machine.state.isRunning = false →
      machine.state = .closing ∨ machine.state = .terminated ∧ event = .eviction) :
    Recorded (r.move recording machine event detail) := by
  have hstart : (r.transition machine event detail).isSessionStart = false := by
    rw [Transition.isSessionStart, decide_eq_false_iff_not]
    exact fun h => hstart h.1 h.2
  obtain ⟨hrecorder, hrecordingId, hsessionStart, -, hposted⟩ :=
    move_of_not_start recording r machine event detail hstart
  have hstops := stops_move recording r machine event detail
  rw [hstart, if_neg (by decide)] at hstops
  constructor
  case pending =>
    rw [hrecorder, machine_move, hstops]
    intro hstarted
    rcases h.pending hstarted with hrunning | ⟨stop, hstop, hphase⟩
    · cases hmachine : machine.state.isRunning with
      | true => exact .inl rfl
      | false =>
        -- the session ends here, and its own `stop()` is queued
        have hspawned : spawned (r.transition machine event detail) ≠ [] := by
          apply spawned_ne_nil _ (hend hrunning hmachine)
          intro heq
          rw [← show r.machine.state = machine.state from heq, hrunning] at hmachine
          cases hmachine
        obtain ⟨task, htask⟩ := List.exists_mem_of_ne_nil _ hspawned
        refine .inr ⟨{ session := r.sessionsPosted }, ?_, StopPhase.noConfusion⟩
        exact List.mem_append_right _ (List.mem_map.mpr ⟨task, htask, rfl⟩)
    · exact .inr ⟨stop, List.mem_append_left _ hstop, hphase⟩
  case live =>
    rw [hrecorder, machine_move, hsessionStart, armed, hrecordingId, hposted]
    intro hmachine hstreamed
    obtain ⟨-, -, hclosing, hterminated⟩ := Occupancy.ne_of_isRunning hmachine
    have hspawned : spawned (r.transition machine event detail) = [] :=
      spawned_eq_nil hclosing hterminated
    rw [hstops, hspawned, List.map_nil, List.append_nil]
    exact h.live (hrun hmachine) hstreamed
  case late =>
    rw [hrecorder, hstops]
    intro stop hstop hphase
    rcases List.mem_append.mp hstop with hstop | hstop
    · exact h.late stop hstop hphase
    · obtain ⟨task, -, rfl⟩ := List.mem_map.mp hstop
      exact h.posted
  case posted =>
    rw [hrecorder, hposted]
    exact h.posted

theorem move_running (h : Recorded r) {machine : SessionStateMachine} {event : SessionEvent}
    {detail : Detail} (hrunning : r.machine.state.isRunning) (hmachine : machine.state.isRunning) :
    Recorded (r.move recording machine event detail) := by
  apply h.move
  · exact fun hready => absurd hready (Occupancy.ne_of_isRunning hrunning).2.1
  · exact fun _ => hrunning
  · intro _ hstopped
    rw [hmachine] at hstopped
    cases hstopped

theorem event (h : Recorded r) {event : SessionEvent} {machine : SessionStateMachine}
    (detail : Detail) (hconnection : event.isConnection = false) (hstart : event ≠ .startSession)
    (hcleanup : event ≠ .cleanupComplete) (hsend : r.machine.send event = some machine) :
    Recorded (r.move recording machine event detail) := by
  rcases SessionStateMachine.send_eq_some_cases hconnection hstart hcleanup hsend with
    rfl | ⟨hcreated, hmachine⟩ | ⟨hrunning, rfl⟩ | rfl
  · -- a fact of the journal
    apply h.move
    · intro hready
      rw [hready]
      decide
    · exact id
    · intro hrunning hstopped
      rw [hrunning] at hstopped
      cases hstopped
  · -- the model loads
    apply h.move
    · rw [hcreated]
      exact SessionState.noConfusion
    · rcases hmachine with rfl | rfl <;> exact fun h => absurd h (by decide)
    · rw [hcreated]
      exact fun h => absurd h (by decide)
  · -- the session ends
    apply h.move
    · exact fun _ => SessionState.noConfusion
    · exact fun h => absurd h (by decide)
    · exact fun _ _ => .inl rfl
  · apply h.move
    · exact fun _ => SessionState.noConfusion
    · exact fun h => absurd h (by decide)
    · exact fun hrunning _ =>
        .inr ⟨rfl, SessionStateMachine.eq_eviction_of_send_terminated hsend hrunning rfl⟩

/-! ### A connection -/

theorem register (h : Recorded r) (conn : Connection) (system occupies : Bool)
    (hrunning : r.machine.state.isRunning) :
    Recorded (r.register recording conn system occupies) := by
  by_cases hmem : conn.id ∈ r.connections.byId
  · rw [register_of_mem hmem]
    exact h.of_eq rfl rfl rfl rfl rfl rfl
  · rw [register_of_not_mem hmem hrunning]
    have hregistry (connections : ConnectionManager) : Recorded { r with connections } :=
      h.of_eq rfl rfl rfl rfl rfl rfl
    refine Recorded.move_running (hregistry _) hrunning ?_
    show (opened r.machine occupies).state.isRunning
    unfold opened
    split_ifs
    · rfl
    · exact hrunning

theorem drop (h : Recorded r) (hr : Occupancy r) (cid : ConnId) :
    Recorded (r.drop recording cid) := by
  by_cases hmem : cid ∈ r.connections.byId
  swap
  · rw [drop_of_not_mem hmem]
    exact h
  obtain ⟨detail, -, hdrop⟩ := drop_of_mem recording hr.consistent hmem
  have hregistry (connections : ConnectionManager) : Recorded { r with connections } :=
    h.of_eq rfl rfl rfl rfl rfl rfl
  rw [hdrop]
  split_ifs with htold
  · have hrunning : r.machine.state.isRunning := by
      rcases htold with hstreaming | hrunning
      · rw [hstreaming]
        rfl
      · exact hrunning.1
    refine Recorded.move_running (hregistry _) hrunning ?_
    show (closed r.machine _).state.isRunning
    unfold closed
    split_ifs
    · rfl
    · rfl
    · exact hrunning
  · exact hregistry _

theorem cleanup (h : Recorded r) {i : ℕ} {machine : SessionStateMachine} (reason : EndReason)
    (hsend : r.machine.send .cleanupComplete = some machine) :
    Recorded { r.move recording machine .cleanupComplete (.ending reason "") with
      teardowns := r.teardowns.eraseIdx i } := by
  obtain ⟨hclosing, rfl⟩ := SessionStateMachine.send_cleanup_eq_some hsend
  have hmove : Recorded (r.move recording { state := .ready } .cleanupComplete
      (.ending reason "")) := by
    apply h.move
    · exact fun _ => SessionState.noConfusion
    · exact fun h => absurd h (by decide)
    · rw [hclosing]
      exact fun h => absurd h (by decide)
  exact hmove.of_eq rfl rfl rfl rfl rfl rfl

theorem act (h : Recorded r) (hr : Occupancy r) {cause : Cause} (hact : Act recording cause r r') : Recorded r' := by
  cases hact with
  | same hsame =>
    exact h.of_eq (by rw [hsame.machine]) hsame.recorder hsame.stops hsame.sessionStart
      hsame.recordingId hsame.sessionsPosted
  | event detail hconnection hstart hcleanup hsend =>
    exact h.event detail hconnection hstart hcleanup hsend
  | register conn system occupies hrunning => exact h.register conn system occupies hrunning
  | drop cid => exact h.drop hr cid
  | clear hi _ => exact h.of_eq rfl rfl rfl rfl rfl rfl
  | cleanup reason _ _ _ hsend => exact h.cleanup reason hsend
  | discard => exact h.of_eq rfl rfl rfl rfl rfl rfl

/-! ### A start, and a `stop()` -/

theorem started (h : Recorded r) (hready : r.machine.state = .ready) {params : SessionParams}
    {drawn : Drawn} (hsettled : params.start.generation = .streamed →
      (∀ stop ∈ r.stops, stop.phase = .done) ∧ drawn.directory = .made) :
    Recorded (r.started true params drawn) := by
  obtain ⟨hsessionStart, hrecordingId, -, hposted, hstops⟩ :=
    started_fields true hready params drawn
  have hrecorder := recorder_started true hready params drawn
  have hrunning : (r.started true params drawn).machine.state.isRunning := by
    rw [Runner.started, machine_move]
    rfl
  by_cases hstreamed : params.start.generation = .streamed
  · obtain ⟨hdone, hmade⟩ := hsettled hstreamed
    -- the recorder of the session before is stopped
    have hstopped : r.recorder.started = false := by
      rw [Bool.eq_false_iff]
      intro hstarted
      rcases h.pending hstarted with hrun | ⟨stop, hstop, hphase⟩
      · rw [hready] at hrun
        cases hrun
      · exact hphase (hdone stop hstop)
    have harmed : (r.started true params drawn).recorder = (r.started true params drawn).armed := by
      rw [hrecorder, if_pos hstreamed, hmade, armed, hrecordingId, hposted]
      unfold Recorder.start
      rw [hstopped, if_neg (by decide)]
    constructor
    case pending => exact fun _ => .inl hrunning
    case live =>
      intro _ _
      rw [hstops]
      exact ⟨harmed, hdone⟩
    case late =>
      rw [hstops]
      exact fun stop hstop hphase => absurd (hdone stop hstop) hphase
    case posted =>
      rw [harmed]
      exact le_rfl
  · rw [if_neg hstreamed] at hrecorder
    constructor
    case pending => exact fun _ => .inl hrunning
    case live =>
      rw [hsessionStart]
      exact fun _ h => absurd h hstreamed
    case late =>
      rw [hrecorder, hstops]
      exact h.late
    case posted =>
      rw [hrecorder, hposted]
      exact h.posted.trans (Nat.le_succ _)

theorem stopRecorder (h : Recorded r) {i : ℕ} {stop : Stop} (hi : r.stops[i]? = some stop) :
    Recorded { (r.stopRecorder stop).1 with
      stops := (r.stopRecorder stop).1.stops.set i (r.stopRecorder stop).2 } := by
  have hmem := List.mem_of_getElem? hi
  obtain ⟨hlt, hget⟩ := List.getElem?_eq_some_iff.mp hi
  by_cases hphase : stop.phase = .done
  · have hsame : r.stopRecorder stop = (r, stop) := by
      rw [Runner.stopRecorder, hphase]
      simp [StopPhase.step, ← hphase]
    rw [hsame]
    dsimp only
    rw [← hget, List.set_getElem_self]
    exact h
  · have hsession := stop.phase.session_step r.recorder
    constructor
    case pending =>
      intro hstarted
      refine .inr ⟨(r.stopRecorder stop).2, List.mem_set hlt _, ?_⟩
      exact stop.phase.step_ne_done hphase hstarted
    case live =>
      intro hrunning hstreamed
      exact absurd ((h.live hrunning hstreamed).2 stop hmem) hphase
    case late =>
      intro other hother hnot
      show (stop.phase.step r.recorder).1.session ≤ other.session
      rw [hsession]
      rcases List.mem_or_eq_of_mem_set hother with hother | rfl
      · exact h.late other hother hnot
      · exact h.late stop hmem hphase
    case posted =>
      show (stop.phase.step r.recorder).1.session ≤ r.sessionsPosted
      rw [hsession]
      exact h.posted

end Recorded

/-- A streamed session starts when every `stop()` before it has returned, and its directories can be
made. -/
def Settled (r : Runner) : Label → Prop
  | .startSession params drawn =>
    r.machine.state = .ready → params.start.generation = .streamed →
      (∀ stop ∈ r.stops, stop.phase = .done) ∧ drawn.directory = .made
  | _ => True

instance (r : Runner) : (label : Label) → Decidable (Settled r label)
  | .startSession params drawn => inferInstanceAs (Decidable (r.machine.state = .ready →
      params.start.generation = .streamed →
        (∀ stop ∈ r.stops, stop.phase = .done) ∧ drawn.directory = .made))
  | .initializing | .initialized _ | .offerAdmitted _ | .connectionOpened _ | .connectionClosed _
  | .connectionAnswered _ | .startingInput _ _ | .recordStep _ _ | .handlerFailed _ _ _ _
  | .stopSession _ _ | .timeout | .evicted | .journal _ | .teardown _ | .stopRecorder _ =>
    .isTrue trivial

theorem recorded_next {label : Label} (h : Occupancy r ∧ Recorded r) (hsettled : Settled r label)
    (hnext : next true r label = some r') : Occupancy r' ∧ Recorded r' := by
  have hoccupancy : Occupancy r' := isInvariant_occupancy.step r label r' h.1 hnext
  refine next_preserves (I := fun r => Occupancy r ∧ Recorded r) h h.1.offered hnext
    (fun r r' h hact => ⟨h.1.act hact, h.2.act h.1 hact⟩) ?_ ?_
  · rintro params drawn rfl hready
    exact ⟨h.1.started hready params drawn, h.2.started hready (hsettled hready)⟩
  · rintro stop rfl
    simp only [next] at hnext
    split at hnext
    · cases hnext
    next t hi =>
      cases hnext
      exact ⟨hoccupancy, h.2.stopRecorder hi⟩

/-- With recording on, in a run that starts streamed sessions only when they are settled, the
recorder is started under the recording id of the streamed session that runs, and a `stop()` made
for the end of an earlier session leaves it as it is. -/
theorem recorded {labels : List Label} (hall : (runner true).AllSteps Settled labels)
    (hrun : (runner true).run labels = some r) :
    (r.machine.state.isRunning → r.sessionStart.generation = .streamed → r.recorder = r.armed) ∧
      ∀ stop ∈ r.stops, stop.session < r.recorder.session →
        (stop.phase.step r.recorder).1 = r.recorder := by
  obtain ⟨-, h⟩ := hall.invariant (I := fun r => Occupancy r ∧ Recorded r)
    ⟨occupancy_init, recorded_init⟩ (fun _ _ _ h hsettled hnext => recorded_next h hsettled hnext)
    hrun
  refine ⟨fun hrunning hstreamed => (h.live hrunning hstreamed).1, ?_⟩
  intro stop hstop hearlier
  have hphase : stop.phase = .done := by
    by_contra hphase
    have := h.late stop hstop hphase
    omega
  rw [hphase]
  rfl

def endedRun (start : SessionStart) : List Label :=
  [.initialized true, .startSession { sessionId := "first", start } { uuid := "" },
    .stopSession .stopped "", .teardown 0, .teardown 0]

def second : Label := .startSession { sessionId := "second" } { uuid := "" }

/-- The recorder's `stop()` returns before the next session starts. -/
def settledRun : List Label :=
  endedRun {} ++ [.stopRecorder 0, .stopRecorder 0, .stopRecorder 0, second]

theorem isSome_settledRun : ((runner true).run settledRun).isSome := rfl

theorem recorded_second :
    let r := ((runner true).run settledRun).get isSome_settledRun
    r.armed.sessionId = some "second" ∧ r.recorder = r.armed :=
  ⟨by decide +kernel, (recorded (by decide +kernel) (Option.some_get isSome_settledRun).symm).1
    (by decide +kernel) (by decide +kernel)⟩

def DirectoriesMade : Label → Prop
  | .startSession _ drawn => drawn.directory = .made
  | _ => True

/-- A session that starts before the `stop()` of the last one has returned is not recorded, and the
`stop()` of a stepped session stops the recording of the next. -/
theorem start_not_recorded :
    (¬ ∀ labels r, (∀ label ∈ labels, DirectoriesMade label) →
      (runner true).run labels = some r → r.machine.state.isRunning →
        r.sessionStart.generation = .streamed → r.recorder = r.armed) ∧
    ¬ ∀ labels r, (∀ label ∈ labels, DirectoriesMade label) →
      (runner true).run labels = some r → ∀ stop ∈ r.stops, stop.session < r.recorder.session →
        (stop.phase.step r.recorder).1 = r.recorder := by
  constructor
  · have hrun : ((runner true).run (endedRun {} ++ [second])).any fun r =>
        r.machine.state.isRunning ∧ r.sessionStart.generation = .streamed ∧
          r.recorder ≠ r.armed := by decide +kernel
    obtain ⟨r, hr, hlost⟩ := (Option.any_eq_true ..).mp hrun
    obtain ⟨hrunning, hstreamed, hne⟩ := of_decide_eq_true hlost
    intro h
    exact hne (h _ r (by simp [endedRun, second, DirectoriesMade]) hr hrunning hstreamed)
  · have hrun : ((runner true).run
        (endedRun { generation := .stepped } ++ [second, .stopRecorder 0])).any fun r =>
        ∃ stop ∈ r.stops, stop.session < r.recorder.session ∧
          (stop.phase.step r.recorder).1 ≠ r.recorder := by decide +kernel
    obtain ⟨r, hr, hlost⟩ := (Option.any_eq_true ..).mp hrun
    obtain ⟨stop, hstop, hearlier, hne⟩ := of_decide_eq_true hlost
    intro h
    exact hne (h _ r (by simp [endedRun, second, DirectoriesMade]) hr stop hstop hearlier)

end Runner

end ReactorRuntime.Runtime
