import ReactorRuntime.Runtime.Equiv.ConnectionManager
import ReactorRuntime.Runtime.Equiv.Paths

/-!
# The actions a step of the runner is made of

`Act` is one action on what the runner shares between its parts: an event the machine accepts that
is neither a start nor a connection's, the registration or the loss of a connection, an action of a
teardown, or something no other part sees.  Every step of the runner but the start of a session is a
sequence of such actions (`next_acts`), and a start is its move followed by one
(`startSession_acts`).  An invariant of the actions is therefore an invariant of the steps.
-/

namespace ReactorRuntime.Runtime

/-- What a step of the runner comes from, as far as the actions depend on it. -/
inductive Cause where
  | timer
  | teardown
  | other

/-- What a step of the runner comes from. -/
def Label.cause : Label → Cause
  | .timeout => .timer
  | .teardown _ => .teardown
  | _ => .other

namespace Runner

variable {recording : Bool} {cause : Cause} {r r' : Runner}

/-! ### Actions -/

/-- No offer is admitted before the model is loaded. -/
def Offered (r : Runner) : Prop := r.machine.state = .created → r.offers = []

/-- The parts of the runner that the actions are about are the same. -/
structure Same (r r' : Runner) : Prop where
  machine : r'.machine = r.machine
  connections : r'.connections = r.connections
  events : r'.events = r.events
  teardowns : r'.teardowns = r.teardowns
  stops : r'.stops = r.stops
  recorder : r'.recorder = r.recorder
  recordingId : r'.recordingId = r.recordingId
  sessionStart : r'.sessionStart = r.sessionStart
  sessionsPosted : r'.sessionsPosted = r.sessionsPosted
  attached : r'.attached = r.attached
  posted : r'.posted.filterMap Path.mark = r.posted.filterMap Path.mark
  offered : r.Offered → r'.Offered

/-- One action. -/
inductive Act (recording : Bool) (cause : Cause) : Runner → Runner → Prop where
  | same {r r' : Runner} (h : Same r r') : Act recording cause r r'
  | event {r : Runner} {event : SessionEvent} {machine : SessionStateMachine} (detail : Detail)
    (hconnection : event.isConnection = false) (hstart : event ≠ .startSession)
    (hcleanup : event ≠ .cleanupComplete) (hsend : r.machine.send event = some machine)
    (htimer : event = .timeout → cause = .timer) :
    Act recording cause r (r.move recording machine event detail)
  | register {r : Runner} (conn : Connection) (system occupies : Bool)
    (hrunning : r.machine.state.isRunning) :
    Act recording cause r (r.register recording conn system occupies)
  | drop {r : Runner} (cid : ConnId) : Act recording cause r (r.drop recording cid)
  | clear {r : Runner} {i : ℕ} {task : Teardown} (hi : r.teardowns[i]? = some task)
    (hcleared : task.cleared = false) (hcause : cause = .teardown) :
    Act recording cause r { r with
      connections := r.connections.clear
      teardowns := r.teardowns.set i { task with cleared := true } }
  | cleanup {r : Runner} {i : ℕ} {task : Teardown} {machine : SessionStateMachine}
    (reason : EndReason) (hi : r.teardowns[i]? = some task) (hcleared : task.cleared = true)
    (hreason : task.cleanup = some reason)
    (hsend : r.machine.send .cleanupComplete = some machine) (hcause : cause = .teardown) :
    Act recording cause r { r.move recording machine .cleanupComplete (.ending reason "") with
      teardowns := r.teardowns.eraseIdx i }
  | discard {r : Runner} {i : ℕ} {task : Teardown} (hi : r.teardowns[i]? = some task)
    (hidle : r.machine.state = .closing → task.cleanup = none) (hcause : cause = .teardown) :
    Act recording cause r { r with teardowns := r.teardowns.eraseIdx i }

/-- A sequence of actions. -/
abbrev Acts (recording : Bool) (cause : Cause) : Runner → Runner → Prop :=
  Relation.ReflTransGen (Act recording cause)

theorem Same.acts (h : Same r r') : Acts recording cause r r' := .single (.same h)

theorem acts_send (r : Runner) (event : SessionEvent) (detail : Detail)
    (hconnection : event.isConnection = false) (hstart : event ≠ .startSession)
    (hcleanup : event ≠ .cleanupComplete) (htimer : event = .timeout → cause = .timer) :
    Acts recording cause r (r.send recording event detail) := by
  unfold send
  split
  · exact .refl
  next machine hsend => exact .single (.event detail hconnection hstart hcleanup hsend htimer)

theorem acts_drop (r : Runner) (cid : ConnId) : Acts recording cause r (r.drop recording cid) :=
  .single (.drop cid)

/-! ### Registering and losing a connection -/

def opened (m : SessionStateMachine) (occupies : Bool) : SessionStateMachine :=
  if occupies then { state := .streaming, live := m.live + 1 } else m

/-- The machine as the loss of a connection leaves it. -/
def closed (m : SessionStateMachine) (occupies : Bool) : SessionStateMachine :=
  if occupies then { state := if m.live ≤ 1 then .orphaned else .streaming, live := m.live - 1 }
  else m

theorem register_of_mem {conn : Connection} (h : conn.id ∈ r.connections.byId)
    (system occupies : Bool) : r.register recording conn system occupies =
      { r with connections := r.connections.replace conn } := by
  rw [register, if_pos h]

/-- A session that runs takes the opening of a connection. -/
theorem register_of_not_mem {conn : Connection} (h : conn.id ∉ r.connections.byId)
    (hrunning : r.machine.state.isRunning) (system occupies : Bool) :
    r.register recording conn system occupies =
      { r with connections :=
          r.connections.add conn (connectionDetail conn system) occupies }.move recording
        (opened r.machine occupies) .connectionOpened
        (.connection (connectionDetail conn system)) := by
  rw [register, if_neg h]
  cases occupies with
  | true =>
    simp only [if_true, send]
    rw [SessionStateMachine.send_opened hrunning]
    rfl
  | false =>
    simp only [Bool.false_eq_true, if_false, sendWithoutOccupancy]
    rw [SessionStateMachine.sendWithoutOccupancy, if_pos]
    · rfl
    · rw [isConnectable_eq_isRunning]
      exact hrunning

theorem drop_of_not_mem {cid : ConnId} (h : cid ∉ r.connections.byId) :
    r.drop recording cid = r := by
  rw [drop, if_pos h]

/-- The machine is told of a loss while it streams, and of one that does not count while it runs;
elsewhere only the registry changes. -/
theorem drop_of_mem (recording : Bool) {cid : ConnId} (hm : r.connections.Consistent)
    (h : cid ∈ r.connections.byId) :
    ∃ detail, r.connections.details.lookup cid = some detail ∧
      r.drop recording cid =
        if r.machine.state = .streaming ∨
            r.machine.state.isRunning ∧ cid ∈ r.connections.unoccupying then
          { r with connections := r.connections.remove cid }.move recording
            (closed r.machine (cid ∉ r.connections.unoccupying)) .connectionClosed
            (.connection detail)
        else { r with connections := r.connections.remove cid } := by
  obtain ⟨detail, hdetail⟩ :=
    Option.isSome_iff_exists.mp (AList.lookup_isSome.mpr ((hm.details cid).mpr h))
  refine ⟨detail, hdetail, ?_⟩
  rw [drop, if_neg (not_not.mpr h), hdetail]
  dsimp only
  by_cases hunoccupying : cid ∈ r.connections.unoccupying
  · simp only [hunoccupying, if_true, not_true_eq_false, decide_false, and_true]
    unfold sendWithoutOccupancy SessionStateMachine.sendWithoutOccupancy
    rw [isConnectable_eq_isRunning]
    by_cases hrunning : r.machine.state.isRunning = true
    · rw [if_pos hrunning, if_pos (Or.inr hrunning)]
      rfl
    · have hstreaming : ¬ (r.machine.state = .streaming ∨ r.machine.state.isRunning = true) := by
        rintro (hstate | hrun)
        · rw [hstate] at hrunning
          exact hrunning rfl
        · exact hrunning hrun
      rw [if_neg hrunning, if_neg hstreaming]
  · simp only [hunoccupying, if_false, not_false_eq_true,
      decide_true, and_false, or_false]
    unfold send
    by_cases hstreaming : r.machine.state = .streaming
    · rw [if_pos hstreaming, SessionStateMachine.send_closed hstreaming]
      rfl
    · have hnone : r.machine.send .connectionClosed = none := by
        rw [SessionStateMachine.send, SessionStateMachine.resolve, if_pos hstreaming]
        rfl
      rw [if_neg hstreaming, hnone]

/-! ### The parts of a step -/

theorem acts_connectionOpened (r : Runner) (conn : Connection)
    (hcreated : r.machine.state ≠ .created) :
    Acts recording cause r (r.connectionOpened recording conn) := by
  have hsame : Same r { r with offerEpochs := r.offerEpochs.consume conn.id } := by
    constructor <;> first | rfl | exact id
  unfold connectionOpened
  dsimp only
  split_ifs with hstale
  · exact hsame.acts
  · refine hsame.acts.tail (.register conn false true ?_)
    push Not at hstale
    have hfresh := hstale.1
    show r.machine.state.isRunning = true
    cases hstate : r.machine.state <;> simp_all [SessionState.isStale, SessionState.isRunning]

theorem acts_finishStartingInput (r : Runner) (task : StartingTask) :
    Acts recording cause r (r.finishStartingInput recording task) := by
  have hset (r : Runner) : Acts recording cause r (if r.startingInputDone.number = task.done then
      { r with startingInputDone := { r.startingInputDone with isSet := true } } else r) := by
    split_ifs
    · exact Same.acts (by constructor <;> first | rfl | exact id)
    · exact .refl
  have hposted (r : Runner) :
      Acts recording cause r { r with posted := r.posted ++ [.startingInputApplied] } := by
    have hsame : Same r { r with posted := r.posted ++ [.startingInputApplied] } := by
      constructor
      case posted => exact (List.filterMap_append ..).trans (List.append_nil _)
      case offered => exact id
      all_goals rfl
    exact hsame.acts
  unfold finishStartingInput
  by_cases happlies : r.applies task = true
  · rw [if_pos happlies]
    by_cases hruns : r.runsUnattended = true
    · rw [if_pos hruns]
      exact (hposted r).trans (hset _)
    · rw [if_neg hruns]
      exact ((acts_drop r _).trans (hposted _)).trans (hset _)
  · rw [if_neg happlies]
    exact hset r

theorem acts_applyStartingInput (r : Runner) (task : StartingTask) (refusal : Option String) :
    Acts recording cause r (r.applyStartingInput recording task refusal).1 := by
  have herror : Acts recording cause r (r.send recording .error .fact) :=
    acts_send r .error .fact rfl (by decide) (by decide) nofun
  unfold applyStartingInput
  split
  · exact acts_finishStartingInput r task
  · split_ifs
    · exact acts_finishStartingInput r task
    · exact Same.acts (by constructor <;> first | rfl | exact id)
  · cases refusal with
    | none => exact acts_send r .command .fact rfl (by decide) (by decide) nofun
    | some refusal =>
      dsimp only
      split_ifs
      · refine herror.trans (.trans ?_ (acts_finishStartingInput _ task))
        exact acts_send _ .stopSession _ rfl (by decide) (by decide) nofun
      · exact herror

theorem acts_step (r : Runner) (number : ℕ) (detail : Detail) :
    Acts recording cause r
      ({ r with stepsCompleted := number }.send recording .stepCompleted detail) := by
  have hsame : Same r { r with stepsCompleted := number } := by
    constructor <;> first | rfl | exact id
  exact hsame.acts.trans (acts_send _ .stepCompleted detail rfl (by decide) (by decide) nofun)

theorem acts_recordStep (r : Runner) (step : CompletedStep) (saved : Bool) :
    Acts recording cause r (r.recordStep recording step saved) := by
  unfold recordStep
  split_ifs
  · exact .refl
  · exact .refl
  · dsimp only
    split_ifs
    · exact (acts_step r _ _).trans (acts_send _ .stopSession _ rfl (by decide) (by decide) nofun)
    · exact acts_step r _ _

theorem acts_failRemainingSteps (r : Runner) (limit : ℕ) (error : String) (saved : Bool) :
    Acts recording cause r (r.failRemainingSteps recording limit error saved) := by
  have hsteps (numbers : List ℕ) (r : Runner) :
      Acts recording cause r (numbers.foldl (failStep recording saved error) r) := by
    induction numbers generalizing r with
    | nil => exact .refl
    | cons number numbers ih => exact (acts_step r number _).trans (ih _)
  unfold failRemainingSteps
  refine .trans (.trans ?_ (hsteps _ _))
    (acts_send _ .stopSession _ rfl (by decide) (by decide) nofun)
  exact Same.acts (by constructor <;> first | rfl | exact id)

theorem acts_emitHandlerFailure (r : Runner) (connId : ConnId) (requestId : ℕ) (message : String)
    (saved : Bool) :
    Acts recording cause r (r.emitHandlerFailure recording connId requestId message saved) := by
  have herror : Acts recording cause r (r.send recording .error .fact) :=
    acts_send r .error .fact rfl (by decide) (by decide) nofun
  unfold emitHandlerFailure
  dsimp only
  split
  · exact herror
  · split_ifs
    · exact herror.trans (acts_failRemainingSteps _ _ _ _)
    · exact herror

/-! ### Starting a session -/

def started (recording : Bool) (r : Runner) (params : SessionParams) (drawn : Drawn) : Runner :=
  r.move recording { state := .waiting } .startSession (.params params drawn)

theorem isSessionStart_started (hready : r.machine.state = .ready) (detail : Detail) :
    (r.transition { state := .waiting } .startSession detail).isSessionStart = true := by
  simp [Transition.isSessionStart, transition, hready]

theorem started_fields (recording : Bool) (hready : r.machine.state = .ready)
    (params : SessionParams) (drawn : Drawn) :
    (r.started recording params drawn).sessionStart = params.start ∧
      (r.started recording params drawn).recordingId = recordingIdFrom params drawn.uuid ∧
      (r.started recording params drawn).starts = r.starts ++ [params.start] ∧
      (r.started recording params drawn).sessionsPosted = r.sessionsPosted + 1 ∧
      (r.started recording params drawn).stops = r.stops := by
  have hstart := isSessionStart_started hready (.params params drawn)
  refine ⟨?_, ?_, ?_, ?_, ?_⟩
  · rw [started, sessionStart_move, resolveStart, hstart]
    rfl
  · rw [started, recordingId_move, resolveStart, hstart]
    rfl
  · rw [started, starts_move, resolveStart, hstart]
    rfl
  · rw [started, sessionsPosted_move, if_pos hstart]
  · rw [started, stops_move, spawned]
    simp [transition]

theorem recorder_started (recording : Bool) (hready : r.machine.state = .ready)
    (params : SessionParams) (drawn : Drawn) :
    (r.started recording params drawn).recorder =
      if params.start.generation = .streamed then
        r.recorder.start recording (recordingIdFrom params drawn.uuid) (r.sessionsPosted + 1)
          drawn.directory
      else r.recorder :=
  recorder_dispatchTransition_start recording { r with machine := { state := .waiting } } _
    (isSessionStart_started hready (.params params drawn)) rfl

theorem startSession_of_some (recording : Bool) {machine : SessionStateMachine}
    (hsend : r.machine.send .startSession = some machine) (params : SessionParams)
    (drawn : Drawn) : r.startSession recording params drawn =
      { r.started recording params drawn with
        offerEpochs := (r.started recording params drawn).offerEpochs.sessionStarted
      }.beginSessionInputs recording := by
  obtain ⟨-, rfl⟩ := SessionStateMachine.send_start_eq_some hsend
  have hmove : r.send recording .startSession (.params params drawn) =
      r.started recording params drawn := by
    unfold send
    rw [hsend]
    rfl
  unfold startSession
  simp only [hsend, Option.isNone_some, Bool.false_eq_true, if_false, hmove]

theorem startSession_eq (recording : Bool) (r : Runner) (params : SessionParams) (drawn : Drawn) :
    r.startSession recording params drawn = r ∨
      r.machine.state = .ready ∧ r.startSession recording params drawn =
        { r.started recording params drawn with
          offerEpochs := (r.started recording params drawn).offerEpochs.sessionStarted
        }.beginSessionInputs recording := by
  cases hsend : r.machine.send .startSession with
  | none =>
    rw [startSession, hsend]
    exact .inl rfl
  | some machine =>
    exact .inr ⟨(SessionStateMachine.send_start_eq_some hsend).1,
      startSession_of_some recording hsend params drawn⟩

/-- A start that is accepted is its move, and actions that follow it. -/
theorem startSession_acts (r : Runner) (params : SessionParams) (drawn : Drawn) :
    r.startSession recording params drawn = r ∨
      r.machine.state = .ready ∧
        Acts recording .other (r.started recording params drawn)
          (r.startSession recording params drawn) := by
  rcases startSession_eq recording r params drawn with hsame | ⟨hready, heq⟩
  · exact .inl hsame
  refine .inr ⟨hready, ?_⟩
  rw [heq]
  generalize hr : r.started recording params drawn = s
  have hstate : s.machine.state = .waiting := by
    rw [← hr, started, machine_move]
  unfold beginSessionInputs
  dsimp only
  -- the system client registers in a session that waits, and the rest is seen by no other part
  have hend (s : Runner) (number : ℕ) : Acts recording .other s (s.spawnStartingInput number) := by
    unfold spawnStartingInput
    split <;> exact Same.acts (by constructor <;> first | rfl | exact id)
  have hbegin (number : ℕ) : Acts recording .other s
      { s with
        offerEpochs := s.offerEpochs.sessionStarted
        startingInputDone := { number, isSet := false }
        stepsCompleted := 0
        startingRequestIds := ∅
        stepsFailed := false } := Same.acts (by constructor <;> first | rfl | exact id)
  split_ifs with hsystem
  · refine ((hbegin _).tail (.register SystemConnection true _ ?_)).trans (hend _ _)
    show s.machine.state.isRunning = true
    rw [hstate]
    rfl
  · exact (hbegin _).trans (hend _ _)

/-! ### A step -/

theorem acts_teardown {i : ℕ} {task : Teardown} (hi : r.teardowns[i]? = some task) :
    Acts recording .teardown r { (r.teardown recording task).1 with
      teardowns := match (r.teardown recording task).2 with
        | none => (r.teardown recording task).1.teardowns.eraseIdx i
        | some t => (r.teardown recording task).1.teardowns.set i t } := by
  unfold teardown
  split_ifs with hcleared
  · exact .single (.clear hi hcleared rfl)
  · have hset : task.cleared = true := by simpa using hcleared
    cases hreason : task.cleanup with
    | none => exact .single (.discard hi (fun _ => hreason) rfl)
    | some reason =>
      dsimp only
      unfold send
      cases hsend : r.machine.send .cleanupComplete with
      | none =>
        refine .single (.discard hi (fun hclosing => ?_) rfl)
        unfold SessionStateMachine.send SessionStateMachine.resolve at hsend
        rw [hclosing] at hsend
        cases hsend
      | some machine =>
        obtain ⟨-, hready⟩ := SessionStateMachine.send_cleanup_eq_some hsend
        have hspawned :
            spawned (r.transition machine .cleanupComplete (.ending reason "")) = [] := by
          simp [spawned, transition, hready]
        have hteardowns :
            (r.move recording machine .cleanupComplete (.ending reason "")).teardowns =
              r.teardowns := by
          rw [teardowns_move, hspawned, List.append_nil]
        dsimp only
        rw [hteardowns]
        exact .single (.cleanup reason hi hset hreason hsend rfl)

/-- Every step but a start is a sequence of actions. -/
theorem next_acts {label : Label} (hoffered : r.Offered) (hnext : next recording r label = some r')
    (hstart : ∀ params drawn, label ≠ .startSession params drawn)
    (hstop : ∀ stop, label ≠ .stopRecorder stop) : Acts recording label.cause r r' := by
  cases label with
  | initializing =>
    cases hnext
    exact acts_send r _ _ rfl (by decide) (by decide) nofun
  | initialized success =>
    cases hnext
    cases success <;> exact acts_send r _ _ rfl (by decide) (by decide) nofun
  | startSession params drawn => exact absurd rfl (hstart params drawn)
  | offerAdmitted connId =>
    simp only [next] at hnext
    split_ifs at hnext with hrunning
    cases hnext
    have hsame : Same r { r with
        offerEpochs := r.offerEpochs.stamp connId, offers := connId :: r.offers } := by
      constructor
      case offered =>
        intro _ hcreated
        rw [show r.machine.state = .created from hcreated] at hrunning
        cases hrunning
      all_goals rfl
    exact hsame.acts
  | connectionOpened conn =>
    simp only [next] at hnext
    split_ifs at hnext with hoffer
    cases hnext
    have hcreated : r.machine.state ≠ .created := by
      intro hcreated
      rw [hoffered hcreated] at hoffer
      exact absurd hoffer List.not_mem_nil
    have hsame : Same r { r with offers := r.offers.erase conn.id } := by
      constructor
      case offered => exact fun _ h => absurd h hcreated
      all_goals rfl
    exact hsame.acts.trans (acts_connectionOpened _ conn hcreated)
  | connectionClosed connId =>
    cases hnext
    exact acts_drop r connId
  | connectionAnswered connId =>
    cases hnext
    exact acts_send r _ _ rfl (by decide) (by decide) nofun
  | startingInput task refusal =>
    simp only [next] at hnext
    split at hnext
    · cases hnext
    · cases hnext
      exact (acts_applyStartingInput r _ refusal).trans
        (Same.acts (by constructor <;> first | rfl | exact id))
  | recordStep step saved =>
    simp only [next] at hnext
    split_ifs at hnext
    cases hnext
    exact acts_recordStep r step saved
  | handlerFailed connId requestId message saved =>
    cases hnext
    exact acts_emitHandlerFailure r connId requestId message saved
  | stopSession reason closeReason =>
    cases hnext
    exact acts_send r _ _ rfl (by decide) (by decide) nofun
  | timeout =>
    cases hnext
    exact acts_send r _ _ rfl (by decide) (by decide) fun _ => rfl
  | evicted =>
    cases hnext
    exact acts_send r _ _ rfl (by decide) (by decide) nofun
  | journal event =>
    simp only [next] at hnext
    split_ifs at hnext with hevent
    cases hnext
    obtain ⟨hjournal, -⟩ := hevent
    refine acts_send r event _ ?_ ?_ ?_ ?_
    · cases event <;> first | rfl | cases hjournal
    · rintro rfl
      cases hjournal
    · rintro rfl
      cases hjournal
    · rintro rfl
      cases hjournal
  | teardown task =>
    simp only [next] at hnext
    split at hnext
    · cases hnext
    next t hi =>
      cases hnext
      exact acts_teardown hi
  | stopRecorder stop => exact absurd rfl (hstop stop)

theorem next_preserves {I : Runner → Prop} {label : Label} (hr : I r) (hoffered : r.Offered)
    (hnext : next recording r label = some r')
    (hact : ∀ r r', I r → Act recording label.cause r r' → I r')
    (hstart : ∀ params drawn, label = .startSession params drawn → r.machine.state = .ready →
      I (r.started recording params drawn))
    (hstop : ∀ stop, label = .stopRecorder stop → I r') : I r' := by
  have hacts {r r' : Runner} (hr : I r) (h : Acts recording label.cause r r') : I r' := by
    induction h with
    | refl => exact hr
    | tail _ hlast ih => exact hact _ _ ih hlast
  by_cases hlabel : ∃ params drawn, label = .startSession params drawn
  · obtain ⟨params, drawn, rfl⟩ := hlabel
    cases hnext
    rcases startSession_acts r params drawn with hsame | ⟨hready, h⟩
    · rw [hsame]
      exact hr
    · exact hacts (hstart params drawn rfl hready) h
  · by_cases hlabel' : ∃ stop, label = .stopRecorder stop
    · obtain ⟨stop, hstop'⟩ := hlabel'
      exact hstop stop hstop'
    · push Not at hlabel hlabel'
      exact hacts hr (next_acts hoffered hnext hlabel hlabel')

theorem isInvariant_of_acts {I : Runner → Prop} (hinit : I {}) (hoffered : ∀ r, I r → r.Offered)
    (hact : ∀ cause r r', I r → Act recording cause r r' → I r')
    (hstart : ∀ r params drawn, I r → r.machine.state = .ready →
      I (r.started recording params drawn))
    (hstop : ∀ r stop r', I r → next recording r (.stopRecorder stop) = some r' → I r') :
    (runner recording).IsInvariant I where
  init := hinit
  step r _ r' hr hnext :=
    next_preserves hr (hoffered r hr) hnext (hact _)
      (fun params drawn _ => hstart r params drawn hr)
      (fun stop hlabel => hstop r stop r' hr (hlabel ▸ hnext))

end Runner

end ReactorRuntime.Runtime
