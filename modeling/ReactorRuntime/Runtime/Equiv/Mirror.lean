import ReactorRuntime.Runtime.Equiv.Occupancy

/-!
# The journal's view of the session

`EventStream.fold` counts the connections from the transitions alone.  A teardown empties the
registry without a transition for each connection, and a session that ended tells the machine of no
loss, so the connections that were registered as a session ended stay in the count of every later
one: where a session runs or can begin, the count is the number of registered connections and those
that were left behind (`Mirror`).

Main results: `snapshot_mirrors`, `snapshot_not_mirrors`.
-/

namespace ReactorRuntime.Runtime

namespace Runner

variable {recording : Bool} {r r' : Runner}

def isOpen (state : SessionState) : Bool := state.isRunning || state = .ready || state = .created

/-- What the journal's view says of the session. -/
structure Mirror (r : Runner) : Prop where
  state : r.machine.state ≠ .created → r.events.state = some r.machine.state
  opened : isOpen r.machine.state → r.events.connections = r.connections.count + r.attached
  closing : r.machine.state = .closing → r.events.connections = r.attached

theorem mirror_init : Mirror {} where
  state h := absurd rfl h
  opened _ := rfl
  closing h := absurd h (by decide)

theorem isOpen_of_isRunning {state : SessionState} (h : state.isRunning) : isOpen state := by
  rw [isOpen, h]
  rfl

namespace Mirror

theorem of_eq (h : Mirror r) (hmachine : r'.machine = r.machine)
    (hconnections : r'.connections = r.connections) (hevents : r'.events = r.events)
    (hattached : r'.attached = r.attached) : Mirror r' where
  state := by rw [hmachine, hevents]; exact h.state
  opened := by rw [hmachine, hevents, hconnections, hattached]; exact h.opened
  closing := by rw [hmachine, hevents, hattached]; exact h.closing

theorem of_open {machine : SessionStateMachine} {event : SessionEvent} {detail : Detail}
    (hopen : isOpen machine.state)
    (hcount : (r.events.emit (r.transition machine event detail)).connections =
      r.connections.count + r.attached) : Mirror (r.move recording machine event detail) := by
  have hclosing : machine.state ≠ .closing := by
    intro h
    rw [h] at hopen
    cases hopen
  have hattached : (r.move recording machine event detail).attached = r.attached := by
    rw [attached_move, closes, if_neg]
    rw [decide_eq_true_iff]
    exact fun h => hclosing h.2
  constructor
  case state =>
    intro _
    rw [events_move, machine_move]
    rfl
  case opened =>
    intro _
    rw [events_move, connections_move, hattached]
    exact hcount
  case closing =>
    intro h
    rw [machine_move] at h
    exact absurd h hclosing

theorem event (h : Mirror r) {event : SessionEvent} {machine : SessionStateMachine}
    (detail : Detail) (hconnection : event.isConnection = false) (hstart : event ≠ .startSession)
    (hcleanup : event ≠ .cleanupComplete) (hsend : r.machine.send event = some machine) :
    Mirror (r.move recording machine event detail) := by
  have hemit : (r.events.emit (r.transition machine event detail)).connections =
      r.events.connections := by
    rw [EventStream.connections_emit]
    show (if event = .connectionOpened then _ else if event = .connectionClosed then _ else _) = _
    rw [if_neg, if_neg]
    · rintro rfl
      cases hconnection
    · rintro rfl
      cases hconnection
  have hstate : (r.move recording machine event detail).events.state = some machine.state := by
    rw [events_move]
    rfl
  rcases SessionStateMachine.send_eq_some_cases hconnection hstart hcleanup hsend with
    rfl | ⟨hcreated, hmachine⟩ | ⟨hrunning, rfl⟩ | rfl
  · -- a fact of the journal
    have hattached : (r.move recording r.machine event detail).attached = r.attached := by
      rw [attached_move, closes, if_neg]
      rw [decide_eq_true_iff]
      exact fun h => h.1 rfl
    constructor
    case state => rw [machine_move]; exact fun _ => hstate
    case opened =>
      rw [machine_move, events_move, connections_move, hattached, hemit]
      exact h.opened
    case closing =>
      rw [machine_move, events_move, hattached, hemit]
      exact h.closing
  · -- the model loads
    apply of_open
    · rcases hmachine with rfl | rfl <;> rfl
    · rw [hemit]
      exact h.opened (by rw [hcreated]; rfl)
  · -- the session ends, with the connections that are registered
    have hattached : (r.move recording { state := .closing } event detail).attached =
        r.attached + r.connections.count := by
      rw [attached_move, closes, if_pos]
      rw [decide_eq_true_iff]
      exact ⟨(Occupancy.ne_of_isRunning hrunning).2.2.1, rfl⟩
    constructor
    case state => rw [machine_move]; exact fun _ => hstate
    case opened => rw [machine_move]; exact fun h => absurd h (by decide)
    case closing =>
      intro _
      rw [events_move, hattached, hemit, h.opened (isOpen_of_isRunning hrunning), Nat.add_comm]
  · constructor
    case state => rw [machine_move]; exact fun _ => hstate
    case opened => rw [machine_move]; exact fun h => absurd h (by decide)
    case closing => rw [machine_move]; exact fun h => absurd h (by decide)

/-! ### A connection -/

theorem register (h : Mirror r) (conn : Connection) (system occupies : Bool)
    (hrunning : r.machine.state.isRunning) :
    Mirror (r.register recording conn system occupies) := by
  have hopened := h.opened (isOpen_of_isRunning hrunning)
  by_cases hmem : conn.id ∈ r.connections.byId
  · rw [register_of_mem hmem]
    constructor
    case state => exact h.state
    case opened =>
      intro _
      show r.events.connections = (r.connections.replace conn).count + r.attached
      rw [ConnectionManager.count_replace hmem]
      exact hopened
    case closing => exact h.closing
  · rw [register_of_not_mem hmem hrunning]
    apply of_open
    · apply isOpen_of_isRunning
      show (Runner.opened r.machine occupies).state.isRunning
      unfold Runner.opened
      split_ifs
      · rfl
      · exact hrunning
    · rw [EventStream.connections_emit]
      show (if SessionEvent.connectionOpened = .connectionOpened then r.events.connections + 1
        else _) = (r.connections.add _ _ _).count + r.attached
      rw [if_pos rfl, ConnectionManager.count_add hmem, hopened]
      omega

theorem drop (h : Mirror r) (hr : Occupancy r) (cid : ConnId) :
    Mirror (r.drop recording cid) := by
  by_cases hmem : cid ∈ r.connections.byId
  swap
  · rw [drop_of_not_mem hmem]
    exact h
  obtain ⟨detail, -, hdrop⟩ := drop_of_mem recording hr.consistent hmem
  have hcount := ConnectionManager.count_remove hmem
  rw [hdrop]
  split_ifs with htold
  · have hrunning : r.machine.state.isRunning := by
      rcases htold with hstreaming | hrunning
      · rw [hstreaming]
        rfl
      · exact hrunning.1
    apply of_open
    · apply isOpen_of_isRunning
      show (closed r.machine _).state.isRunning
      unfold closed
      split_ifs
      · rfl
      · rfl
      · exact hrunning
    · rw [EventStream.connections_emit]
      show (if SessionEvent.connectionClosed = .connectionOpened then _
        else if SessionEvent.connectionClosed = .connectionClosed then r.events.connections - 1
        else _) = (r.connections.remove cid).count + r.attached
      rw [if_neg (by decide), if_pos rfl, h.opened (isOpen_of_isRunning hrunning)]
      omega
  · constructor
    case state => exact h.state
    case closing => exact h.closing
    case opened =>
      -- every loss in a session that runs is told, and without one no connection is registered
      intro hopen
      have hempty : r.connections.byId ≠ ∅ := by
        intro hempty
        rw [hempty] at hmem
        exact AList.notMem_empty cid hmem
      by_cases hrunning : r.machine.state.isRunning = true
      · exact absurd (hr.told hmem hrunning) htold
      · have hidle : r.machine.state = .created ∨ r.machine.state = .ready := by
          cases hstate : r.machine.state <;> simp_all [isOpen, SessionState.isRunning]
        exact absurd (hr.idle hidle) hempty

/-! ### A teardown -/

/-- The session is ready again with no connection registered. -/
theorem cleanup (h : Mirror r) (hr : Occupancy r) {i : ℕ} {task : Teardown}
    {machine : SessionStateMachine} (reason : EndReason) (hi : r.teardowns[i]? = some task)
    (hcleared : task.cleared = true) (hsend : r.machine.send .cleanupComplete = some machine) :
    Mirror { r.move recording machine .cleanupComplete (.ending reason "") with
      teardowns := r.teardowns.eraseIdx i } := by
  obtain ⟨hclosing, rfl⟩ := SessionStateMachine.send_cleanup_eq_some hsend
  have hempty := hr.cleared hclosing task (List.mem_of_getElem? hi) hcleared
  have hmove : Mirror (r.move recording { state := .ready } .cleanupComplete
      (.ending reason "")) := by
    apply of_open rfl
    show r.events.connections = _
    rw [h.closing hclosing, ConnectionManager.count_eq_zero_of_empty hempty, Nat.zero_add]
  exact hmove.of_eq rfl rfl rfl rfl

theorem clear (h : Mirror r) (hr : Occupancy r) {i : ℕ} {task : Teardown}
    (hi : r.teardowns[i]? = some task) :
    Mirror { r with
      connections := r.connections.clear
      teardowns := r.teardowns.set i { task with cleared := true } } where
  state := h.state
  opened := by
    -- no teardown is left where a session is open
    intro hopen
    have hopen : isOpen r.machine.state := hopen
    have hne : r.machine.state ≠ .terminated ∧ r.machine.state ≠ .closing := by
      constructor <;> intro hstate <;> rw [hstate] at hopen <;> cases hopen
    rw [hr.teardowns_eq_nil hne.1 hne.2] at hi
    cases hi
  closing := h.closing

/-! ### A run -/

theorem act (h : Mirror r) (hr : Occupancy r) {cause : Cause} (hact : Act recording cause r r') : Mirror r' := by
  cases hact with
  | same hsame => exact h.of_eq hsame.machine hsame.connections hsame.events hsame.attached
  | event detail hconnection hstart hcleanup hsend =>
    exact h.event detail hconnection hstart hcleanup hsend
  | register conn system occupies hrunning => exact h.register conn system occupies hrunning
  | drop cid => exact h.drop hr cid
  | clear hi _ => exact h.clear hr hi
  | cleanup reason hi hcleared _ hsend => exact h.cleanup hr reason hi hcleared hsend
  | discard => exact h.of_eq rfl rfl rfl rfl

end Mirror

theorem isInvariant_mirror :
    (runner recording).IsInvariant fun r => Occupancy r ∧ Mirror r := by
  refine isInvariant_of_acts ⟨occupancy_init, mirror_init⟩ (fun r h => h.1.offered)
    (fun _ r r' h hact => ⟨h.1.act hact, h.2.act h.1 hact⟩) ?_ ?_
  · intro r params drawn h hready
    refine ⟨h.1.started hready params drawn, Mirror.of_open rfl ?_⟩
    exact h.2.opened (by rw [hready]; rfl)
  · intro r stop r' h hnext
    simp only [next] at hnext
    split at hnext
    · cases hnext
    · cases hnext
      exact ⟨h.1.of_eq rfl rfl rfl h.1.offered, h.2.of_eq rfl rfl rfl rfl⟩

/-! ### What a step leaves behind -/

/-- A step that ends no session. -/
structure Kept (r r' : Runner) : Prop where
  attached : r'.attached = r.attached
  running : r.machine.state.isRunning → r'.machine.state.isRunning

/-- The connections a step leaves behind are those registered as it ends a session. -/
def Left (r r' : Runner) : Prop :=
  r'.attached = r.attached +
    if r.machine.state.isRunning ∧ r'.machine.state = .closing then r.connections.count else 0

theorem Kept.refl (r : Runner) : Kept r r := ⟨rfl, id⟩

theorem Kept.trans {r₁ r₂ r₃ : Runner} (h : Kept r₁ r₂) (h' : Kept r₂ r₃) : Kept r₁ r₃ :=
  ⟨h'.attached.trans h.attached, h'.running ∘ h.running⟩

theorem Kept.left (h : Kept r r') : Left r r' := by
  rw [Left, if_neg, h.attached, Nat.add_zero]
  rintro ⟨hrunning, hclosing⟩
  exact (Occupancy.ne_of_isRunning (h.running hrunning)).2.2.1 hclosing

/-- What follows a step without a move of the machine leaves nothing more. -/
theorem Left.trans {r₁ r₂ r₃ : Runner} (h : Left r₁ r₂) (hmachine : r₃.machine = r₂.machine)
    (hattached : r₃.attached = r₂.attached) : Left r₁ r₃ := by
  rw [Left, hmachine, hattached]
  exact h

/-- What precedes a step, without a move of the machine or a change of the registry. -/
theorem Left.of_eq {r₁ r₂ r₃ : Runner} (h : Left r₂ r₃) (hmachine : r₂.machine = r₁.machine)
    (hconnections : r₂.connections = r₁.connections) (hattached : r₂.attached = r₁.attached) :
    Left r₁ r₃ := by
  rw [Left, ← hmachine, ← hconnections, ← hattached]
  exact h

theorem left_move (machine : SessionStateMachine) (event : SessionEvent) (detail : Detail)
    (hrunning : machine.state = .closing → r.machine.state ≠ .closing →
      r.machine.state.isRunning) : Left r (r.move recording machine event detail) := by
  have hcloses : (closes (r.transition machine event detail) = true) ↔
      (r.machine.state.isRunning ∧ machine.state = .closing) := by
    rw [closes, decide_eq_true_iff]
    show r.machine.state ≠ machine.state ∧ machine.state = .closing ↔ _
    constructor
    · rintro ⟨hne, hclosing⟩
      rw [hclosing] at hne
      exact ⟨hrunning hclosing hne, hclosing⟩
    · rintro ⟨hrun, hclosing⟩
      rw [hclosing]
      exact ⟨(Occupancy.ne_of_isRunning hrun).2.2.1, rfl⟩
  rw [Left, attached_move, machine_move]
  by_cases h : r.machine.state.isRunning ∧ machine.state = .closing
  · rw [if_pos h, if_pos (hcloses.mpr h)]
  · rw [if_neg h, if_neg (h ∘ hcloses.mp), Nat.add_zero]

theorem left_send (r : Runner) (event : SessionEvent) (detail : Detail) :
    Left r (r.send recording event detail) := by
  unfold send
  cases hsend : r.machine.send event with
  | none => exact (Kept.refl r).left
  | some machine =>
    exact left_move machine event detail (SessionStateMachine.isRunning_of_send_closing hsend)

theorem kept_move (machine : SessionStateMachine) (event : SessionEvent) (detail : Detail)
    (hrunning : r.machine.state.isRunning → machine.state.isRunning)
    (hclosing : machine.state = .closing → r.machine.state = .closing) :
    Kept r (r.move recording machine event detail) := by
  constructor
  · rw [attached_move, closes, if_neg]
    rw [decide_eq_true_iff]
    rintro ⟨hne, hto⟩
    exact hne ((hclosing hto).trans hto.symm)
  · rw [machine_move]
    exact hrunning

theorem kept_send (r : Runner) (event : SessionEvent) (detail : Detail)
    (hstop : event ≠ .stopSession) (htimeout : event ≠ .timeout) (heviction : event ≠ .eviction) :
    Kept r (r.send recording event detail) := by
  unfold send
  cases hsend : r.machine.send event with
  | none => exact Kept.refl r
  | some machine =>
    obtain ⟨hrunning, hclosing⟩ :=
      SessionStateMachine.send_keeps hstop htimeout heviction hsend
    exact kept_move machine event detail hrunning hclosing

theorem kept_sendWithoutOccupancy (r : Runner) (event : SessionEvent) (detail : Detail) :
    Kept r (r.sendWithoutOccupancy recording event detail) := by
  unfold sendWithoutOccupancy SessionStateMachine.sendWithoutOccupancy
  by_cases hconnectable : r.machine.state.isConnectable = true
  · rw [if_pos hconnectable]
    exact kept_move r.machine event detail id id
  · rw [if_neg hconnectable]
    exact Kept.refl r

theorem kept_register (r : Runner) (conn : Connection) (system occupies : Bool) :
    Kept r (r.register recording conn system occupies) := by
  have hregistry (connections : ConnectionManager) : Kept r { r with connections } := ⟨rfl, id⟩
  unfold register
  dsimp only
  split_ifs
  · exact hregistry _
  · exact (hregistry _).trans
      (kept_send _ .connectionOpened _ (by decide) (by decide) (by decide))
  · exact (hregistry _).trans (kept_sendWithoutOccupancy _ .connectionOpened _)

theorem kept_drop (r : Runner) (cid : ConnId) : Kept r (r.drop recording cid) := by
  have hregistry (connections : ConnectionManager) : Kept r { r with connections } := ⟨rfl, id⟩
  unfold drop
  by_cases hmem : cid ∉ r.connections.byId
  · rw [if_pos hmem]
    exact Kept.refl r
  · rw [if_neg hmem]
    cases r.connections.details.lookup cid with
    | none => exact hregistry _
    | some detail =>
      dsimp only
      split_ifs
      · exact (hregistry _).trans (kept_sendWithoutOccupancy _ .connectionClosed _)
      · exact (hregistry _).trans
          (kept_send _ .connectionClosed _ (by decide) (by decide) (by decide))

theorem send_fact_eq (r : Runner) (event : SessionEvent) (detail : Detail)
    (hevent : event = .connectionAnswered ∨ event.isJournal) :
    r.send recording event detail = r.move recording r.machine event detail := by
  rw [send, SessionStateMachine.send_fact _ hevent]

theorem Left.of_fact (r : Runner) (event : SessionEvent) (detail : Detail)
    (hevent : event = .connectionAnswered ∨ event.isJournal)
    (h : Left (r.send recording event detail) r') : Left r r' := by
  rw [send_fact_eq r event detail hevent] at h
  exact h.of_eq (machine_move ..) (connections_move ..)
    (kept_move r.machine event detail id id).attached

theorem kept_finishStartingInput (r : Runner) (task : StartingTask) :
    Kept r (r.finishStartingInput recording task) := by
  have hset (r : Runner) : Kept r (if r.startingInputDone.number = task.done then
      { r with startingInputDone := { r.startingInputDone with isSet := true } } else r) := by
    split_ifs
    · exact ⟨rfl, id⟩
    · exact Kept.refl r
  have hposted (r : Runner) : Kept r { r with posted := r.posted ++ [.startingInputApplied] } :=
    ⟨rfl, id⟩
  unfold finishStartingInput
  by_cases happlies : r.applies task = true
  · rw [if_pos happlies]
    by_cases hruns : r.runsUnattended = true
    · rw [if_pos hruns]
      exact (hposted r).trans (hset _)
    · rw [if_neg hruns]
      exact ((kept_drop r _).trans (hposted _)).trans (hset _)
  · rw [if_neg happlies]
    exact hset r

theorem machine_finishStartingInput {task : StartingTask} (h : r.machine.state.isRunning = false) :
    (r.finishStartingInput recording task).machine = r.machine := by
  have happlies : ¬ r.applies task = true := by
    rw [applies, h, Bool.and_false]
    decide
  unfold finishStartingInput
  rw [if_neg happlies]
  show (if r.startingInputDone.number = task.done then
    { r with startingInputDone := { r.startingInputDone with isSet := true } } else r).machine = _
  split_ifs <;> rfl

theorem isRunning_send_stop (r : Runner) (detail : Detail) :
    (r.send recording .stopSession detail).machine.state.isRunning = false := by
  unfold send
  cases hsend : r.machine.send .stopSession with
  | none =>
    cases hstate : r.machine.state <;>
      simp_all [SessionStateMachine.send, SessionStateMachine.resolve, TRANSITIONS,
        SessionState.isRunning]
  | some machine =>
    obtain ⟨-, rfl⟩ := SessionStateMachine.send_stop_eq_some (.inl rfl) hsend
    dsimp only
    rw [machine_move]
    rfl

theorem left_applyStartingInput (r : Runner) (task : StartingTask) (refusal : Option String) :
    Left r (r.applyStartingInput recording task refusal).1 := by
  unfold applyStartingInput
  split
  · exact (kept_finishStartingInput r task).left
  · split_ifs
    · exact (kept_finishStartingInput r task).left
    · exact Kept.left ⟨rfl, id⟩
  · cases refusal with
    | none => exact left_send r .command .fact
    | some refusal =>
      dsimp only
      split_ifs
      · apply Left.of_fact r .error .fact (.inr rfl)
        refine (left_send _ .stopSession _).trans (machine_finishStartingInput ?_)
          (kept_finishStartingInput _ task).attached
        exact isRunning_send_stop _ _
      · exact left_send r .error .fact

theorem kept_applyStartingInput (r : Runner) (task : StartingTask) :
    Kept r (r.applyStartingInput recording task none).1 := by
  unfold applyStartingInput
  split
  · exact kept_finishStartingInput r task
  · split_ifs
    · exact kept_finishStartingInput r task
    · exact ⟨rfl, id⟩
  · exact kept_send r .command .fact (by decide) (by decide) (by decide)

theorem left_recordStep (r : Runner) (step : CompletedStep) (saved : Bool) :
    Left r (r.recordStep recording step saved) := by
  unfold recordStep saveStep
  dsimp only
  split_ifs
  · exact (Kept.refl r).left
  · exact (Kept.refl r).left
  · exact ((left_send _ .stopSession _).of_fact _ .stepCompleted _ (.inr rfl)).of_eq rfl rfl rfl
  · exact (left_send _ .stepCompleted _).of_eq rfl rfl rfl

theorem left_emitHandlerFailure (r : Runner) (connId : ConnId) (requestId : ℕ) (message : String)
    (saved : Bool) :
    Left r (r.emitHandlerFailure recording connId requestId message saved) := by
  have hsteps (numbers : List ℕ) (r r' : Runner)
      (h : Left (numbers.foldl (failStep recording saved message) r) r') : Left r r' := by
    induction numbers generalizing r with
    | nil => exact h
    | cons number numbers ih =>
      exact ((ih _ h).of_fact _ .stepCompleted _ (.inr rfl)).of_eq rfl rfl rfl
  unfold emitHandlerFailure
  dsimp only
  split
  · exact left_send r .error .fact
  · split_ifs
    · apply Left.of_fact r .error .fact (.inr rfl)
      unfold failRemainingSteps
      exact (hsteps _ _ _ (left_send _ .stopSession _)).of_eq rfl rfl rfl
    · exact left_send r .error .fact

theorem kept_startSession (r : Runner) (params : SessionParams) (drawn : Drawn) :
    Kept r (r.startSession recording params drawn) := by
  have hbegin (r : Runner) : Kept r (r.beginSessionInputs recording) := by
    unfold beginSessionInputs
    dsimp only
    have hend (s : Runner) (number : ℕ) : Kept s (s.spawnStartingInput number) := by
      unfold spawnStartingInput
      split <;> exact ⟨rfl, id⟩
    have hreset (number : ℕ) : Kept r { r with
        startingInputDone := { number, isSet := false }
        stepsCompleted := 0
        startingRequestIds := ∅
        stepsFailed := false } := ⟨rfl, id⟩
    split_ifs
    · exact ((hreset _).trans (kept_register _ SystemConnection true _)).trans (hend _ _)
    · exact (hreset _).trans (hend _ _)
  unfold startSession
  dsimp only
  split_ifs
  · exact Kept.refl r
  · have hepochs (r : Runner) : Kept r { r with offerEpochs := r.offerEpochs.sessionStarted } :=
      ⟨rfl, id⟩
    have hsend : Kept r (r.send recording .startSession (.params params drawn)) :=
      kept_send r .startSession _ (by decide) (by decide) (by decide)
    exact (hsend.trans (hepochs _)).trans (hbegin _)

theorem kept_connectionOpened (r : Runner) (conn : Connection) :
    Kept r ({ r with offers := r.offers.erase conn.id }.connectionOpened recording conn) := by
  have hconsumed : Kept r { r with
      offers := r.offers.erase conn.id, offerEpochs := r.offerEpochs.consume conn.id } :=
    ⟨rfl, id⟩
  unfold connectionOpened
  dsimp only
  split_ifs
  · exact hconsumed
  · exact hconsumed.trans (kept_register _ conn false true)

/-- What a step leaves behind. -/
theorem left_next {label : Label} (hnext : next recording r label = some r') : Left r r' := by
  cases label with
  | initializing =>
    cases hnext
    exact left_send r _ _
  | initialized success =>
    cases hnext
    exact left_send r _ _
  | startSession params drawn =>
    cases hnext
    exact (kept_startSession r params drawn).left
  | offerAdmitted connId =>
    simp only [next] at hnext
    split_ifs at hnext
    cases hnext
    exact Kept.left ⟨rfl, id⟩
  | connectionOpened conn =>
    simp only [next] at hnext
    split_ifs at hnext
    cases hnext
    exact (kept_connectionOpened r conn).left
  | connectionClosed connId =>
    cases hnext
    exact (kept_drop r connId).left
  | connectionAnswered connId =>
    cases hnext
    exact left_send r _ _
  | startingInput task refusal =>
    simp only [next] at hnext
    split at hnext
    · cases hnext
    · cases hnext
      exact (left_applyStartingInput r _ refusal).trans rfl rfl
  | recordStep step saved =>
    simp only [next] at hnext
    split_ifs at hnext
    cases hnext
    exact left_recordStep r step saved
  | handlerFailed connId requestId message saved =>
    cases hnext
    exact left_emitHandlerFailure r connId requestId message saved
  | stopSession reason closeReason =>
    cases hnext
    exact left_send r _ _
  | timeout =>
    cases hnext
    exact left_send r _ _
  | evicted =>
    cases hnext
    exact left_send r _ _
  | journal event =>
    simp only [next] at hnext
    split_ifs at hnext
    cases hnext
    exact left_send r _ _
  | teardown task =>
    simp only [next] at hnext
    split at hnext
    · cases hnext
    next t hi =>
      cases hnext
      have hteardown : Left r (r.teardown recording t).1 := by
        unfold teardown
        split_ifs
        · exact Kept.left ⟨rfl, id⟩
        · split
          · exact (Kept.refl r).left
          · exact left_send r _ _
      exact hteardown.trans rfl rfl
  | stopRecorder stop =>
    simp only [next] at hnext
    split at hnext
    · cases hnext
    · cases hnext
      exact Kept.left ⟨rfl, id⟩

/-! ### A run -/

/-- A step that ends a session ends one with no connection registered. -/
def Detached (recording : Bool) (r : Runner) (label : Label) : Prop :=
  ∀ r', next recording r label = some r' → r.machine.state.isRunning →
    r'.machine.state = .closing → r.connections.count = 0

instance (r : Runner) (label : Label) : Decidable (Detached recording r label) :=
  match h : next recording r label with
  | none => .isTrue fun r' hnext => by rw [h] at hnext; cases hnext
  | some r' =>
    decidable_of_iff (r.machine.state.isRunning → r'.machine.state = .closing →
      r.connections.count = 0) (by simp [Detached, h])

/-- Nothing is left behind in exactly the runs whose sessions end with no connection registered. -/
theorem attached_eq_zero_iff {labels : List Label} (hrun : (runner recording).run labels = some r) :
    r.attached = 0 ↔ (runner recording).AllSteps (Detached recording) labels := by
  refine TransitionSystem.run_induction (T := runner recording)
    (motive := fun labels r => r.attached = 0 ↔
      (runner recording).AllSteps (Detached recording) labels) ?_ ?_ labels r hrun
  · exact ⟨fun _ => trivial, fun _ => rfl⟩
  · intro labels r label r' hr ih hnext
    have hleft := left_next hnext
    rw [TransitionSystem.AllSteps, TransitionSystem.allStepsFrom_concat,
      ← TransitionSystem.AllSteps, ← ih]
    constructor
    · intro hzero
      rw [Left] at hleft
      refine ⟨by omega, fun s hs => ?_⟩
      obtain rfl : r = s := Option.some.inj (hr.symm.trans hs)
      intro s' hnext' hrunning hclosing
      obtain rfl : r' = s' := Option.some.inj (hnext.symm.trans hnext')
      rw [if_pos ⟨hrunning, hclosing⟩] at hleft
      omega
    · rintro ⟨hzero, hdetached⟩
      rw [hleft, hzero, Nat.zero_add]
      split_ifs with hends
      · exact hdetached r hr r' hnext hends.1 hends.2
      · rfl

/-- In a session that runs, and where one can begin, the journal's state is the machine's, and it
counts the registered connections if and only if every session so far ended with none. -/
theorem snapshot_mirrors {labels : List Label} (hrun : (runner recording).run labels = some r)
    (hopen : r.machine.state.isRunning ∨ r.machine.state = .ready) :
    r.events.snapshot.state = some r.machine.state ∧
      (r.events.snapshot.connections = r.connections.count ↔
        (runner recording).AllSteps (Detached recording) labels) := by
  obtain ⟨-, hmirror⟩ := isInvariant_mirror.of_run hrun
  have hstate : isOpen r.machine.state ∧ r.machine.state ≠ .created := by
    rcases hopen with hrunning | hready
    · exact ⟨isOpen_of_isRunning hrunning, (Occupancy.ne_of_isRunning hrunning).1⟩
    · rw [hready]
      exact ⟨rfl, by decide⟩
  refine ⟨hmirror.state hstate.2, ?_⟩
  rw [← attached_eq_zero_iff hrun]
  show r.events.connections = r.connections.count ↔ r.attached = 0
  rw [hmirror.opened hstate.1]
  omega

/-- A session a client joins and leaves, and the next one. -/
def leftRun : List Label :=
  [.initialized true, .startSession {} { uuid := "" }, .offerAdmitted 1,
    .connectionOpened { id := 1 }, .connectionClosed 1, .stopSession .stopped "", .teardown 0,
    .teardown 0, .startSession {} { uuid := "" }, .offerAdmitted 2, .connectionOpened { id := 2 }]

theorem isSome_leftRun : ((runner true).run leftRun).isSome := rfl

theorem snapshot_mirrors_left :
    let r := ((runner true).run leftRun).get isSome_leftRun
    r.connections.count = 1 ∧ r.events.snapshot.connections = r.connections.count :=
  ⟨by decide +kernel, (snapshot_mirrors (Option.some_get isSome_leftRun).symm
    (.inl (by decide +kernel))).2.mpr (by decide +kernel)⟩

def attachedRun : List Label :=
  [.initialized true, .startSession {} { uuid := "" }, .offerAdmitted 1,
    .connectionOpened { id := 1 }, .stopSession .stopped "", .teardown 0, .teardown 0]

/-- The journal can count a connection where none is registered. -/
theorem snapshot_not_mirrors : ¬ ∀ labels r, (runner true).run labels = some r →
    r.machine.state.isRunning ∨ r.machine.state = .ready →
      r.events.snapshot.connections = r.connections.count := by
  have hrun : ((runner true).run attachedRun).any fun r =>
      r.machine.state = .ready ∧ r.events.snapshot.connections ≠ r.connections.count := by
    decide +kernel
  obtain ⟨r, hr, hleft⟩ := (Option.any_eq_true ..).mp hrun
  obtain ⟨hready, hne⟩ := of_decide_eq_true hleft
  intro h
  exact hne (h attachedRun r hr (.inr hready))

end Runner

end ReactorRuntime.Runtime
